import EspHosted.Control.Commands

/-!
# A command and the response of another one

No command looks at `payload_case`, so a response of another kind is read through
the wrong member of the union. A command is only safe from it when the union is
empty, or when the other message has the same struct type and reports a failure.
-/

namespace EspHosted

namespace Control

inductive Command where
  | wifiGetMac
  | wifiSetMac
  | wifiGetMode
  | wifiSetMode
  | wifiSetApConfig
  | wifiGetApConfig
  | wifiDisconnectAp
  | wifiSetSoftapConfig
  | wifiGetSoftapConfig
  | wifiStopSoftap
  | wifiApScanList
  | wifiConnectedStationsList
  | wifiSetPowerSaveMode
  | wifiGetPowerSaveMode
  | espOtaBegin
  | espOtaWrite
  | espOtaEnd
  deriving DecidableEq, Repr

namespace Command

/-- The response the slave is to send. -/
def respCase : Command → PayloadCase
  | wifiGetMac => .respGetMacAddress
  | wifiSetMac => .respSetMacAddress
  | wifiGetMode => .respGetWifiMode
  | wifiSetMode => .respSetWifiMode
  | wifiSetApConfig => .respSetApConfig
  | wifiGetApConfig => .respGetApConfig
  | wifiDisconnectAp => .respDisconnectAp
  | wifiSetSoftapConfig => .respSetSoftapConfig
  | wifiGetSoftapConfig => .respGetSoftapConfig
  | wifiStopSoftap => .respStopSoftap
  | wifiApScanList => .respScanApList
  | wifiConnectedStationsList => .respConnectedStasList
  | wifiSetPowerSaveMode => .respSetPowerSaveMode
  | wifiGetPowerSaveMode => .respGetPowerSaveMode
  | espOtaBegin => .respOtaBegin
  | espOtaWrite => .respOtaWrite
  | espOtaEnd => .respOtaEnd

def handle : Command → EspHostedConfigPayload → Confused → Response × Bool
  | wifiGetMac => Control.wifiGetMac
  | wifiSetMac => Control.wifiSetMac
  | wifiGetMode => Control.wifiGetMode
  | wifiSetMode => Control.wifiSetMode
  | wifiSetApConfig => Control.wifiSetApConfig
  | wifiGetApConfig => Control.wifiGetApConfig
  | wifiDisconnectAp => Control.wifiDisconnectAp
  | wifiSetSoftapConfig => Control.wifiSetSoftapConfig
  | wifiGetSoftapConfig => Control.wifiGetSoftapConfig
  | wifiStopSoftap => Control.wifiStopSoftap
  | wifiApScanList => Control.wifiApScanList
  | wifiConnectedStationsList => Control.wifiConnectedStationsList
  | wifiSetPowerSaveMode => Control.wifiSetPowerSaveMode
  | wifiGetPowerSaveMode => Control.wifiGetPowerSaveMode
  | espOtaBegin => Control.espOtaBegin
  | espOtaWrite => Control.espOtaWrite
  | espOtaEnd => Control.espOtaEnd

end Command

/-- The `resp` field of a response, 0 for a request. -/
def Contents.resp : {t : StructType} → Contents t → Int32
  | .respGetMacAddress, r => RespGetMacAddress.resp r
  | .respGetMode, r => RespGetMode.resp r
  | .respGetAPConfig, r => RespGetAPConfig.resp r
  | .respGetSoftAPConfig, r => RespGetSoftAPConfig.resp r
  | .respScanResult, r => RespScanResult.resp r
  | .respConnectedSTA, r => RespConnectedSTA.resp r
  | .respSetMode, r => RespStatus.resp r
  | .respGetStatus, r => RespStatus.resp r
  | .respSetMacAddress, r => RespStatus.resp r
  | .respSetAPConfig, r => RespStatus.resp r
  | .respSetSoftAPConfig, r => RespStatus.resp r
  | .respOTABegin, r => RespStatus.resp r
  | .respOTAWrite, r => RespStatus.resp r
  | .respOTAEnd, r => RespStatus.resp r
  | _, _ => 0

def Ret.isFailure : Ret → Bool
  | .int x => x == FAILURE
  | .scanList l => l.isNone
  | .stationsList l => l.isNone

/-- The message is the response that belongs to `member`. -/
def IsResponse (member : PayloadCase) (resp : EspHostedConfigPayload) : Prop :=
  ∃ p, resp.payload = some p ∧ p.payloadCase = member

/-- Success and data only come from the own response; anything else is a failure,
and is not read as something it is not. -/
structure TypeSafe (member : PayloadCase) (resp : EspHostedConfigPayload)
    (r : Response × Bool) : Prop where
  success : r.1.ret.isSuccess = true → IsResponse member resp
  writes : r.1.writes ≠ [] → IsResponse member resp
  failure : ¬ IsResponse member resp → r.1.ret.isFailure = true
  wellTyped : ¬ IsResponse member resp → r.2 = false

/-- A set oneof is the own response, or one of the same struct type that reports a
failure. -/
def NotMistaken (member : PayloadCase) (resp : EspHostedConfigPayload) : Prop :=
  ∀ p, resp.payload = some p →
    p.payloadCase = member ∨
      (p.payloadCase.structType = member.structType ∧ p.contents.resp ≠ 0)

/-- Another case of the oneof has the same struct type. -/
def SharesType (member : PayloadCase) : Prop :=
  ∃ other, other ≠ member ∧ other.structType = member.structType

/-- A failure that leaves the caller's memory alone. -/
structure Fails (r : Response) : Prop where
  failure : r.ret.isFailure = true
  notSuccess : r.ret.isSuccess = false
  writes : r.writes = []

theorem Contents.resp_cast {t u : StructType} (h : t = u) (v : Contents t) :
    Contents.resp (h ▸ v : Contents u) = v.resp := by
  subst h
  rfl

theorem readMember_of_eq {member : PayloadCase} {p : Oneof}
    (h : p.payloadCase.structType = member.structType) (hasMsg : Bool) (msg : Int32)
    (confused : Confused) :
    readMember member ⟨hasMsg, msg, some p⟩ confused = some (h ▸ p.contents, false) := by
  simp only [readMember, dif_pos h]

theorem readMember_of_ne {member : PayloadCase} {p : Oneof}
    (h : p.payloadCase.structType ≠ member.structType) (hasMsg : Bool) (msg : Int32)
    (confused : Confused) :
    readMember member ⟨hasMsg, msg, some p⟩ confused =
      some (confused member.structType, true) := by
  simp only [readMember, dif_neg h]

section Respond

variable {member : PayloadCase} {failed : Response}
  {body : Contents member.structType → Response}

/-- What matters of a command: the empty union is a failure, and where another case
shares the struct type, `resp` alone decides. -/
theorem typeSafe_respond_iff (hfailed : Fails failed)
    (hbody : SharesType member → ∀ v : Contents member.structType,
      (v.resp = 0 → (body v).ret.isSuccess = true) ∧ (v.resp ≠ 0 → Fails (body v)))
    (resp : EspHostedConfigPayload) (confused : Confused) :
    TypeSafe member resp (respond member failed body resp confused) ↔
      NotMistaken member resp := by
  obtain ⟨hasMsg, msg, payload⟩ := resp
  cases payload with
  | none =>
      have hother : ¬ IsResponse member ⟨hasMsg, msg, none⟩ := by
        intro h
        obtain ⟨p, hp, -⟩ := h
        cases hp
      refine iff_of_true ?_ ?_
      · constructor
        · intro hs
          exact absurd (hfailed.notSuccess.symm.trans hs) (by decide)
        · intro hw
          exact absurd hfailed.writes hw
        · intro _
          exact hfailed.failure
        · intro _
          rfl
      · intro p hp
        cases hp
  | some p =>
      by_cases hown : p.payloadCase = member
      · have hresp : IsResponse member ⟨hasMsg, msg, some p⟩ := ⟨p, rfl, hown⟩
        refine iff_of_true ?_ ?_
        · exact ⟨fun _ => hresp, fun _ => hresp, fun h => absurd hresp h,
            fun h => absurd hresp h⟩
        · intro p' hp'
          cases hp'
          exact Or.inl hown
      · have hother : ¬ IsResponse member ⟨hasMsg, msg, some p⟩ := by
          intro h
          obtain ⟨p', hp', hcase⟩ := h
          cases hp'
          exact hown hcase
        have hmistaken : NotMistaken member ⟨hasMsg, msg, some p⟩ ↔
            p.payloadCase.structType = member.structType ∧ p.contents.resp ≠ 0 := by
          constructor
          · intro h
            exact (h p rfl).resolve_left hown
          · intro h p' hp'
            cases hp'
            exact Or.inr h
        rw [hmistaken]
        by_cases htype : p.payloadCase.structType = member.structType
        · obtain ⟨hsuccess, hfails⟩ := hbody ⟨_, hown, htype⟩ (htype ▸ p.contents)
          rw [Contents.resp_cast] at hsuccess hfails
          rw [respond, readMember_of_eq htype]
          constructor
          · intro h
            refine ⟨htype, ?_⟩
            intro hresp
            exact hother (h.success (hsuccess hresp))
          · intro h
            have hfail := hfails h.2
            constructor
            · intro hs
              exact absurd (hfail.notSuccess.symm.trans hs) (by decide)
            · intro hw
              exact absurd hfail.writes hw
            · intro _
              exact hfail.failure
            · intro _
              rfl
        · rw [respond, readMember_of_ne htype]
          constructor
          · intro h
            cases h.wellTyped hother
          · intro h
            exact absurd h.1 htype

end Respond

theorem fails_err1 : Fails err1 := ⟨rfl, rfl, rfl⟩

theorem not_sharesType {member : PayloadCase}
    (h : ∀ other : PayloadCase, other.structType = member.structType → other = member) :
    ¬ SharesType member := by
  intro hs
  obtain ⟨other, hne, htype⟩ := hs
  exact hne (h other htype)

/-- The commands that only look at `resp`. -/
theorem statusOnly_spec (v : RespStatus) :
    (v.resp = 0 → (statusOnly v).ret.isSuccess = true) ∧
      (v.resp ≠ 0 → Fails (statusOnly v)) := by
  constructor
  · intro h
    rw [statusOnly, if_neg (not_not.2 h)]
    rfl
  · intro h
    rw [statusOnly, if_pos h]
    exact fails_err1

/-- The commands that return a mode. -/
theorem getMode_spec (f : CallerField) (v : RespGetMode) :
    (v.resp = 0 → (if v.resp ≠ 0 then err1 else
      { ret := .int SUCCESS, writes := [⟨f, .assign v.mode.toInt⟩] }).ret.isSuccess = true) ∧
    (v.resp ≠ 0 → Fails (if v.resp ≠ 0 then err1 else
      { ret := .int SUCCESS, writes := [⟨f, .assign v.mode.toInt⟩] })) := by
  constructor
  · intro h
    rw [if_neg (not_not.2 h)]
    rfl
  · intro h
    rw [if_pos h]
    exact fails_err1

/-- A command takes no response for its own exactly when the response is its own, or
empty, or a failure of the same struct type. -/
theorem response_type_safe_iff (c : Command) (resp : EspHostedConfigPayload)
    (confused : Confused) :
    TypeSafe c.respCase resp (c.handle resp confused) ↔ NotMistaken c.respCase resp := by
  cases c with
  | wifiGetMode =>
      refine typeSafe_respond_iff fails_err1 ?_ resp confused
      intro _ v
      exact getMode_spec .mode v
  | wifiGetPowerSaveMode =>
      refine typeSafe_respond_iff fails_err1 ?_ resp confused
      intro _ v
      exact getMode_spec .powerSaveMode v
  | wifiSetMode | wifiSetPowerSaveMode | wifiDisconnectAp | wifiStopSoftap =>
      refine typeSafe_respond_iff fails_err1 ?_ resp confused
      intro _ v
      exact statusOnly_spec v
  | wifiApScanList | wifiConnectedStationsList =>
      refine typeSafe_respond_iff ⟨rfl, rfl, rfl⟩ ?_ resp confused
      intro hshared
      refine absurd hshared (not_sharesType ?_)
      intro other
      cases other <;> decide
  | wifiGetMac | wifiSetMac | wifiSetApConfig | wifiGetApConfig | wifiSetSoftapConfig
  | wifiGetSoftapConfig | espOtaBegin | espOtaWrite | espOtaEnd =>
      refine typeSafe_respond_iff fails_err1 ?_ resp confused
      intro hshared
      refine absurd hshared (not_sharesType ?_)
      intro other
      cases other <;> decide

/-- The slave reports the power save mode, with no error. -/
def powerSaveReply : EspHostedConfigPayload where
  hasMsg := true
  msg := 27
  payload := some ⟨.respGetPowerSaveMode, (⟨2, 0⟩ : RespGetMode)⟩

/-- Memory full of zeros, read as any struct. -/
def clearedMemory : Confused
  | .respGetMacAddress => (⟨none, 0⟩ : RespGetMacAddress)
  | .respGetMode => (⟨0, 0⟩ : RespGetMode)
  | .respGetAPConfig => (⟨none, none, 0, 0, 0, 0⟩ : RespGetAPConfig)
  | .respGetSoftAPConfig => (⟨none, none, 0, 0, 0, false, 0, 0⟩ : RespGetSoftAPConfig)
  | .respScanResult => (⟨0, [], 0⟩ : RespScanResult)
  | .respConnectedSTA => (⟨0, [], 0⟩ : RespConnectedSTA)
  | .respSetMode | .respGetStatus | .respSetMacAddress | .respSetAPConfig
  | .respSetSoftAPConfig | .respOTABegin | .respOTAWrite | .respOTAEnd =>
      (⟨0⟩ : RespStatus)
  | .cmdGetMacAddress | .cmdGetMode | .cmdSetMode | .cmdGetAPConfig | .cmdSetAPConfig
  | .cmdGetSoftAPConfig | .cmdSetSoftAPConfig | .cmdGetStatus | .cmdScanResult
  | .cmdConnectedSTA | .cmdSetMacAddress | .cmdOTABegin | .cmdOTAWrite | .cmdOTAEnd => ()

/-- `wifi_get_mode` takes it for the wifi mode. -/
theorem power_save_reply_mistaken :
    (Command.wifiGetMode.handle powerSaveReply clearedMemory).1.writes =
      [⟨.mode, .assign 2⟩] ∧
    ¬ TypeSafe Command.wifiGetMode.respCase powerSaveReply
      (Command.wifiGetMode.handle powerSaveReply clearedMemory) := by
  have hwrites : (Command.wifiGetMode.handle powerSaveReply clearedMemory).1.writes =
      [⟨.mode, .assign 2⟩] := rfl
  refine ⟨hwrites, ?_⟩
  intro h
  obtain ⟨p, hp, hcase⟩ := h.writes (by rw [hwrites]; exact List.cons_ne_nil _ _)
  cases hp
  cases hcase

end Control

end EspHosted
