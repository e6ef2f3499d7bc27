import EspHosted.Control.ResponseType
import EspHosted.Control.SetApConfig
import EspHosted.Lib.Word
import EspHosted.Protobuf.Payload
import Mathlib.Algebra.Order.BigOperators.Group.List
import Mathlib.Data.List.TakeWhile

/-!
# The requests of the commands

What each command of `commands.c` checks of its arguments, and the message it packs. A
pointer that a command only stores through is a `Bool`: whether it is not `NULL`.

Three of the commands set the case of the payload and leave the pointer in the union `NULL`.
The runtime does not pack such a member, so that the case does not get to the slave, and
`transmitted` is what does.
-/

namespace EspHosted

open EspHosted.Bytes EspHosted.Control

namespace Protobuf

/-! ## The struct of a request -/

/-- A store to a member of the struct. -/
def Message.store {ι μ : Type} (m : Message ι μ) (offset : ℕ) (member : Member μ) :
    Message ι μ :=
  { m with members := m.members.set offset member }

/-- `EspHostedConfigMsgType` of the request of a command -/
def msgType : Command → UInt32
  | .wifiGetMac => 0
  | .wifiGetMode => 2
  | .wifiSetMode => 4
  | .wifiGetApConfig => 6
  | .wifiSetApConfig => 8
  | .wifiGetSoftapConfig => 10
  | .wifiSetSoftapConfig => 12
  | .wifiDisconnectAp => 14
  | .wifiStopSoftap => 16
  | .wifiApScanList => 18
  | .wifiConnectedStationsList => 20
  | .wifiSetMac => 22
  | .wifiSetPowerSaveMode => 24
  | .wifiGetPowerSaveMode => 26
  | .espOtaBegin => 28
  | .espOtaWrite => 30
  | .espOtaEnd => 32

/-- `req` after `esp_hosted_config_payload__init` and the store of `msg`. -/
def reqOf (c : Command) : Msg Descriptor 3 :=
  (messageInit espTable .configPayload).store 0 (.optional true (.word (msgType c)))

/-- The stores of `payload_case` and of the pointer in the union. -/
def withPayload (req : Msg Descriptor 3) (payloadCase : PayloadCase)
    (payload : Option (Msg Descriptor 2)) : Msg Descriptor 3 :=
  req.body.store 1 (.oneof (payloadNumber payloadCase) (.message payload))

/-- `req_payload` after its `__init` and the stores of a command. -/
def reqPayload (t : StructType) (members : List (Member (Msg Descriptor 1))) :
    Msg Descriptor 2 :=
  let init : Message Descriptor (Msg Descriptor 1) := messageInit espTable (.struct t)
  { init with members := members }

def intMember (x : Int32) : Member (Msg Descriptor 1) := .optional true (.word x.toUInt32)

def boolMember (b : Bool) : Member (Msg Descriptor 1) := .optional true (.bool b)

def stringMember (s : List UInt8) : Member (Msg Descriptor 1) := .optional false (.string (some s))

def bytesMember (data : List UInt8) : Member (Msg Descriptor 1) := .optional true (.bytes data)

/-! ## The commands -/

def WIFI_MODE_NONE : Int32 := 0
def WIFI_MODE_APSTA : Int32 := 3
def WIFI_MODE_MAX : Int32 := 4

def wifiGetMacRequest (mode : Int32) (mac : Bool) : Option (Msg Descriptor 3) :=
  if !mac ∨ mode ≤ WIFI_MODE_NONE ∨ WIFI_MODE_APSTA ≤ mode then
    none
  else
    some (withPayload (reqOf .wifiGetMac) .cmdGetMacAddress
      (some (reqPayload .cmdGetMacAddress [intMember mode])))

/-- `mac` is the memory the pointer leads to. -/
def wifiSetMacRequest (mode : Int32) (mac : Option (List UInt8)) : Option (Msg Descriptor 3) :=
  match mac with
  | none => none
  | some mac =>
      if mode ≤ WIFI_MODE_NONE ∨ WIFI_MODE_APSTA ≤ mode then
        none
      else if strlen mac = 0 ∨ maxBssidLength < strlen mac then
        none
      else
        some (withPayload (reqOf .wifiSetMac) .cmdSetMacAddress
          (some (reqPayload .cmdSetMacAddress
            [bytesMember (mac.take (min (strlen mac) macLength)), intMember mode])))

def wifiGetModeRequest (mode : Bool) : Option (Msg Descriptor 3) :=
  if !mode then none else some (reqOf .wifiGetMode)

def wifiSetModeRequest (mode : Int32) : Option (Msg Descriptor 3) :=
  if mode < WIFI_MODE_NONE ∨ WIFI_MODE_MAX ≤ mode then
    none
  else
    some (withPayload (reqOf .wifiSetMode) .cmdSetWifiMode
      (some (reqPayload .cmdSetMode [intMember mode])))

/-- The pointers lead into the copy of `ap_config`. -/
def setApConfigPayload (r : CmdSetAPConfig) : Msg Descriptor 2 :=
  reqPayload .cmdSetAPConfig
    [stringMember r.ssid, stringMember r.pwd, stringMember r.bssid,
      .optional r.hasIsWpa3Supported (.bool r.isWpa3Supported),
      .optional r.hasListenInterval (.word r.listenInterval.toUInt32)]

def wifiSetApConfigReq (apConfig : ControlConfig) (beyond : List UInt8) :
    Option (Msg Descriptor 3) :=
  (wifiSetApConfigRequest apConfig beyond).map fun r =>
    withPayload (reqOf .wifiSetApConfig) .cmdSetApConfig (some (setApConfigPayload r))

def wifiGetApConfigRequest (apConfig : Bool) : Option (Msg Descriptor 3) :=
  if !apConfig then none else some (reqOf .wifiGetApConfig)

def wifiDisconnectApRequest : Option (Msg Descriptor 3) := some (reqOf .wifiDisconnectAp)

/-- `esp_hosted_softap_config_t`. An enumeration takes as many bytes as its constants need,
one for `bandwidth`. -/
structure SoftapConfig where
  ssid : List UInt8
  pwd : List UInt8
  channel : Int32
  encryptionMode : Int32
  maxConnections : Int32
  ssidHidden : Bool
  bandwidth : UInt8
  length_ssid : ssid.length = ssidLength
  length_pwd : pwd.length = passwordLength

namespace SoftapConfig

variable (c : SoftapConfig) (beyond : List UInt8)

/-- What the pointer to `pwd` leads to; `beyond` stands behind `channel`. -/
def pwdPointer : List UInt8 := c.pwd ++ (le32Bytes c.channel.toUInt32 ++ beyond)

def ssidPointer : List UInt8 := c.ssid ++ c.pwdPointer beyond

end SoftapConfig

def minPwdLength : ℕ := 8
def MIN_CHNL_NO : Int32 := 1
def MAX_CHNL_NO : Int32 := 11
def MIN_CONN_NO : Int32 := 1
def MAX_CONN_NO : Int32 := 10
def Type_Open : Int32 := 0
def Type_WEP : Int32 := 1
def Type_WPA_WPA2_PSK : Int32 := 4
def WIFI_BW_HT20 : UInt8 := 1
def WIFI_BW_HT40 : UInt8 := 2

def wifiSetSoftapConfigRequest (c : SoftapConfig) (beyond : List UInt8) :
    Option (Msg Descriptor 3) :=
  let ssid := c.ssidPointer beyond
  let pwd := c.pwdPointer beyond
  if maxSsidLength < strlen ssid ∨ strlen ssid = 0 then
    none
  else if maxPwdLength < strlen pwd ∨ c.encryptionMode ≠ Type_Open ∧ strlen pwd < minPwdLength then
    none
  else if c.channel < MIN_CHNL_NO ∨ MAX_CHNL_NO < c.channel then
    none
  else if c.encryptionMode < Type_Open ∨ c.encryptionMode = Type_WEP ∨
      Type_WPA_WPA2_PSK < c.encryptionMode then
    none
  else if c.maxConnections < MIN_CONN_NO ∨ MAX_CONN_NO < c.maxConnections then
    none
  else if c.bandwidth < WIFI_BW_HT20 ∨ WIFI_BW_HT40 < c.bandwidth then
    none
  else
    some (withPayload (reqOf .wifiSetSoftapConfig) .cmdSetSoftapConfig
      (some (reqPayload .cmdSetSoftAPConfig
        [stringMember (cstr ssid), stringMember (cstr pwd), intMember c.channel,
          intMember c.encryptionMode, intMember c.maxConnections, boolMember c.ssidHidden,
          intMember c.bandwidth.toUInt32.toInt32])))

def wifiGetSoftapConfigRequest (softapConfig : Bool) : Option (Msg Descriptor 3) :=
  if !softapConfig then none else some (reqOf .wifiGetSoftapConfig)

def wifiStopSoftapRequest : Option (Msg Descriptor 3) := some (reqOf .wifiStopSoftap)

def wifiApScanListRequest (count : Bool) : Option (Msg Descriptor 3) :=
  if !count then none else some (reqOf .wifiApScanList)

def wifiConnectedStationsListRequest (num : Bool) : Option (Msg Descriptor 3) :=
  if !num then none else some (reqOf .wifiConnectedStationsList)

def WIFI_PS_MIN_MODEM : Int32 := 1
def WIFI_PS_INVALID : Int32 := 3

def wifiSetPowerSaveModeRequest (powerSaveMode : Int32) : Option (Msg Descriptor 3) :=
  if powerSaveMode < WIFI_PS_MIN_MODEM ∨ WIFI_PS_INVALID ≤ powerSaveMode then
    none
  else
    some (withPayload (reqOf .wifiSetPowerSaveMode) .cmdSetPowerSaveMode
      (some (reqPayload .cmdSetMode [intMember powerSaveMode])))

def wifiGetPowerSaveModeRequest (powerSaveMode : Bool) : Option (Msg Descriptor 3) :=
  if !powerSaveMode then none
  else some (withPayload (reqOf .wifiGetPowerSaveMode) .cmdGetPowerSaveMode none)

def espOtaBeginRequest : Option (Msg Descriptor 3) :=
  some (withPayload (reqOf .espOtaBegin) .cmdOtaBegin none)

/-- `otaData` are the `ota_data_len` bytes at the pointer. -/
def espOtaWriteRequest (otaData : Option (List UInt8)) : Option (Msg Descriptor 3) :=
  match otaData with
  | none => none
  | some otaData =>
      if otaData.length = 0 then
        none
      else
        some (withPayload (reqOf .espOtaWrite) .cmdOtaWrite
          (some (reqPayload .cmdOTAWrite [bytesMember otaData])))

def espOtaEndRequest : Option (Msg Descriptor 3) :=
  some (withPayload (reqOf .espOtaEnd) .cmdOtaEnd none)

/-- A call of a command. -/
inductive Call where
  | wifiGetMac (mode : Int32) (mac : Bool)
  | wifiSetMac (mode : Int32) (mac : Option (List UInt8))
  | wifiGetMode (mode : Bool)
  | wifiSetMode (mode : Int32)
  | wifiSetApConfig (apConfig : ControlConfig) (beyond : List UInt8)
  | wifiGetApConfig (apConfig : Bool)
  | wifiDisconnectAp
  | wifiSetSoftapConfig (softapConfig : SoftapConfig) (beyond : List UInt8)
  | wifiGetSoftapConfig (softapConfig : Bool)
  | wifiStopSoftap
  | wifiApScanList (count : Bool)
  | wifiConnectedStationsList (num : Bool)
  | wifiSetPowerSaveMode (powerSaveMode : Int32)
  | wifiGetPowerSaveMode (powerSaveMode : Bool)
  | espOtaBegin
  | espOtaWrite (otaData : Option (List UInt8))
  | espOtaEnd

def Call.command : Call → Command
  | wifiGetMac _ _ => .wifiGetMac
  | wifiSetMac _ _ => .wifiSetMac
  | wifiGetMode _ => .wifiGetMode
  | wifiSetMode _ => .wifiSetMode
  | wifiSetApConfig _ _ => .wifiSetApConfig
  | wifiGetApConfig _ => .wifiGetApConfig
  | wifiDisconnectAp => .wifiDisconnectAp
  | wifiSetSoftapConfig _ _ => .wifiSetSoftapConfig
  | wifiGetSoftapConfig _ => .wifiGetSoftapConfig
  | wifiStopSoftap => .wifiStopSoftap
  | wifiApScanList _ => .wifiApScanList
  | wifiConnectedStationsList _ => .wifiConnectedStationsList
  | wifiSetPowerSaveMode _ => .wifiSetPowerSaveMode
  | wifiGetPowerSaveMode _ => .wifiGetPowerSaveMode
  | espOtaBegin => .espOtaBegin
  | espOtaWrite _ => .espOtaWrite
  | espOtaEnd => .espOtaEnd

/-- `req` of the call; `none` is a call that is refused. -/
def Call.request : Call → Option (Msg Descriptor 3)
  | wifiGetMac mode mac => wifiGetMacRequest mode mac
  | wifiSetMac mode mac => wifiSetMacRequest mode mac
  | wifiGetMode mode => wifiGetModeRequest mode
  | wifiSetMode mode => wifiSetModeRequest mode
  | wifiSetApConfig apConfig beyond => wifiSetApConfigReq apConfig beyond
  | wifiGetApConfig apConfig => wifiGetApConfigRequest apConfig
  | wifiDisconnectAp => wifiDisconnectApRequest
  | wifiSetSoftapConfig softapConfig beyond => wifiSetSoftapConfigRequest softapConfig beyond
  | wifiGetSoftapConfig softapConfig => wifiGetSoftapConfigRequest softapConfig
  | wifiStopSoftap => wifiStopSoftapRequest
  | wifiApScanList count => wifiApScanListRequest count
  | wifiConnectedStationsList num => wifiConnectedStationsListRequest num
  | wifiSetPowerSaveMode powerSaveMode => wifiSetPowerSaveModeRequest powerSaveMode
  | wifiGetPowerSaveMode powerSaveMode => wifiGetPowerSaveModeRequest powerSaveMode
  | espOtaBegin => espOtaBeginRequest
  | espOtaWrite otaData => espOtaWriteRequest otaData
  | espOtaEnd => espOtaEndRequest

/-! ## What is transmitted -/

/-- A member of a oneof that points to nothing is not packed. -/
def Member.transmitted {μ : Type} : Member μ → Member μ
  | .oneof _ (.message none) => .oneof 0 (.message none)
  | member => member

def transmitted (m : Msg Descriptor 3) : Msg Descriptor 3 :=
  let body : Message Descriptor (Msg Descriptor 2) := m
  { body with members := body.members.map Member.transmitted }

/-! ## The payloads are valid -/

/-- A member of a struct has the offset of its field. -/
theorem offset_struct (t : StructType) :
    (fieldDescriptors (.struct t)).map FieldDescriptor.offset =
      List.range (fieldDescriptors (.struct t)).length := by
  cases t <;> rfl

theorem length_layout_struct (t : StructType) :
    (espTable (.struct t)).layout.length = (fieldDescriptors (.struct t)).length := by
  cases t <;> rfl

theorem offset_of_getElem? {t : StructType} {i : ℕ} {f : FieldDescriptor Descriptor}
    (h : (fieldDescriptors (.struct t))[i]? = some f) : f.offset = i := by
  have hmap := congrArg (fun l => l[i]?) (offset_struct t)
  have hlt := (List.getElem?_eq_some_iff.1 h).1
  simp only [List.getElem?_map, h, Option.map_some, List.getElem?_range hlt] at hmap
  exact Option.some.inj hmap

/-- The requests have strings that end where C strings do. -/
abbrev IsPayload (t : StructType) (payload : Msg Descriptor 2) : Prop :=
  Msg.Valid (fun s => 0 ∉ s) (fun tag => tag ≠ 0) espTable 2 (.struct t) payload

/-- A member of a payload that goes with its field. -/
abbrev IsMember (t : StructType) : FieldDescriptor Descriptor → Member (Msg Descriptor 1) → Prop :=
  Member.Valid (fun s => 0 ∉ s)
    (Msg.Valid (fun s => 0 ∉ s) (fun tag => tag ≠ 0) espTable 1) (espTable (.struct t))

theorem isPayload_reqPayload {t : StructType} {members : List (Member (Msg Descriptor 1))}
    (h : List.Forall₂ (IsMember t) (fieldDescriptors (.struct t)) members) :
    IsPayload t (reqPayload t members) := by
  refine ⟨rfl, ?_, ?_, ?_⟩
  · exact h.length_eq.symm.trans (length_layout_struct t).symm
  · intro f hf
    obtain ⟨i, hi⟩ := List.mem_iff_getElem?.1 hf
    obtain ⟨hlt, hget⟩ := List.getElem?_eq_some_iff.1 hi
    have hmember := (List.forall₂_iff_get.1 h).2 i hlt (h.length_eq ▸ hlt)
    rw [offset_of_getElem? hi]
    refine ⟨_, List.getElem?_eq_getElem (h.length_eq ▸ hlt), ?_⟩
    subst hget
    exact hmember
  · intro u hu
    cases hu

section Members

variable {t : StructType} (id : UInt32) (offset : ℕ)

theorem isMember_int (x : Int32) : IsMember t (scalarField id .int32 offset) (intMember x) :=
  .present rfl rfl (.int32 _)

theorem isMember_enum (x : Int32) : IsMember t (scalarField id .enum offset) (intMember x) :=
  .present rfl rfl (.enum _)

theorem isMember_bool (b : Bool) : IsMember t (scalarField id .bool offset) (boolMember b) :=
  .present rfl rfl (.bool _)

theorem isMember_bytes (data : List UInt8) :
    IsMember t (scalarField id .bytes offset) (bytesMember data) :=
  .present rfl rfl (.bytes _)

theorem isMember_string {s : List UInt8} (hs : 0 ∉ s) :
    IsMember t (stringField id offset) (stringMember s) :=
  .present rfl rfl (.string hs)

end Members

/-! ## Their sizes -/

theorem getTagSize_le (number : UInt32) : getTagSize number ≤ 5 := by
  rw [getTagSize]
  split_ifs <;> omega

theorem uint32Size_le (v : UInt32) : uint32Size v ≤ 5 := by
  rw [uint32Size]
  split_ifs <;> omega

theorem int32Size_le (v : Int32) : int32Size v ≤ 10 := by
  rw [int32Size]
  split_ifs <;> omega

/-- A bound of what a member takes, from its value alone. -/
def Member.bound {μ : Type} : Member μ → ℕ
  | .optional _ (.string (some s)) => 10 + s.length
  | .optional _ (.bytes data) => 10 + data.length
  | .optional _ _ => 15
  | _ => 0

/-- A member that is neither in a oneof nor points to messages. -/
def Member.Scalar {μ : Type} : Member μ → Prop
  | .optional _ (.message _) => False
  | .optional _ _ => True
  | _ => False

theorem strlen_le (m : List UInt8) : strlen m ≤ m.length :=
  (List.takeWhile_sublist _).length_le

section Bound

variable {μ : Type} (subSize : μ → ℕ)

theorem payloadSize_le (type : FieldType Descriptor) {has : Bool} {value : Value μ}
    (h : (Member.optional has value).Scalar) :
    5 + payloadSize subSize type value ≤ (Member.optional has value).bound := by
  have hint : ∀ v : UInt32, 5 + int32Size v.toInt32 ≤ 15 := fun v =>
    Nat.add_le_add_left (int32Size_le _) 5
  have hword : ∀ v : UInt32, 5 + uint32Size v ≤ 15 := fun v => by
    have := uint32Size_le v
    omega
  cases value with
  | word v =>
      cases type with
      | int32 => exact hint v
      | enum => exact hint v
      | uint32 => exact hword v
      | _ => exact (by decide : 5 ≤ 15)
  | bool v =>
      cases type with
      | bool => exact (by decide : 6 ≤ 15)
      | _ => exact (by decide : 5 ≤ 15)
  | string str =>
      cases str with
      | none =>
          cases type with
          | string => exact hword 0
          | _ => exact (by decide : 5 ≤ 15)
      | some s =>
          cases type with
          | string =>
              have hsize := uint32Size_le (UInt32.ofNat (strlen s))
              have hlen := strlen_le s
              simp only [payloadSize, Member.bound, Option.map_some, Option.getD_some]
              omega
          | _ => exact (by omega : 5 ≤ 10 + s.length)
  | bytes data =>
      cases type with
      | bytes =>
          have hsize := uint32Size_le (UInt32.ofNat data.length)
          simp only [payloadSize, Member.bound]
          omega
      | _ => exact (by omega : 5 ≤ 10 + data.length)
  | message ptr => cases h

theorem fieldGetPackedSize_le (field : FieldDescriptor Descriptor) {member : Member μ}
    (h : member.Scalar) : fieldGetPackedSize subSize field member ≤ member.bound := by
  cases member with
  | optional has value =>
      have hrequired : requiredFieldGetPackedSize subSize field value ≤
          (Member.optional has value).bound := by
        rw [requiredFieldGetPackedSize]
        exact (Nat.add_le_add_right (getTagSize_le _) _).trans (payloadSize_le subSize _ h)
      rw [fieldGetPackedSize, optionalFieldGetPackedSize]
      split_ifs <;> first | exact Nat.zero_le _ | exact hrequired
  | oneof oneofCase value => cases h
  | repeated items => cases h

end Bound

theorem getPackedSize_reqPayload_le {t : StructType} {members : List (Member (Msg Descriptor 1))}
    (hlen : (fieldDescriptors (.struct t)).length = members.length)
    (h : ∀ member ∈ members, member.Scalar) :
    Msg.getPackedSize espTable 2 (reqPayload t members) ≤ (members.map Member.bound).sum := by
  have hfield : ∀ f ∈ fieldDescriptors (.struct t),
      (members[f.offset]?).elim 0 (fieldGetPackedSize (Msg.getPackedSize espTable 1) f) ≤
        (members[f.offset]?).elim 0 Member.bound := by
    intro f hf
    cases hmember : members[f.offset]? with
    | none => exact le_rfl
    | some member => exact fieldGetPackedSize_le _ f (h member (List.mem_of_getElem? hmember))
  have hmembers : (List.range members.length).map (fun i => (members[i]?).elim 0 Member.bound) =
      members.map Member.bound := by
    apply List.ext_getElem
    · simp
    · intro i hi _
      rw [List.length_map, List.length_range] at hi
      simp [List.getElem?_eq_getElem hi]
  calc
    Msg.getPackedSize espTable 2 (reqPayload t members)
        = ((fieldDescriptors (.struct t)).map fun f => (members[f.offset]?).elim 0
            (fieldGetPackedSize (Msg.getPackedSize espTable 1) f)).sum := Nat.add_zero _
    _ ≤ ((fieldDescriptors (.struct t)).map fun f =>
          (members[f.offset]?).elim 0 Member.bound).sum := List.sum_le_sum hfield
    _ = (((fieldDescriptors (.struct t)).map FieldDescriptor.offset).map fun i =>
          (members[i]?).elim 0 Member.bound).sum := by rw [List.map_map]; rfl
    _ = (members.map Member.bound).sum := by rw [offset_struct, hlen, hmembers]

/-! ## The requests -/

/-- A request with the number in its oneof and the pointer in the union. -/
def requestOf (msg oneofCase : UInt32) (payload : Option (Msg Descriptor 2)) :
    Msg Descriptor 3 :=
  let body : Message Descriptor (Msg Descriptor 2) :=
    { descriptor := .configPayload
      members := [.optional true (.word msg), .oneof oneofCase (.message payload)]
      unknownFields := [] }
  body

/-- The most that a payload without OTA data takes. -/
def maxReqPayload : ℕ := 191

/-- What a call sends: no payload, or one of the type of its case, valid, and small if it
is not OTA data. -/
inductive Sends (call : Call) : Msg Descriptor 3 → Prop
  | bare (oneofCase : UInt32) : Sends call (requestOf (msgType call.command) oneofCase none)
  | full (payloadCase : PayloadCase) {payload : Msg Descriptor 2}
      (hpayload : IsPayload payloadCase.structType payload)
      (hsize : call.command ≠ .espOtaWrite →
        Msg.getPackedSize espTable 2 payload ≤ maxReqPayload) :
      Sends call (requestOf (msgType call.command) (payloadNumber payloadCase) (some payload))

section Sends

variable {m : Msg Descriptor 3}

/-- A payload whose members add up to a small one. -/
theorem Sends.of_members {call : Call} (payloadCase : PayloadCase)
    {members : List (Member (Msg Descriptor 1))}
    (hmembers : List.Forall₂ (IsMember payloadCase.structType)
      (fieldDescriptors (.struct payloadCase.structType)) members)
    (hscalar : ∀ member ∈ members, member.Scalar)
    (hsum : call.command ≠ .espOtaWrite → (members.map Member.bound).sum ≤ maxReqPayload) :
    Sends call (requestOf (msgType call.command) (payloadNumber payloadCase)
      (some (reqPayload payloadCase.structType members))) :=
  .full payloadCase (isPayload_reqPayload hmembers) fun hcommand =>
    (getPackedSize_reqPayload_le hmembers.length_eq hscalar).trans (hsum hcommand)

/-- The payload of one number. -/
theorem sends_mode {call : Call} (payloadCase : PayloadCase)
    (h : fieldDescriptors (.struct payloadCase.structType) = [scalarField 1 .int32 0])
    (mode : Int32) :
    Sends call (requestOf (msgType call.command) (payloadNumber payloadCase)
      (some (reqPayload payloadCase.structType [intMember mode]))) := by
  refine .of_members payloadCase ?_ ?_ ?_
  · rw [h]
    exact .cons (isMember_int 1 0 mode) .nil
  · simp [intMember, Member.Scalar]
  · intro _
    exact (by decide : 15 ≤ 191)

theorem sends_wifiSetMac {mode : Int32} {mac : Option (List UInt8)}
    (h : wifiSetMacRequest mode mac = some m) : Sends (.wifiSetMac mode mac) m := by
  cases mac with
  | none => cases h
  | some mac =>
      rw [wifiSetMacRequest] at h
      split_ifs at h with hmode hmac
      cases h
      refine .of_members .cmdSetMacAddress ?_ ?_ ?_
      · exact .cons (isMember_bytes 1 0 _) (.cons (isMember_int 2 1 mode) .nil)
      · simp [bytesMember, intMember, Member.Scalar]
      · intro _
        have hlen : (mac.take (min (strlen mac) macLength)).length ≤ 19 :=
          (List.length_take_le _ _).trans (Nat.min_le_right _ _)
        simp only [bytesMember, intMember, List.map_cons, List.map_nil, Member.bound,
          List.sum_cons, List.sum_nil, maxReqPayload]
        omega

theorem length_le_of_invalidLength {f : StaString} {m : List UInt8}
    (h : invalidLength f (strlen m) ≠ true) : (cstr m).length ≤ f.field.size := by
  have hle := Nat.le_of_not_lt fun hlt => h (StationConfig.invalidLength_of_lt hlt)
  exact hle

theorem sends_wifiSetApConfig {apConfig : ControlConfig} {beyond : List UInt8}
    (h : wifiSetApConfigReq apConfig beyond = some m) :
    Sends (.wifiSetApConfig apConfig beyond) m := by
  obtain ⟨r, hr, rfl⟩ := Option.map_eq_some_iff.1 h
  rw [wifiSetApConfigRequest] at hr
  simp only at hr
  split_ifs at hr with hssid hpwd hbssid
  cases hr
  have hssid := length_le_of_invalidLength hssid
  have hpwd := length_le_of_invalidLength hpwd
  have hbssid := length_le_of_invalidLength hbssid
  simp only [StaString.field, StaField.size, ssidLength, passwordLength, bssidLength]
    at hssid hpwd hbssid
  refine .of_members .cmdSetApConfig ?_ ?_ ?_
  · exact .cons (isMember_string 1 0 (zero_notMem_cstr _))
      (.cons (isMember_string 2 1 (zero_notMem_cstr _))
      (.cons (isMember_string 3 2 (zero_notMem_cstr _))
      (.cons (isMember_bool 4 3 _) (.cons (isMember_int 5 4 _) .nil))))
  · simp [stringMember, Member.Scalar]
  · intro _
    simp only [stringMember, List.map_cons, List.map_nil, Member.bound,
      List.sum_cons, List.sum_nil, maxReqPayload]
    omega

theorem sends_wifiSetSoftapConfig {c : SoftapConfig} {beyond : List UInt8}
    (h : wifiSetSoftapConfigRequest c beyond = some m) :
    Sends (.wifiSetSoftapConfig c beyond) m := by
  rw [wifiSetSoftapConfigRequest] at h
  split_ifs at h with hssid hpwd
  cases h
  have hssid : (cstr (c.ssidPointer beyond)).length ≤ 32 :=
    Nat.le_of_not_lt fun hlt => hssid (Or.inl hlt)
  have hpwd : (cstr (c.pwdPointer beyond)).length ≤ 64 :=
    Nat.le_of_not_lt fun hlt => hpwd (Or.inl hlt)
  refine .of_members .cmdSetSoftapConfig ?_ ?_ ?_
  · exact .cons (isMember_string 1 0 (zero_notMem_cstr _))
      (.cons (isMember_string 2 1 (zero_notMem_cstr _))
      (.cons (isMember_int 3 2 _) (.cons (isMember_enum 4 3 _) (.cons (isMember_int 5 4 _)
      (.cons (isMember_bool 6 5 _) (.cons (isMember_int 7 6 _) .nil))))))
  · simp [stringMember, intMember, boolMember, Member.Scalar]
  · intro _
    simp only [stringMember, intMember, boolMember, List.map_cons, List.map_nil, Member.bound,
      List.sum_cons, List.sum_nil, maxReqPayload]
    omega

theorem sends_espOtaWrite {otaData : Option (List UInt8)}
    (h : espOtaWriteRequest otaData = some m) : Sends (.espOtaWrite otaData) m := by
  cases otaData with
  | none => cases h
  | some otaData =>
      rw [espOtaWriteRequest] at h
      split_ifs at h
      cases h
      refine .of_members .cmdOtaWrite ?_ ?_ fun hcommand => absurd rfl hcommand
      · exact .cons (isMember_bytes 1 0 _) .nil
      · simp [bytesMember, Member.Scalar]

/-- Every request that a command packs is one of these. -/
theorem Call.sends {call : Call} (h : call.request = some m) : Sends call m := by
  cases call with
  | wifiGetMac mode mac =>
      rw [Call.request, wifiGetMacRequest] at h
      split_ifs at h
      cases h
      exact sends_mode .cmdGetMacAddress rfl mode
  | wifiSetMac mode mac => exact sends_wifiSetMac h
  | wifiSetMode mode =>
      rw [Call.request, wifiSetModeRequest] at h
      split_ifs at h
      cases h
      exact sends_mode .cmdSetWifiMode rfl mode
  | wifiSetPowerSaveMode mode =>
      rw [Call.request, wifiSetPowerSaveModeRequest] at h
      split_ifs at h
      cases h
      exact sends_mode .cmdSetPowerSaveMode rfl mode
  | wifiSetApConfig apConfig beyond => exact sends_wifiSetApConfig h
  | wifiSetSoftapConfig softapConfig beyond => exact sends_wifiSetSoftapConfig h
  | espOtaWrite otaData => exact sends_espOtaWrite h
  | wifiGetMode mode =>
      rw [Call.request, wifiGetModeRequest] at h
      split_ifs at h
      cases h
      exact .bare 0
  | wifiGetApConfig apConfig =>
      rw [Call.request, wifiGetApConfigRequest] at h
      split_ifs at h
      cases h
      exact .bare 0
  | wifiGetSoftapConfig softapConfig =>
      rw [Call.request, wifiGetSoftapConfigRequest] at h
      split_ifs at h
      cases h
      exact .bare 0
  | wifiApScanList count =>
      rw [Call.request, wifiApScanListRequest] at h
      split_ifs at h
      cases h
      exact .bare 0
  | wifiConnectedStationsList num =>
      rw [Call.request, wifiConnectedStationsListRequest] at h
      split_ifs at h
      cases h
      exact .bare 0
  | wifiGetPowerSaveMode powerSaveMode =>
      rw [Call.request, wifiGetPowerSaveModeRequest] at h
      split_ifs at h
      cases h
      exact .bare (payloadNumber .cmdGetPowerSaveMode)
  | wifiDisconnectAp =>
      cases h
      exact .bare 0
  | wifiStopSoftap =>
      cases h
      exact .bare 0
  | espOtaBegin =>
      cases h
      exact .bare (payloadNumber .cmdOtaBegin)
  | espOtaEnd =>
      cases h
      exact .bare (payloadNumber .cmdOtaEnd)

end Sends

/-! ## The packed request -/

section Packed

variable (msg oneofCase : UInt32) (payload : Option (Msg Descriptor 2))

theorem pack_requestOf : Msg.pack espTable 3 (requestOf msg oneofCase payload) =
    requiredFieldPack (Msg.pack espTable 2) (scalarField 1 .enum 0) (.word msg) ++
      payloadCases.flatMap fun c =>
        oneofFieldPack (Msg.pack espTable 2) (payloadField c) oneofCase (.message payload) :=
  List.append_nil _

/-- Without a pointer the number does not matter. -/
theorem pack_requestOf_none : Msg.pack espTable 3 (requestOf msg oneofCase none) =
    requiredFieldPack (Msg.pack espTable 2) (scalarField 1 .enum 0) (.word msg) := by
  have hempty : ∀ c : PayloadCase, oneofFieldPack (Msg.pack espTable 2) (payloadField c)
      oneofCase (.message none) = [] := by
    intro c
    rw [oneofFieldPack]
    split_ifs with hcase hnull
    · rfl
    · rfl
    · exact absurd rfl hnull
  rw [pack_requestOf, List.flatMap_eq_nil_iff.2 fun c _ => hempty c, List.append_nil]

theorem nodup_payloadCases : payloadCases.Nodup := by decide

/-- Only the member of the case is packed. -/
theorem pack_requestOf_some (c : PayloadCase) (payload : Msg Descriptor 2) :
    Msg.pack espTable 3 (requestOf msg (payloadNumber c) (some payload)) =
      requiredFieldPack (Msg.pack espTable 2) (scalarField 1 .enum 0) (.word msg) ++
        requiredFieldPack (Msg.pack espTable 2) (payloadField c) (.message (some payload)) := by
  have hself : oneofFieldPack (Msg.pack espTable 2) (payloadField c) (payloadNumber c)
      (.message (some payload)) =
        requiredFieldPack (Msg.pack espTable 2) (payloadField c) (.message (some payload)) :=
    if_neg (not_not.2 rfl)
  have hother : ∀ c', c' ≠ c → oneofFieldPack (Msg.pack espTable 2) (payloadField c')
      (payloadNumber c) (.message (some payload)) = [] := fun c' hc' =>
    if_pos fun heq => hc' (payloadNumber_injective heq.symm)
  obtain ⟨l, r, hsplit⟩ := List.append_of_mem (mem_payloadCases c)
  have hnodup := nodup_payloadCases
  rw [hsplit, List.nodup_append] at hnodup
  have hl : ∀ c' ∈ l, c' ≠ c := fun c' hc' => hnodup.2.2 c' hc' c List.mem_cons_self
  have hr : ∀ c' ∈ r, c' ≠ c := fun c' hc' heq =>
    (List.nodup_cons.1 hnodup.2.1).1 (heq ▸ hc')
  rw [pack_requestOf, hsplit, List.flatMap_append, List.flatMap_cons, hself,
    List.flatMap_eq_nil_iff.2 fun c' hc' => hother c' (hl c' hc'),
    List.flatMap_eq_nil_iff.2 fun c' hc' => hother c' (hr c' hc'), List.nil_append,
    List.append_nil]

end Packed

section Transmitted

variable {call : Call} {m : Msg Descriptor 3}

theorem Sends.pack_transmitted (h : Sends call m) :
    Msg.pack espTable 3 (transmitted m) = Msg.pack espTable 3 m := by
  cases h with
  | bare oneofCase => exact (pack_requestOf_none _ 0).trans (pack_requestOf_none _ oneofCase).symm
  | full => rfl

/-- A message with a number, and a member of the oneof that is valid. -/
theorem valid_of_member (w : UInt32) {member : Member (Msg Descriptor 2)}
    (hmember : ∀ c, Member.Valid (fun s => 0 ∉ s)
      (Msg.Valid (fun s => 0 ∉ s) (fun tag => tag ≠ 0) espTable 2) (espTable .configPayload)
      (payloadField c) member) :
    Message.Valid (fun s => 0 ∉ s) (fun tag => tag ≠ 0)
      (Msg.Valid (fun s => 0 ∉ s) (fun tag => tag ≠ 0) espTable 2) espTable
      { descriptor := .configPayload, members := [.optional true (.word w), member]
        unknownFields := [] } := by
  refine ⟨rfl, ?_, ?_⟩
  · intro f hf
    rcases List.mem_cons.1 hf with rfl | hf
    · exact ⟨_, rfl, .present rfl rfl (.enum w)⟩
    · obtain ⟨c, -, rfl⟩ := List.mem_map.1 hf
      exact ⟨_, rfl, hmember c⟩
  · intro u hu
    cases hu

theorem valid_requestOf (w : UInt32) {c : PayloadCase} {payload : Msg Descriptor 2}
    (hpayload : IsPayload c.structType payload) :
    Msg.Valid (fun s => 0 ∉ s) (fun tag => tag ≠ 0) espTable 3 .configPayload
      (requestOf w (payloadNumber c) (some payload)) :=
  ⟨rfl, valid_of_member w fun _ =>
    .set rfl rfl (mem_fields_payloadField c) rfl rfl (.message hpayload)⟩

/-- A request is valid once its case has gone with the missing pointer. -/
theorem Sends.valid_transmitted (h : Sends call m) :
    Msg.Valid (fun s => 0 ∉ s) (fun tag => tag ≠ 0) espTable 3 .configPayload
      (transmitted m) := by
  cases h with
  | bare oneofCase => exact ⟨rfl, valid_of_member _ fun _ => .notSet rfl rfl⟩
  | full c hpayload hsize => exact valid_requestOf _ hpayload

/-- The slave gets the request, without a case that had no message. -/
theorem Call.unpack_pack (h : call.request = some m)
    (hsize : (Msg.pack espTable 3 m).length ≤ MAX_PACKED) :
    Msg.unpack espTable 3 .configPayload (Msg.pack espTable 3 m) = some (transmitted m) := by
  have hsends := Call.sends h
  rw [← hsends.pack_transmitted] at hsize ⊢
  exact Msg.unpack_pack espTable_wellFormed hsends.valid_transmitted hsize

end Transmitted

end Protobuf

end EspHosted
