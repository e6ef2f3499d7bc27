import EspHosted.Common.MacText
import EspHosted.Control.GetApConfig
import EspHosted.Control.ResponseType

/-!
# Starting lwIP

`start_lwip_callback` asks the slave for the MAC address of the station and starts lwIP with
what `convert_mac_to_bytes` makes of the text. `wifi_get_mac` copies the text with a
`strncpy` that stops at its end only if a zero stands there.
-/

namespace EspHosted

open EspHosted.Bytes

namespace Cli

open Common.Mac (Address Exact Misread convertMacToBytes convertMacToBytes_of_spelled exact_iff
  macLen minMacStringLen plain_of_address spelled_of_address)
open Control (Confused EspHostedConfigPayload RespGetMacAddress SUCCESS err1 macLength readMember
  wifiGetMac)

def reported (r : RespGetMacAddress) : Option (List UInt8) := if r.resp ≠ 0 then none else r.mac

/-- The text that a response reports. -/
def reportedMac (resp : EspHostedConfigPayload) (confused : Confused) : Option (List UInt8) :=
  (readMember .respGetMacAddress resp confused).bind fun r => reported r.1

/-- `start_lwip_callback`: the address that `lwip_startup` is called with. `beyond` stands in
memory behind the reported text. -/
def startLwipCallback (resp : EspHostedConfigPayload) (confused : Confused)
    (beyond : List UInt8) (parsedMac : Vector UInt8 macLen) : Option (List UInt8) :=
  let r := (wifiGetMac resp confused).1
  let buffer := r.writes.foldl
    (fun buffer w => w.stored.content beyond ++ buffer.drop w.stored.span)
    (List.replicate 32 0)
  if r.ret.isSuccess then
    match convertMacToBytes parsedMac.toList (some (cstr buffer)) with
    | (.STM_OK, mac) => some mac
    | (.STM_FAIL, _) => none
  else
    none

/-- lwIP is started with the address that the slave reported, or not at all. -/
def Faithful (resp : EspHostedConfigPayload) (confused : Confused) (beyond : List UInt8) :
    Prop :=
  ∀ parsedMac mac, startLwipCallback resp confused beyond parsedMac = some mac →
    ∃ data, reportedMac resp confused = some data ∧ Address (cstr data) mac

/-- What `wifi_get_mac` makes of the reported text. -/
def received (data beyond : List UInt8) : List UInt8 :=
  (cstr (data ++ beyond)).take (macLength - 1)

/-- The text is misread, or it is an address only together with the bytes behind it. -/
def Misled (data beyond : List UInt8) : Prop :=
  Misread (received data beyond) ∨
    (0 ∉ data ∧ data.length < minMacStringLen ∧ ∃ mac, Address (received data beyond) mac)

section Start

variable {data beyond : List UInt8}

theorem zero_not_mem_received : 0 ∉ received data beyond := by
  intro h
  have hmem := List.mem_takeWhile_imp (List.mem_of_mem_take h)
  simp at hmem

/-- The buffer holds the received text. -/
theorem cstr_buffer :
    cstr (padTo macLength (received data beyond) ++
        (List.replicate 32 (0 : UInt8)).drop macLength) =
      received data beyond := by
  have hlen : (received data beyond).length < macLength := by
    refine Nat.lt_of_le_of_lt (List.length_take_le _ _) (by decide)
  rw [padTo, List.append_assoc, cstr_append zero_not_mem_received,
    cstr_replicate_append (Nat.sub_pos_of_lt hlen), List.append_nil]

theorem respond_of_none {member : Control.PayloadCase} {failed : Control.Response}
    {body : Control.Contents member.structType → Control.Response}
    {resp : EspHostedConfigPayload} {confused : Confused}
    (h : readMember member resp confused = none) :
    Control.respond member failed body resp confused = (failed, false) := by
  rw [Control.respond, h]

theorem respond_of_some {member : Control.PayloadCase} {failed : Control.Response}
    {body : Control.Contents member.structType → Control.Response}
    {resp : EspHostedConfigPayload} {confused : Confused}
    {r : Control.Contents member.structType × Bool}
    (h : readMember member resp confused = some r) :
    Control.respond member failed body resp confused = (body r.1, r.2) := by
  rw [Control.respond, h]

/-- `wifi_get_mac` copies the reported text. -/
theorem wifiGetMac_eq (resp : EspHostedConfigPayload) (confused : Confused) :
    (wifiGetMac resp confused).1 =
      (reportedMac resp confused).elim err1 fun mac =>
        { ret := .int SUCCESS, writes := [⟨.mac, .strncpy mac macLength⟩] } := by
  cases hread : readMember .respGetMacAddress resp confused with
  | none =>
      rw [reportedMac, hread]
      exact congrArg Prod.fst (respond_of_none hread)
  | some r =>
      rw [reportedMac, hread]
      refine (congrArg Prod.fst (respond_of_some hread)).trans ?_
      obtain ⟨⟨mac, status⟩, mistaken⟩ := r
      by_cases hstatus : status = 0
      · cases mac with
        | none => simp [reported, hstatus]
        | some mac => simp [reported, hstatus]
      · cases mac with
        | none => simp [reported, hstatus]
        | some mac => simp [reported, hstatus]

theorem startLwipCallback_of_reported {resp : EspHostedConfigPayload} {confused : Confused}
    (h : reportedMac resp confused = some data) (parsedMac : Vector UInt8 macLen) :
    startLwipCallback resp confused beyond parsedMac =
      match convertMacToBytes parsedMac.toList (some (received data beyond)) with
      | (.STM_OK, mac) => some mac
      | (.STM_FAIL, _) => none := by
  rw [← cstr_buffer, startLwipCallback, wifiGetMac_eq, h]
  rfl

theorem startLwipCallback_of_not_reported {resp : EspHostedConfigPayload} {confused : Confused}
    (h : reportedMac resp confused = none) (parsedMac : Vector UInt8 macLen) :
    startLwipCallback resp confused beyond parsedMac = none := by
  rw [startLwipCallback, wifiGetMac_eq, h]
  rfl

/-- A reported address is received, whatever stands behind it. -/
theorem address_received {mac : List UInt8} (h : Address (cstr data) mac) :
    Address (received data beyond) mac := by
  obtain ⟨ds, hds, hpairs, hmac⟩ := h
  refine ⟨ds, hds, ?_, hmac⟩
  have hcstr : cstr data <+: cstr (data ++ beyond) := by
    by_cases hzero : 0 ∈ data
    · have hsame : cstr (data ++ beyond) = cstr data := cstr_append_of_mem hzero beyond
      exact hsame.symm ▸ List.prefix_rfl
    · rw [cstr_append hzero, cstr_of_text hzero]
      exact List.prefix_append _ _
  refine List.prefix_take_iff.2 ⟨hpairs.trans hcstr, ?_⟩
  cases ds with
  | nil => cases hds
  | cons d ds =>
      rw [length_pairsText, Nat.succ.inj hds]
      decide

/-- A received address was reported, unless bytes from behind it are part of it. -/
theorem address_reported {mac : List UInt8} (h : Address (received data beyond) mac)
    (hwhole : 0 ∈ data ∨ minMacStringLen ≤ data.length) : Address (cstr data) mac := by
  obtain ⟨ds, hds, hpairs, hmac⟩ := h
  refine ⟨ds, hds, ?_, hmac⟩
  have hcstr := hpairs.trans (List.take_prefix _ _)
  by_cases hzero : 0 ∈ data
  · rw [cstr_append_of_mem hzero] at hcstr
    exact hcstr
  · rw [cstr_append hzero] at hcstr
    rw [cstr_of_text hzero]
    refine List.prefix_of_prefix_length_le hcstr (List.prefix_append _ _) ?_
    cases ds with
    | nil => cases hds
    | cons d ds =>
        rw [length_pairsText, Nat.succ.inj hds]
        exact hwhole.resolve_left hzero

/-- The callback starts lwIP with the reported address, or not at all, exactly when the text
does not mislead it. -/
theorem faithful_iff_of_reported {resp : EspHostedConfigPayload} {confused : Confused}
    (h : reportedMac resp confused = some data) :
    Faithful resp confused beyond ↔ ¬ Misled data beyond := by
  constructor
  · intro hfaithful
    -- A text that is spelled starts lwIP.
    have hstart : ∀ gs, minMacStringLen ≤ (received data beyond).length → gs.length = macLen →
        Spelled 58 (received data beyond) gs → ∃ mac, Address (cstr data) mac := by
      intro gs hlen hgs hspelled
      have hcall : startLwipCallback resp confused beyond (Vector.replicate macLen 0) = _ :=
        startLwipCallback_of_reported h _
      rw [convertMacToBytes_of_spelled hlen hgs hspelled] at hcall
      obtain ⟨data', hdata', haddress⟩ := hfaithful _ _ hcall
      cases h.symm.trans hdata'
      exact ⟨_, haddress⟩
    rintro (⟨hlen, gs, hgs, hspelled, g, hg, hnot⟩ | ⟨hzero, hshort, mac, haddress⟩)
    · obtain ⟨mac, haddress⟩ := hstart gs hlen hgs hspelled
      exact hnot ((plain_of_address (address_received haddress) hgs hspelled).2 g hg)
    · obtain ⟨hlen, gs, hgs, hspelled⟩ := spelled_of_address haddress
      obtain ⟨mac', haddress'⟩ := hstart gs hlen hgs hspelled
      have hle := (spelled_of_address haddress').1
      rw [cstr_of_text hzero] at hle
      exact absurd hle (Nat.not_le.2 hshort)
  · intro hnot parsedMac mac hcall
    refine ⟨data, h, ?_⟩
    have hexact : Exact (received data beyond) :=
      (exact_iff _).2 fun hmisread => hnot (Or.inl hmisread)
    rw [startLwipCallback_of_reported h] at hcall
    have haccepts := hexact.accepts parsedMac.toList
    have hstores := hexact.stores parsedMac.toList
    cases hconvert : convertMacToBytes parsedMac.toList (some (received data beyond)) with
    | mk ret out =>
        rw [hconvert] at hcall haccepts hstores
        cases ret with
        | STM_FAIL => cases hcall
        | STM_OK =>
            cases hcall
            obtain ⟨mac', haddress⟩ := haccepts.1 rfl
            have hout : mac = mac' ++ parsedMac.toList.drop macLen := hstores mac' haddress
            have hdrop : parsedMac.toList.drop macLen = [] :=
              List.drop_eq_nil_of_le (Nat.le_of_eq Vector.length_toList)
            rw [hdrop, List.append_nil] at hout
            rw [hout]
            refine address_reported haddress ?_
            by_contra hwhole
            obtain ⟨hzero, hshort⟩ := not_or.1 hwhole
            exact hnot (Or.inr ⟨hzero, Nat.not_le.1 hshort, mac', haddress⟩)

/-- A string is parsed exactly when it is not misread; and the callback starts lwIP with the
address that the slave reports, or not at all, exactly when its text does not mislead. -/
theorem mac_parsing_iff (s : List UInt8) (resp : EspHostedConfigPayload) (confused : Confused)
    (beyond : List UInt8) :
    (Exact s ↔ ¬ Misread s) ∧
      (Faithful resp confused beyond ↔
        ∀ data, reportedMac resp confused = some data → ¬ Misled data beyond) := by
  refine ⟨exact_iff s, ?_⟩
  cases h : reportedMac resp confused with
  | none =>
      refine iff_of_true ?_ fun data hdata => nomatch hdata
      intro parsedMac mac hcall
      rw [startLwipCallback_of_not_reported h] at hcall
      cases hcall
  | some data =>
      rw [faithful_iff_of_reported h]
      constructor
      · rintro hnot data' ⟨⟩
        exact hnot
      · intro hnot
        exact hnot data rfl

/-- `+1:22:33:44:55:66` -/
def signedMac : List UInt8 :=
  [43, 49, 58, 50, 50, 58, 51, 51, 58, 52, 52, 58, 53, 53, 58, 54, 54]

/-- The slave reports it, with no error. -/
def signedReply : EspHostedConfigPayload where
  hasMsg := true
  msg := 1
  payload := some ⟨.respGetMacAddress, (⟨some signedMac, 0⟩ : RespGetMacAddress)⟩

/-- It is taken for an address, and lwIP is started with it. -/
theorem signed_mac_accepted :
    convertMacToBytes (List.replicate 6 0) (some signedMac) =
        (.STM_OK, [0x01, 0x22, 0x33, 0x44, 0x55, 0x66]) ∧
      startLwipCallback signedReply Control.clearedMemory [0] (Vector.replicate macLen 0) =
        some [0x01, 0x22, 0x33, 0x44, 0x55, 0x66] ∧
      ¬ Exact signedMac ∧ ¬ Faithful signedReply Control.clearedMemory [0] := by
  have hconvert : convertMacToBytes (List.replicate 6 0) (some signedMac) =
      (.STM_OK, [0x01, 0x22, 0x33, 0x44, 0x55, 0x66]) := by decide
  have hcall : startLwipCallback signedReply Control.clearedMemory [0]
      (Vector.replicate macLen 0) = some [0x01, 0x22, 0x33, 0x44, 0x55, 0x66] := by decide
  have hno : ∀ mac, ¬ Address signedMac mac := by
    rintro mac ⟨ds, hds, ⟨t, ht⟩, -⟩
    match ds, hds with
    | d :: d' :: ds, _ =>
        have hfirst : d.1.1 = 43 := (List.cons.inj ht).1
        have hdigit := d.1.2
        rw [hfirst] at hdigit
        cases hdigit
  refine ⟨hconvert, hcall, ?_, ?_⟩
  · intro h
    obtain ⟨mac, haddress⟩ := (h.accepts (List.replicate 6 0)).1 (by rw [hconvert])
    exact hno mac haddress
  · intro h
    obtain ⟨data, hdata, haddress⟩ := h _ _ hcall
    cases hdata
    exact hno _ haddress

end Start

end Cli

end EspHosted
