import EspHosted.Control.Commands
import EspHosted.Lib.CString

/-!
# The request of `wifi_set_ap_config`

The command gets a station configuration by value and measures three of its fields
with `strlen`. The longest text a field may hold fills it, and then `strlen` measures
the next field, too. `StationConfig` is what a caller means to configure, and
`StationConfig.memory` the structure it is stored in.
-/

namespace EspHosted

open EspHosted.Bytes

namespace Control

/-! ## The layout -/

def ssidLength : ℕ := 32

def passwordLength : ℕ := 64

def bssidLength : ℕ := 17

def maxBssidLength : ℕ := 17

/-- The fields of `esp_hosted_sta_config_t`. -/
inductive StaField where
  | ssid
  | pwd
  | bssid
  | isWpa3Supported
  | rssi
  | channel
  | encryptionMode
  | listenInterval
  | status
  deriving DecidableEq, Repr

namespace StaField

/-- Two bytes of padding follow `is_wpa3_supported`. -/
def offset : StaField → ℕ
  | .ssid => 0
  | .pwd => 32
  | .bssid => 96
  | .isWpa3Supported => 113
  | .rssi => 116
  | .channel => 120
  | .encryptionMode => 124
  | .listenInterval => 128
  | .status => 130

def size : StaField → ℕ
  | .ssid => ssidLength
  | .pwd => passwordLength
  | .bssid => bssidLength
  | .isWpa3Supported => 1
  | .rssi => 4
  | .channel => 4
  | .encryptionMode => 4
  | .listenInterval => 2
  | .status => statusLength

end StaField

/-- The size of the union, of which the station configuration is the larger member. -/
def sizeofControlConfig : ℕ := 144

/-- `esp_hosted_control_config_t` as the bytes of its member `station` -/
abbrev ControlConfig := { m : List UInt8 // m.length = sizeofControlConfig }

namespace ControlConfig

def zero : ControlConfig := ⟨List.replicate sizeofControlConfig 0, List.length_replicate⟩

/-- The bytes of a field. -/
def get (m : ControlConfig) (f : StaField) : List UInt8 := slice m.1 f.offset f.size

theorem length_get (m : ControlConfig) (f : StaField) : (m.get f).length = f.size := by
  rw [get, length_slice]
  rw [m.2]
  cases f <;> decide

/-- What a pointer to a field leads to, with the bytes behind the structure. -/
def pointer (m : ControlConfig) (beyond : List UInt8) (f : StaField) : List UInt8 :=
  (m.1 ++ beyond).drop f.offset

/-- A store of `src` at the start of a field. -/
def store (m : ControlConfig) (f : StaField) (src : List UInt8)
    (h : f.offset + src.length ≤ sizeofControlConfig) : ControlConfig :=
  ⟨patch m.1 f.offset src, (length_patch (by rw [m.2]; exact h)).trans m.2⟩

end ControlConfig

/-! ## The command -/

/-- `EspHostedCmdSetAPConfig`, with the strings its pointers lead to. -/
structure CmdSetAPConfig where
  ssid : List UInt8
  pwd : List UInt8
  bssid : List UInt8
  hasIsWpa3Supported : Bool
  isWpa3Supported : Bool
  hasListenInterval : Bool
  listenInterval : Int32
  deriving DecidableEq

/-- The fields whose length is checked. -/
inductive StaString where
  | ssid
  | pwd
  | bssid
  deriving DecidableEq, Repr

def StaString.field : StaString → StaField
  | .ssid => .ssid
  | .pwd => .pwd
  | .bssid => .bssid

/-- The three tests at the start of `wifi_set_ap_config`. -/
def invalidLength : StaString → ℕ → Bool
  | .ssid, n => decide (maxSsidLength < n) || n == 0
  | .pwd, n => decide (maxPwdLength < n)
  | .bssid, n => decide (maxBssidLength < n)

/-- `wifi_set_ap_config` up to the request; `none` is `FAILURE` without one. `beyond` is
what stands behind the parameter. -/
def wifiSetApConfigRequest (apConfig : ControlConfig) (beyond : List UInt8) :
    Option CmdSetAPConfig :=
  let ssid := apConfig.pointer beyond .ssid
  let pwd := apConfig.pointer beyond .pwd
  let bssid := apConfig.pointer beyond .bssid
  if invalidLength .ssid (strlen ssid) then
    none
  else if invalidLength .pwd (strlen pwd) then
    none
  else if invalidLength .bssid (strlen bssid) then
    none
  else
    let listenInterval := apConfig.get .listenInterval
    some
      { ssid := cstr ssid
        pwd := cstr pwd
        bssid := cstr bssid
        hasIsWpa3Supported := true
        isWpa3Supported := apConfig.get .isWpa3Supported != [0]
        hasListenInterval := true
        listenInterval :=
          (le16 (listenInterval.getD 0 0) (listenInterval.getD 1 0)).toUInt32.toInt32 }

/-! ## Valid configurations -/

/-- The bytes of a configuration which the command does not look at: the padding with the
three `int` fields, and `status`. -/
structure Unread where
  ints : List UInt8
  status : List UInt8
  length_ints : ints.length = 14
  length_status : status.length = statusLength

/-- A station configuration within the documented lengths. -/
structure StationConfig where
  ssid : List UInt8
  pwd : List UInt8
  bssid : List UInt8
  isWpa3Supported : Bool
  listenInterval : UInt16
  unread : Unread
  ssid_pos : 0 < ssid.length
  ssid_le : ssid.length ≤ ssidLength
  ssid_text : 0 ∉ ssid
  pwd_le : pwd.length ≤ passwordLength
  pwd_text : 0 ∉ pwd
  bssid_le : bssid.length ≤ bssidLength
  bssid_text : 0 ∉ bssid

namespace StationConfig

variable (c : StationConfig)

/-- A `bool` in memory. -/
def wpa3Byte : UInt8 := if c.isWpa3Supported then 1 else 0

/-- What stands behind the last string. -/
def others : List UInt8 :=
  c.wpa3Byte :: (c.unread.ints ++
    ([lowByte c.listenInterval, highByte c.listenInterval] ++ c.unread.status))

/-- What stands behind a string field in the structure. -/
def behind : StaString → List UInt8
  | .ssid => padTo passwordLength c.pwd ++ (padTo bssidLength c.bssid ++ c.others)
  | .pwd => padTo bssidLength c.bssid ++ c.others
  | .bssid => c.others

def bytes : List UInt8 := padTo ssidLength c.ssid ++ c.behind .ssid

theorem length_bytes : c.bytes.length = sizeofControlConfig := by
  have hints := c.unread.length_ints
  have hstatus := c.unread.length_status
  simp only [bytes, behind, others, List.length_append, length_padTo c.ssid_le,
    length_padTo c.pwd_le, length_padTo c.bssid_le, List.length_cons, List.length_nil, hints,
    hstatus]
  rfl

/-- The configuration, each string stored with zeros behind it. -/
def memory : ControlConfig := ⟨c.bytes, c.length_bytes⟩

def string : StaString → List UInt8
  | .ssid => c.ssid
  | .pwd => c.pwd
  | .bssid => c.bssid

/-- The request that carries the configuration. -/
def request : CmdSetAPConfig where
  ssid := c.ssid
  pwd := c.pwd
  bssid := c.bssid
  hasIsWpa3Supported := true
  isWpa3Supported := c.isWpa3Supported
  hasListenInterval := true
  listenInterval := c.listenInterval.toUInt32.toInt32

theorem string_le (f : StaString) : (c.string f).length ≤ f.field.size := by
  cases f with
  | ssid => exact c.ssid_le
  | pwd => exact c.pwd_le
  | bssid => exact c.bssid_le

theorem string_text (f : StaString) : 0 ∉ c.string f := by
  cases f with
  | ssid => exact c.ssid_text
  | pwd => exact c.pwd_text
  | bssid => exact c.bssid_text

/-- A pointer to a string leads to its field and to what stands behind. -/
theorem pointer_memory (beyond : List UInt8) (f : StaString) :
    c.memory.pointer beyond f.field =
      padTo f.field.size (c.string f) ++ (c.behind f ++ beyond) := by
  have hssid : (padTo ssidLength c.ssid).length = 32 := length_padTo c.ssid_le
  have hpwd : (padTo ssidLength c.ssid ++ padTo passwordLength c.pwd).length = 96 := by
    rw [List.length_append, hssid, length_padTo c.pwd_le]
    rfl
  have hbytes : c.bytes ++ beyond = padTo ssidLength c.ssid ++ (c.behind .ssid ++ beyond) :=
    List.append_assoc _ _ _
  have hsplit : c.bytes ++ beyond =
      (padTo ssidLength c.ssid ++ padTo passwordLength c.pwd) ++ (c.behind .pwd ++ beyond) := by
    simp [bytes, behind, List.append_assoc]
  cases f with
  | ssid => exact hbytes
  | pwd =>
      change (c.bytes ++ beyond).drop 32 = _
      rw [hbytes, List.drop_left' hssid]
      exact List.append_assoc _ _ _
  | bssid =>
      change (c.bytes ++ beyond).drop 96 = _
      rw [hsplit, List.drop_left' hpwd]
      exact List.append_assoc _ _ _

/-- What stands behind a string field starts with a zero. -/
def EndsBehind : StaString → Prop
  | .ssid => c.pwd = []
  | .pwd => c.bssid = []
  | .bssid => c.isWpa3Supported = false

theorem cstr_behind_eq_nil_iff (beyond : List UInt8) (f : StaString) :
    cstr (c.behind f ++ beyond) = [] ↔ c.EndsBehind f := by
  cases f with
  | ssid =>
      rw [behind, List.append_assoc]
      exact cstr_padTo_append_eq_nil_iff (by decide) c.pwd_text _
  | pwd =>
      rw [behind, List.append_assoc]
      exact cstr_padTo_append_eq_nil_iff (by decide) c.bssid_text _
  | bssid =>
      rw [behind, others, wpa3Byte, List.cons_append, EndsBehind]
      cases c.isWpa3Supported with
      | false => simp
      | true => simp [cstr_cons]

/-- A full field is followed by a zero. -/
def Separated (f : StaString) : Prop :=
  (c.string f).length = f.field.size → c.EndsBehind f

variable {c}

/-- Then the string that starts in the field is the one stored there. -/
theorem cstr_pointer_of_separated {f : StaString} (h : c.Separated f) (beyond : List UInt8) :
    cstr (c.memory.pointer beyond f.field) = c.string f := by
  rw [pointer_memory]
  by_cases hfull : (c.string f).length = f.field.size
  · rw [cstr_padTo_of_length (c.string_text f) hfull,
      (c.cstr_behind_eq_nil_iff beyond f).2 (h hfull), List.append_nil]
  · exact cstr_padTo_of_lt (c.string_text f) (Nat.lt_of_le_of_ne (c.string_le f) hfull) _

/-- Otherwise it is longer than the field. -/
theorem lt_strlen_of_not_separated {f : StaString} (h : ¬ c.Separated f)
    (beyond : List UInt8) : f.field.size < strlen (c.memory.pointer beyond f.field) := by
  rw [Separated, Classical.not_imp] at h
  have hbehind : cstr (c.behind f ++ beyond) ≠ [] := fun hnil =>
    h.2 ((c.cstr_behind_eq_nil_iff beyond f).1 hnil)
  have hpos := List.length_pos_iff.2 hbehind
  rw [pointer_memory, strlen, cstr_padTo_of_length (c.string_text f) h.1, List.length_append,
    h.1]
  omega

theorem invalidLength_of_separated {f : StaString} (h : c.Separated f) (beyond : List UInt8) :
    invalidLength f (strlen (c.memory.pointer beyond f.field)) = false := by
  rw [strlen, cstr_pointer_of_separated h]
  cases f with
  | ssid =>
      have hle : c.ssid.length ≤ maxSsidLength := c.ssid_le
      have hpos := c.ssid_pos
      exact Bool.or_eq_false_iff.2
        ⟨decide_eq_false (Nat.not_lt_of_le hle), beq_eq_false_iff_ne.2 (Nat.ne_of_gt hpos)⟩
  | pwd => exact decide_eq_false (Nat.not_lt_of_le c.pwd_le)
  | bssid => exact decide_eq_false (Nat.not_lt_of_le c.bssid_le)

/-- Every test refuses a string longer than its field. -/
theorem invalidLength_of_lt {f : StaString} {n : ℕ} (h : f.field.size < n) :
    invalidLength f n = true := by
  cases f with
  | ssid => simp [invalidLength, show maxSsidLength < n from h]
  | pwd => exact decide_eq_true h
  | bssid => exact decide_eq_true h

variable (c)

theorem length_strings :
    (padTo ssidLength c.ssid ++ padTo passwordLength c.pwd ++ padTo bssidLength c.bssid).length =
      StaField.isWpa3Supported.offset := by
  rw [List.length_append, List.length_append, length_padTo c.ssid_le, length_padTo c.pwd_le,
    length_padTo c.bssid_le]
  rfl

theorem get_isWpa3Supported : c.memory.get .isWpa3Supported = [c.wpa3Byte] := by
  have hbytes : c.bytes =
      (padTo ssidLength c.ssid ++ padTo passwordLength c.pwd ++ padTo bssidLength c.bssid) ++
        ([c.wpa3Byte] ++ (c.unread.ints ++
          ([lowByte c.listenInterval, highByte c.listenInterval] ++ c.unread.status))) := by
    simp [bytes, behind, others]
  change slice c.bytes _ _ = _
  rw [hbytes]
  exact slice_append c.length_strings rfl _

theorem get_listenInterval : c.memory.get .listenInterval =
    [lowByte c.listenInterval, highByte c.listenInterval] := by
  have hbytes : c.bytes =
      (padTo ssidLength c.ssid ++ padTo passwordLength c.pwd ++ padTo bssidLength c.bssid ++
        (c.wpa3Byte :: c.unread.ints)) ++
        ([lowByte c.listenInterval, highByte c.listenInterval] ++ c.unread.status) := by
    simp [bytes, behind, others]
  change slice c.bytes _ _ = _
  rw [hbytes]
  refine slice_append ?_ rfl _
  rw [List.length_append, c.length_strings, List.length_cons, c.unread.length_ints]
  rfl

variable {c}

theorem request_of_separated (h : ∀ f, c.Separated f) (beyond : List UInt8) :
    wifiSetApConfigRequest c.memory beyond = some c.request := by
  have hssid := invalidLength_of_separated (h .ssid) beyond
  have hpwd := invalidLength_of_separated (h .pwd) beyond
  have hbssid := invalidLength_of_separated (h .bssid) beyond
  have sssid := cstr_pointer_of_separated (h .ssid) beyond
  have spwd := cstr_pointer_of_separated (h .pwd) beyond
  have sbssid := cstr_pointer_of_separated (h .bssid) beyond
  simp only [StaString.field] at hssid hpwd hbssid sssid spwd sbssid
  have hwpa3 : ([c.wpa3Byte] != [0]) = c.isWpa3Supported := by
    rw [wpa3Byte]
    cases c.isWpa3Supported <;> rfl
  simp only [wifiSetApConfigRequest, hssid, hpwd, hbssid, sssid, spwd, sbssid,
    get_isWpa3Supported, get_listenInterval, hwpa3, Bool.false_eq_true, if_false]
  simp [request, string]

theorem request_of_not_separated {f : StaString} (h : ¬ c.Separated f) (beyond : List UInt8) :
    wifiSetApConfigRequest c.memory beyond = none := by
  have hinvalid := invalidLength_of_lt (lt_strlen_of_not_separated h beyond)
  cases f with
  | ssid =>
      simp only [StaString.field] at hinvalid
      simp only [wifiSetApConfigRequest, hinvalid, if_true]
  | pwd =>
      simp only [StaString.field] at hinvalid
      simp only [wifiSetApConfigRequest, hinvalid, if_true, ite_self]
  | bssid =>
      simp only [StaString.field] at hinvalid
      simp only [wifiSetApConfigRequest, hinvalid, if_true, ite_self]

/-- The field is stored with zeros behind its text. -/
theorem get_string (c : StationConfig) (f : StaString) :
    c.memory.get f.field = padTo f.field.size (c.string f) := by
  have hpointer := c.pointer_memory [] f
  rw [ControlConfig.pointer, List.append_nil] at hpointer
  rw [ControlConfig.get, slice, hpointer]
  exact List.take_left' (length_padTo (c.string_le f))

theorem string_eq_of_get_eq {c' : StationConfig} {f : StaString}
    (h : c'.memory.get f.field = c.memory.get f.field) : c'.string f = c.string f := by
  rw [get_string, get_string] at h
  calc
    c'.string f = cstr (padTo f.field.size (c'.string f)) :=
      (cstr_padTo (c'.string_text f)).symm
    _ = cstr (padTo f.field.size (c.string f)) := by rw [h]
    _ = c.string f := cstr_padTo (c.string_text f)

/-- In every valid configuration with the same bytes in the field, the test of its length
comes out the same, and the same string is transmitted. -/
def Local (c : StationConfig) (f : StaString) : Prop :=
  ∀ (c' : StationConfig) (beyond beyond' : List UInt8),
    c'.memory.get f.field = c.memory.get f.field →
      invalidLength f (strlen (c'.memory.pointer beyond' f.field)) =
          invalidLength f (strlen (c.memory.pointer beyond f.field)) ∧
        cstr (c'.memory.pointer beyond' f.field) = cstr (c.memory.pointer beyond f.field)

/-- The configuration with another field behind `f`: one that starts with a zero if `c` has
none there. -/
def toggle (c : StationConfig) : StaString → StationConfig
  | .ssid =>
      { c with
        pwd := if c.pwd = [] then [1] else []
        pwd_le := by split <;> decide
        pwd_text := by split <;> decide }
  | .pwd =>
      { c with
        bssid := if c.bssid = [] then [1] else []
        bssid_le := by split <;> decide
        bssid_text := by split <;> decide }
  | .bssid => { c with isWpa3Supported := !c.isWpa3Supported }

theorem string_toggle (f : StaString) : (c.toggle f).string f = c.string f := by
  cases f with
  | ssid => rfl
  | pwd => rfl
  | bssid => rfl

theorem endsBehind_toggle (f : StaString) :
    (c.toggle f).EndsBehind f ↔ ¬ c.EndsBehind f := by
  cases f with
  | ssid => simp [toggle, EndsBehind]
  | pwd => simp [toggle, EndsBehind]
  | bssid => simp [toggle, EndsBehind]

/-- Only in a field that is not full do the test and the string stay within it. -/
theorem local_iff (f : StaString) : c.Local f ↔ (c.string f).length < f.field.size := by
  constructor
  · intro h
    by_contra hnot
    have hfull : (c.string f).length = f.field.size :=
      Nat.le_antisymm (c.string_le f) (Nat.le_of_not_lt hnot)
    have hget : (c.toggle f).memory.get f.field = c.memory.get f.field := by
      rw [get_string, get_string, string_toggle]
    have hseen := congrArg List.length (h (c.toggle f) [] [] hget).2
    by_cases hends : c.EndsBehind f
    · have hlong : ¬ (c.toggle f).Separated f := by
        intro hsep
        rw [Separated, string_toggle, endsBehind_toggle] at hsep
        exact hsep hfull hends
      have hlt := lt_strlen_of_not_separated hlong []
      have hsep : c.Separated f := fun _ => hends
      rw [cstr_pointer_of_separated hsep, hfull] at hseen
      exact absurd hseen (Nat.ne_of_gt hlt)
    · have hlt := lt_strlen_of_not_separated (fun hsep => hends (hsep hfull)) []
      have hsep : (c.toggle f).Separated f := fun _ => (endsBehind_toggle f).2 hends
      rw [cstr_pointer_of_separated hsep, string_toggle, hfull] at hseen
      exact absurd hseen (Nat.ne_of_lt hlt)
  · intro hlt c' beyond beyond' hget
    have hstring := string_eq_of_get_eq hget
    have hsep : c.Separated f := fun hfull => absurd hfull (Nat.ne_of_lt hlt)
    have hsep' : c'.Separated f := by
      rw [Separated, hstring]
      exact fun hfull => absurd hfull (Nat.ne_of_lt hlt)
    rw [invalidLength_of_separated hsep, invalidLength_of_separated hsep',
      cstr_pointer_of_separated hsep, cstr_pointer_of_separated hsep', hstring]
    exact ⟨rfl, rfl⟩

end StationConfig

/-- A valid configuration is accepted and goes out unchanged exactly when each field that
is full is followed by a zero; and a test and the string behind it are those of their own
field exactly when the field is not full. -/
theorem set_ap_config_iff (c : StationConfig) (beyond : List UInt8) :
    (wifiSetApConfigRequest c.memory beyond = some c.request ↔ ∀ f, c.Separated f) ∧
      ∀ f, c.Local f ↔ (c.string f).length < f.field.size := by
  constructor
  · constructor
    · intro h
      by_contra hnot
      obtain ⟨f, hf⟩ := Classical.not_forall.1 hnot
      rw [StationConfig.request_of_not_separated hf beyond] at h
      cases h
    · intro h
      exact StationConfig.request_of_separated h beyond
  · exact StationConfig.local_iff

/-- The members that the request does not read, cleared. -/
def noUnread : Unread := ⟨List.replicate 14 0, List.replicate 14 0, by decide, by decide⟩

theorem length_nil_le_bssidLength : ([] : List UInt8).length ≤ bssidLength := Nat.zero_le _

theorem zero_not_mem_nil : (0 : UInt8) ∉ ([] : List UInt8) := List.not_mem_nil

/-- An `ssid` of 32 characters with a password. -/
def fullSsid : StationConfig where
  ssid := List.replicate 32 115
  pwd := [112]
  bssid := []
  isWpa3Supported := false
  listenInterval := 3
  unread := noUnread
  ssid_pos := by decide
  ssid_le := by decide
  ssid_text := by decide
  pwd_le := by decide
  pwd_text := by decide
  bssid_le := length_nil_le_bssidLength
  bssid_text := zero_not_mem_nil

/-- The configuration is refused. -/
theorem full_ssid_refused :
    wifiSetApConfigRequest fullSsid.memory [] = none ∧
      ¬ ∀ c : StationConfig, wifiSetApConfigRequest c.memory [] = some c.request := by
  have hnone : wifiSetApConfigRequest fullSsid.memory [] = none := by decide
  refine ⟨hnone, ?_⟩
  intro h
  rw [h fullSsid] at hnone
  cases hnone

end Control

end EspHosted
