import EspHosted.Control.ResponseType
import EspHosted.Control.SetApConfig
import EspHosted.Lib.Word

/-!
# The answer of `wifi_get_ap_config` in memory

`wifiGetApConfig` says what the command stores where; here its writes are carried out
on the caller's structure. Both strings of the answer are counted bytes without a
NUL, and `strncpy` reads on behind them; and it fills a field up to its own bound,
which for `bssid` is not the size of the field.
-/

namespace EspHosted

open EspHosted.Bytes

namespace Control

/-- The fields that the command writes. -/
def CallerField.staField : CallerField → Option StaField
  | .stationStatus => some .status
  | .stationSsid => some .ssid
  | .stationBssid => some .bssid
  | .stationChannel => some .channel
  | .stationRssi => some .rssi
  | .stationEncryptionMode => some .encryptionMode
  | _ => none

/-- The characters of a string literal. -/
def textBytes (s : String) : List UInt8 := s.toList.map fun c => UInt8.ofNat c.toNat

/-- `*ap_config`, and whether a byte behind the source of a copy has been read. -/
structure Destination where
  bytes : List UInt8
  overread : Bool

namespace Destination

def get (d : Destination) (f : StaField) : List UInt8 := slice d.bytes f.offset f.size

/-- `strncpy` of `n` bytes to the start of a field, whose last one is then cleared. The
source is a block of memory, and `beyond` what stands behind it. -/
def copy (d : Destination) (f : StaField) (src beyond : List UInt8) (n : ℕ) : Destination where
  bytes := patch (patch d.bytes f.offset (strncpy (src ++ beyond) n)) (f.offset + (n - 1)) [0]
  overread := d.overread || decide (src.length < strncpyReads (src ++ beyond) n)

/-- One write of the command; an `int` is stored as its four bytes. -/
def write (beyond : CallerField → List UInt8) (d : Destination) (w : CallerWrite) :
    Destination :=
  match w.field.staField with
  | none => d
  | some f =>
      match w.stored with
      | .strncpy src n => d.copy f src (beyond w.field) n
      | .strncpyText s n => d.copy f (textBytes s ++ [0]) [] n
      | .assign x =>
          { d with bytes := patch d.bytes f.offset (le32Bytes (Int32.ofInt x).toUInt32) }

end Destination

/-- What the slave answers. -/
def getApConfigReply (hasMsg : Bool) (msg : Int32) (r : RespGetAPConfig) :
    EspHostedConfigPayload where
  hasMsg := hasMsg
  msg := msg
  payload := some ⟨.respGetApConfig, r⟩

/-- `wifi_get_ap_config` from the response on, with its result and `*ap_config`. -/
def wifiGetApConfigInto (resp : EspHostedConfigPayload) (confused : Confused)
    (beyond : CallerField → List UInt8) (apConfig : ControlConfig) : Ret × Destination :=
  let r := (wifiGetApConfig resp confused).1
  (r.ret, r.writes.foldl (Destination.write beyond)
    { bytes := apConfig.1, overread := false })

/-! ## The effect of the writes -/

namespace Stored

/-- The number of bytes that are written. -/
def span : Stored → ℕ
  | .strncpy _ n => n
  | .strncpyText _ n => n
  | .assign _ => 4

/-- What stands there afterwards. -/
def content (beyond : List UInt8) : Stored → List UInt8
  | .strncpy src n => padTo n ((cstr (src ++ beyond)).take (n - 1))
  | .strncpyText s n => padTo n ((cstr (textBytes s ++ [0])).take (n - 1))
  | .assign x => le32Bytes (Int32.ofInt x).toUInt32

def overreads (beyond : List UInt8) : Stored → Bool
  | .strncpy src n => decide (src.length < strncpyReads (src ++ beyond) n)
  | .strncpyText s n =>
      decide ((textBytes s ++ [0]).length < strncpyReads (textBytes s ++ [0]) n)
  | .assign _ => false

theorem length_content {w : Stored} (hpos : 0 < w.span) (beyond : List UInt8) :
    (w.content beyond).length = w.span := by
  have hcopy : ∀ (s : List UInt8) (n : ℕ), (padTo n (s.take (n - 1))).length = n := by
    intro s n
    exact length_padTo (Nat.le_trans (List.length_take_le _ _) (Nat.sub_le _ _))
  cases w with
  | strncpy src n => exact hcopy _ n
  | strncpyText s n => exact hcopy _ n
  | assign x => rfl

end Stored

/-- The write goes to the field `f` and ends within the structure. -/
structure Placed (w : CallerWrite) (f : StaField) : Prop where
  field : w.field.staField = some f
  pos : 0 < w.stored.span
  fits : f.offset + w.stored.span ≤ sizeofControlConfig

namespace Destination

theorem copy_eq {d : Destination} {f : StaField} {n : ℕ} (hn : 0 < n)
    (hfits : f.offset + n ≤ d.bytes.length) (src behind : List UInt8) :
    d.copy f src behind n =
      { bytes := patch d.bytes f.offset (padTo n ((cstr (src ++ behind)).take (n - 1)))
        overread := d.overread || decide (src.length < strncpyReads (src ++ behind) n) } := by
  have hlen : (strncpy (src ++ behind) n).length = n := length_strncpy _ n
  have hcopy : f.offset + (strncpy (src ++ behind) n).length ≤ d.bytes.length := by
    rw [hlen]
    exact hfits
  have hlast : n - 1 + [(0 : UInt8)].length ≤ (strncpy (src ++ behind) n).length := by
    rw [hlen]
    exact Nat.le_of_eq (Nat.sub_add_cancel hn)
  rw [copy, patch_patch_within hcopy hlast, patch_strncpy hn]

variable (beyond : CallerField → List UInt8)

/-- One write stores its content at its field. -/
theorem write_eq {d : Destination} {w : CallerWrite} {f : StaField} (hw : Placed w f)
    (hd : d.bytes.length = sizeofControlConfig) :
    d.write beyond w =
      { bytes := patch d.bytes f.offset (w.stored.content (beyond w.field))
        overread := d.overread || w.stored.overreads (beyond w.field) } := by
  obtain ⟨hfield, hpos, hfits⟩ := hw
  rw [← hd] at hfits
  obtain ⟨field, stored⟩ := w
  simp only at hfield hpos hfits ⊢
  rw [write]
  simp only [hfield]
  cases stored with
  | strncpy src n => exact copy_eq hpos hfits src _
  | strncpyText s n =>
      have heq := copy_eq hpos hfits (textBytes s ++ [0]) []
      rw [List.append_nil] at heq
      exact heq
  | assign x => simp [Stored.content, Stored.overreads]

theorem length_write {d : Destination} {w : CallerWrite} {f : StaField} (hw : Placed w f)
    (hd : d.bytes.length = sizeofControlConfig) :
    (d.write beyond w).bytes.length = sizeofControlConfig := by
  rw [write_eq beyond hw hd]
  refine (length_patch ?_).trans hd
  rw [Stored.length_content hw.pos, hd]
  exact hw.fits

/-- The writes of a list, one after the other. -/
def run (d : Destination) (ws : List CallerWrite) :
    Destination := ws.foldl (write beyond) d

/-- All writes go to the bytes from `lo` to `hi`. -/
def Within (lo hi : ℕ) (ws : List CallerWrite) : Prop :=
  ∀ w ∈ ws, ∃ f, Placed w f ∧ lo ≤ f.offset ∧ f.offset + w.stored.span ≤ hi

/-- A run leaves the size of the structure, and every field outside of where it writes. -/
theorem run_frame {lo hi : ℕ} {ws : List CallerWrite} (hws : Within lo hi ws)
    {d : Destination} (hd : d.bytes.length = sizeofControlConfig) :
    (run beyond d ws).bytes.length = sizeofControlConfig ∧
      ∀ g : StaField, g.offset + g.size ≤ lo ∨ hi ≤ g.offset →
        (run beyond d ws).get g = d.get g := by
  induction ws generalizing d with
  | nil => exact ⟨hd, fun _ _ => rfl⟩
  | cons w ws ih =>
      obtain ⟨f, hw, hlo, hhi⟩ := hws w List.mem_cons_self
      obtain ⟨hlen, hget⟩ := ih (fun w' hw' => hws w' (List.mem_cons_of_mem _ hw'))
        (length_write beyond hw hd)
      refine ⟨hlen, ?_⟩
      intro g hg
      have hoff : f.offset ≤ d.bytes.length := by
        have hfits := hw.fits
        omega
      calc
        (run beyond d (w :: ws)).get g = (d.write beyond w).get g := hget g hg
        _ = d.get g := by
          rw [write_eq beyond hw hd]
          apply slice_patch_of_disjoint hoff
          rw [Stored.length_content hw.pos]
          omega

theorem overread_run {ws : List CallerWrite} (hws : ∀ w ∈ ws, ∃ f, Placed w f)
    {d : Destination} (hd : d.bytes.length = sizeofControlConfig) :
    (run beyond d ws).overread =
      (d.overread || ws.any fun w => w.stored.overreads (beyond w.field)) := by
  induction ws generalizing d with
  | nil => exact (Bool.or_false _).symm
  | cons w ws ih =>
      obtain ⟨f, hw⟩ := hws w List.mem_cons_self
      have htail := ih (fun w' hw' => hws w' (List.mem_cons_of_mem _ hw'))
        (length_write beyond hw hd)
      calc
        (run beyond d (w :: ws)).overread = (run beyond (d.write beyond w) ws).overread := rfl
        _ = _ := by
          rw [htail, write_eq beyond hw hd, List.any_cons, Bool.or_assoc]

theorem run_append (d : Destination) (ws ws' : List CallerWrite) :
    run beyond d (ws ++ ws') = run beyond (run beyond d ws) ws' := List.foldl_append

/-- A field inside of a write that nothing else touches holds its part of the content. -/
theorem get_run_cons {lo hi : ℕ} {w : CallerWrite} {f g : StaField} (hw : Placed w f)
    {ws : List CallerWrite} (hws : Within lo hi ws) {d : Destination}
    (hd : d.bytes.length = sizeofControlConfig) (hg : g.offset + g.size ≤ lo ∨ hi ≤ g.offset)
    (hlow : f.offset ≤ g.offset) (hhigh : g.offset + g.size ≤ f.offset + w.stored.span) :
    (run beyond d (w :: ws)).get g =
      slice (w.stored.content (beyond w.field)) (g.offset - f.offset) g.size := by
  have hoff : f.offset ≤ d.bytes.length := by
    have hfits := hw.fits
    omega
  calc
    (run beyond d (w :: ws)).get g = (d.write beyond w).get g :=
      (run_frame beyond hws (length_write beyond hw hd)).2 g hg
    _ = _ := by
      rw [write_eq beyond hw hd]
      apply slice_patch_of_within hoff hlow
      rw [Stored.length_content hw.pos]
      exact hhigh

end Destination

/-! ## The command -/

/-- An answer with strings of the documented lengths. -/
structure StationReply extends RespGetAPConfig where
  ssid_le : ∀ s, ssid = some s → s.length ≤ ssidLength
  bssid_le : ∀ s, bssid = some s → s.length ≤ bssidLength

/-- The structure holds what was answered and is otherwise as before. -/
structure Reports (r : RespGetAPConfig) (before : ControlConfig) (after : Destination) :
    Prop where
  ssid : after.get .ssid = padTo ssidLength (r.ssid.getD [])
  bssid : after.get .bssid = padTo bssidLength (r.bssid.getD [])
  channel : after.get .channel = le32Bytes r.chnl.toUInt32
  rssi : after.get .rssi = le32Bytes r.rssi.toUInt32
  encryptionMode : after.get .encryptionMode = le32Bytes r.ecn.toUInt32
  status : after.get .status = padTo statusLength (textBytes "success")
  pwd : after.get .pwd = before.get .pwd
  isWpa3Supported : after.get .isWpa3Supported = before.get .isWpa3Supported
  listenInterval : after.get .listenInterval = before.get .listenInterval
  inBounds : after.overread = false

/-- The bytes of the answer end in zeros; or there are none, and the field was empty. -/
def Arrives (data : BinaryData) (before : List UInt8) : Prop :=
  match data with
  | none => before = padTo before.length []
  | some s => ZeroEnded s

def statusWrite (s : String) : CallerWrite := ⟨.stationStatus, .strncpyText s statusLength⟩

def ssidWrite (s : List UInt8) : CallerWrite := ⟨.stationSsid, .strncpy s maxSsidLength⟩

def bssidWrite (s : List UInt8) : CallerWrite := ⟨.stationBssid, .strncpy s macLength⟩

def intWrites (r : RespGetAPConfig) : List CallerWrite :=
  [⟨.stationChannel, .assign r.chnl.toInt⟩, ⟨.stationRssi, .assign r.rssi.toInt⟩,
    ⟨.stationEncryptionMode, .assign r.ecn.toInt⟩]

theorem placed_statusWrite (s : String) : Placed (statusWrite s) .status :=
  ⟨rfl, (by decide : 0 < statusLength), (by decide : 130 + statusLength ≤ sizeofControlConfig)⟩

theorem placed_ssidWrite (s : List UInt8) : Placed (ssidWrite s) .ssid :=
  ⟨rfl, (by decide : 0 < maxSsidLength), (by decide : 0 + maxSsidLength ≤ sizeofControlConfig)⟩

theorem placed_bssidWrite (s : List UInt8) : Placed (bssidWrite s) .bssid :=
  ⟨rfl, (by decide : 0 < macLength), (by decide : 96 + macLength ≤ sizeofControlConfig)⟩

theorem placed_assign {field : CallerField} {f : StaField} (hfield : field.staField = some f)
    (hfits : f.offset + 4 ≤ sizeofControlConfig) (x : ℤ) : Placed ⟨field, .assign x⟩ f :=
  ⟨hfield, (by decide : 0 < 4), hfits⟩

/-! Where each part of the command writes. The copy of `bssid` goes on for two bytes behind
the field. -/

theorem within_status (s : String) : Destination.Within 130 144 [statusWrite s] := by
  intro w hw
  rw [List.mem_singleton] at hw
  rw [hw]
  exact ⟨.status, placed_statusWrite s, by decide, (by decide : 130 + statusLength ≤ 144)⟩

theorem within_ssid (data : BinaryData) :
    Destination.Within 0 32 (data.toList.map ssidWrite) := by
  intro w hw
  obtain ⟨s, -, rfl⟩ := List.mem_map.1 hw
  exact ⟨.ssid, placed_ssidWrite s, by decide, (by decide : 0 + maxSsidLength ≤ 32)⟩

theorem within_bssid (data : BinaryData) :
    Destination.Within 96 115 (data.toList.map bssidWrite) := by
  intro w hw
  obtain ⟨s, -, rfl⟩ := List.mem_map.1 hw
  exact ⟨.bssid, placed_bssidWrite s, by decide, (by decide : 96 + macLength ≤ 115)⟩

theorem within_nil : Destination.Within 144 144 [] := fun _ hw => absurd hw List.not_mem_nil

theorem within_assign {field : CallerField} {f : StaField} (hfield : field.staField = some f)
    (hfits : f.offset + 4 ≤ sizeofControlConfig) (x : ℤ) :
    Destination.Within f.offset (f.offset + 4) [⟨field, .assign x⟩] := by
  intro w hw
  rw [List.mem_singleton] at hw
  rw [hw]
  exact ⟨f, placed_assign hfield hfits x, Nat.le_refl _, Nat.le_refl _⟩

theorem within_ints (r : RespGetAPConfig) : Destination.Within 116 128 (intWrites r) := by
  intro w hw
  simp only [intWrites, List.mem_cons, List.not_mem_nil, or_false] at hw
  rcases hw with rfl | rfl | rfl
  · exact ⟨.channel, placed_assign rfl (by decide) _, by decide, (by decide : 120 + 4 ≤ 128)⟩
  · exact ⟨.rssi, placed_assign rfl (by decide) _, by decide, (by decide : 116 + 4 ≤ 128)⟩
  · exact ⟨.encryptionMode, placed_assign rfl (by decide) _, by decide,
      (by decide : 124 + 4 ≤ 128)⟩

section Reply

variable {hasMsg : Bool} {msg : Int32} {confused : Confused}
  {beyond : CallerField → List UInt8} {before : ControlConfig}

/-- The command on an answer of the type it expects. -/
theorem wifiGetApConfig_eq (r : RespGetAPConfig) :
    (wifiGetApConfig (getApConfigReply hasMsg msg r) confused).1 =
      if r.resp = NOT_CONNECTED then
        { err1 with writes := [statusWrite "not_connected"] }
      else if r.resp = -1 then
        { err1 with writes := [statusWrite "failure"] }
      else if r.resp = 0 then
        { ret := .int SUCCESS
          writes := [statusWrite "success"] ++ (r.ssid.toList.map ssidWrite) ++
            (r.bssid.toList.map bssidWrite) ++ intWrites r }
      else
        { ret := .int SUCCESS, writes := [] } := rfl

theorem wifiGetApConfig_of_success {r : RespGetAPConfig} (h : r.resp = 0) :
    (wifiGetApConfig (getApConfigReply hasMsg msg r) confused).1 =
      { ret := .int SUCCESS
        writes := statusWrite "success" :: (r.ssid.toList.map ssidWrite ++
          (r.bssid.toList.map bssidWrite ++ intWrites r)) } := by
  rw [wifiGetApConfig_eq, h, if_neg (by decide), if_neg (by decide), if_pos rfl]
  simp

/-- Only the copies of the two strings can read behind their source. -/
theorem any_overreads_iff (r : RespGetAPConfig) (beyond : CallerField → List UInt8) :
    (false || ([statusWrite "success"] ++ (r.ssid.toList.map ssidWrite ++
        (r.bssid.toList.map bssidWrite ++ intWrites r))).any
          fun w => w.stored.overreads (beyond w.field)) = false ↔
      (∀ s, r.ssid = some s → strncpyReads (s ++ beyond .stationSsid) 32 ≤ s.length) ∧
        ∀ s, r.bssid = some s → strncpyReads (s ++ beyond .stationBssid) 19 ≤ s.length := by
  have hstatus : ∀ b, (statusWrite "success").stored.overreads b = false := by
    intro b
    exact (by decide : decide ((textBytes "success" ++ [0]).length <
      strncpyReads (textBytes "success" ++ [0]) statusLength) = false)
  have hints : ((intWrites r).any fun w => w.stored.overreads (beyond w.field)) = false := rfl
  have hssid : ∀ s, (ssidWrite s).stored.overreads (beyond (ssidWrite s).field) = false ↔
      strncpyReads (s ++ beyond .stationSsid) 32 ≤ s.length := by
    intro s
    exact decide_eq_false_iff_not.trans Nat.not_lt
  have hbssid : ∀ s, (bssidWrite s).stored.overreads (beyond (bssidWrite s).field) = false ↔
      strncpyReads (s ++ beyond .stationBssid) 19 ≤ s.length := by
    intro s
    exact decide_eq_false_iff_not.trans Nat.not_lt
  rw [Bool.false_or, List.any_append, List.any_append, List.any_append, hints,
    List.any_cons, hstatus, Bool.or_false, List.any_nil, Bool.false_or, Bool.false_or,
    Bool.or_eq_false_iff]
  apply and_congr
  · cases r.ssid with
    | none => simp
    | some s => simpa using hssid s
  · cases r.bssid with
    | none => simp
    | some s => simpa using hbssid s

/-- An `int` field after its assignment. -/
theorem get_run_assign (beyond : CallerField → List UInt8) {field : CallerField} {f : StaField}
    (hfield : field.staField = some f) (hsize : f.size = 4)
    (hfits : f.offset + 4 ≤ sizeofControlConfig) {d : Destination}
    (hd : d.bytes.length = sizeofControlConfig) (x : Int32) :
    (Destination.run beyond d [⟨field, .assign x.toInt⟩]).get f = le32Bytes x.toUInt32 := by
  have hend : f.offset + f.size ≤ 144 := by
    rw [hsize]
    exact hfits
  rw [Destination.get_run_cons beyond (placed_assign hfield hfits _) within_nil hd (Or.inl hend)
    (Nat.le_refl _) (Nat.le_of_eq (congrArg _ hsize)), Nat.sub_self, hsize, Stored.content,
    Int32.ofInt_toInt]
  rfl

/-- The three assignments, one after another. -/
theorem get_run_intWrites (r : RespGetAPConfig) (beyond : CallerField → List UInt8)
    {d : Destination} (hd : d.bytes.length = sizeofControlConfig) :
    (d.run beyond (intWrites r)).get .channel = le32Bytes r.chnl.toUInt32 ∧
      (d.run beyond (intWrites r)).get .rssi = le32Bytes r.rssi.toUInt32 ∧
      (d.run beyond (intWrites r)).get .encryptionMode = le32Bytes r.ecn.toUInt32 := by
  obtain ⟨hlen1, -⟩ := Destination.run_frame beyond
    (within_assign (rfl : CallerField.stationChannel.staField = some .channel) (by decide)
      r.chnl.toInt) hd
  obtain ⟨hlen2, hframe2⟩ := Destination.run_frame beyond
    (within_assign (rfl : CallerField.stationRssi.staField = some .rssi) (by decide)
      r.rssi.toInt) hlen1
  obtain ⟨-, hframe3⟩ := Destination.run_frame beyond
    (within_assign (rfl : CallerField.stationEncryptionMode.staField = some .encryptionMode)
      (by decide) r.ecn.toInt) hlen2
  have hints : d.run beyond (intWrites r) =
      Destination.run beyond
        (Destination.run beyond
          (d.run beyond [⟨.stationChannel, .assign r.chnl.toInt⟩])
          [⟨.stationRssi, .assign r.rssi.toInt⟩])
        [⟨.stationEncryptionMode, .assign r.ecn.toInt⟩] := rfl
  rw [hints]
  refine ⟨?_, ?_, ?_⟩
  · rw [hframe3 .channel (by decide), hframe2 .channel (by decide)]
    exact get_run_assign beyond rfl rfl (by decide) hd r.chnl
  · rw [hframe3 .rssi (by decide)]
    exact get_run_assign beyond rfl rfl (by decide) hlen1 r.rssi
  · exact get_run_assign beyond rfl rfl (by decide) hlen2 r.ecn

/-- A success is the four parts one after another. -/
theorem run_of_success {r : RespGetAPConfig} (h : r.resp = 0) :
    (wifiGetApConfigInto (getApConfigReply hasMsg msg r) confused beyond before).2 =
      Destination.run beyond
        (Destination.run beyond
          (Destination.run beyond
            (Destination.run beyond { bytes := before.1, overread := false }
              [statusWrite "success"])
            (r.ssid.toList.map ssidWrite))
          (r.bssid.toList.map bssidWrite))
        (intWrites r) := by
  rw [wifiGetApConfigInto, wifiGetApConfig_of_success h, ← Destination.run_append,
    ← Destination.run_append, ← Destination.run_append]
  rfl

theorem overread_of_success {r : RespGetAPConfig} (h : r.resp = 0) :
    (wifiGetApConfigInto (getApConfigReply hasMsg msg r) confused beyond
        before).2.overread = false ↔
      (∀ s, r.ssid = some s → strncpyReads (s ++ beyond .stationSsid) 32 ≤ s.length) ∧
        ∀ s, r.bssid = some s → strncpyReads (s ++ beyond .stationBssid) 19 ≤ s.length := by
  have hplaced : ∀ w ∈ [statusWrite "success"] ++ (r.ssid.toList.map ssidWrite ++
      (r.bssid.toList.map bssidWrite ++ intWrites r)), ∃ f, Placed w f := by
    intro w hw
    rcases List.mem_append.1 hw with hw | hw
    · obtain ⟨f, hf, -⟩ := within_status "success" w hw
      exact ⟨f, hf⟩
    rcases List.mem_append.1 hw with hw | hw
    · obtain ⟨f, hf, -⟩ := within_ssid r.ssid w hw
      exact ⟨f, hf⟩
    rcases List.mem_append.1 hw with hw | hw
    · obtain ⟨f, hf, -⟩ := within_bssid r.bssid w hw
      exact ⟨f, hf⟩
    · obtain ⟨f, hf, -⟩ := within_ints r w hw
      exact ⟨f, hf⟩
  rw [run_of_success h, ← Destination.run_append, ← Destination.run_append,
    ← Destination.run_append, Destination.overread_run beyond hplaced before.2]
  exact any_overreads_iff r beyond

/-- What the writes of a success do, field by field. -/
structure Effect (r : RespGetAPConfig) (beyond : CallerField → List UInt8)
    (before : ControlConfig) (after : Destination) : Prop where
  ssid : after.get .ssid = match r.ssid with
    | none => before.get .ssid
    | some s => (padTo 32 ((cstr (s ++ beyond .stationSsid)).take 31)).take 32
  bssid : after.get .bssid = match r.bssid with
    | none => before.get .bssid
    | some s => (padTo 19 ((cstr (s ++ beyond .stationBssid)).take 18)).take 17
  isWpa3Supported : after.get .isWpa3Supported = match r.bssid with
    | none => before.get .isWpa3Supported
    | some s => slice (padTo 19 ((cstr (s ++ beyond .stationBssid)).take 18)) 17 1
  channel : after.get .channel = le32Bytes r.chnl.toUInt32
  rssi : after.get .rssi = le32Bytes r.rssi.toUInt32
  encryptionMode : after.get .encryptionMode = le32Bytes r.ecn.toUInt32
  status : after.get .status = padTo statusLength (textBytes "success")
  pwd : after.get .pwd = before.get .pwd
  listenInterval : after.get .listenInterval = before.get .listenInterval
  overread : after.overread = false ↔
    (∀ s, r.ssid = some s → strncpyReads (s ++ beyond .stationSsid) 32 ≤ s.length) ∧
      ∀ s, r.bssid = some s → strncpyReads (s ++ beyond .stationBssid) 19 ≤ s.length

theorem effect_of_success {r : RespGetAPConfig} (h : r.resp = 0) :
    Effect r beyond before
      (wifiGetApConfigInto (getApConfigReply hasMsg msg r) confused beyond before).2 := by
  have hoverread : (wifiGetApConfigInto (getApConfigReply hasMsg msg r) confused beyond
      before).2.overread = false ↔ _ := overread_of_success h
  rw [run_of_success h] at hoverread ⊢
  -- The four parts write to ranges that do not meet.
  obtain ⟨hlen1, hframe1⟩ := Destination.run_frame beyond (within_status "success")
    (d := { bytes := before.1, overread := false }) before.2
  obtain ⟨hlen2, hframe2⟩ := Destination.run_frame beyond (within_ssid r.ssid) hlen1
  obtain ⟨hlen3, hframe3⟩ := Destination.run_frame beyond (within_bssid r.bssid) hlen2
  obtain ⟨-, hframe4⟩ := Destination.run_frame beyond (within_ints r) hlen3
  obtain ⟨hchannel, hrssi, hecn⟩ := get_run_intWrites r beyond hlen3
  constructor
  · rw [hframe4 .ssid (by decide), hframe3 .ssid (by decide)]
    cases hssid : r.ssid with
    | none => exact hframe1 .ssid (by decide)
    | some s =>
        exact Destination.get_run_cons beyond (placed_ssidWrite s) within_nil hlen1
          (by decide) (by decide) (by decide : 0 + 32 ≤ 0 + maxSsidLength)
  · rw [hframe4 .bssid (by decide)]
    cases hbssid : r.bssid with
    | none =>
        exact (hframe2 .bssid (by decide)).trans (hframe1 .bssid (by decide))
    | some s =>
        exact Destination.get_run_cons beyond (placed_bssidWrite s) within_nil hlen2
          (by decide) (by decide) (by decide : 96 + 17 ≤ 96 + macLength)
  · rw [hframe4 .isWpa3Supported (by decide)]
    cases hbssid : r.bssid with
    | none =>
        exact (hframe2 .isWpa3Supported (by decide)).trans
          (hframe1 .isWpa3Supported (by decide))
    | some s =>
        exact Destination.get_run_cons beyond (placed_bssidWrite s) within_nil hlen2
          (by decide) (by decide) (by decide : 113 + 1 ≤ 96 + macLength)
  · exact hchannel
  · exact hrssi
  · exact hecn
  · rw [hframe4 .status (by decide), hframe3 .status (by decide), hframe2 .status (by decide)]
    have hstatus := Destination.get_run_cons beyond (g := .status)
      (placed_statusWrite "success") within_nil
      (d := { bytes := before.1, overread := false }) before.2 (by decide) (by decide)
      (by decide : 130 + 14 ≤ 130 + statusLength)
    refine hstatus.trans ?_
    change slice (padTo statusLength ((cstr (textBytes "success" ++ [0])).take 13)) 0 14 = _
    decide
  · rw [hframe4 .pwd (by decide), hframe3 .pwd (by decide), hframe2 .pwd (by decide)]
    exact hframe1 .pwd (by decide)
  · rw [hframe4 .listenInterval (by decide), hframe3 .listenInterval (by decide),
      hframe2 .listenInterval (by decide)]
    exact hframe1 .listenInterval (by decide)
  · exact hoverread

/-- A `resp` that is not a success changes `status` at most. -/
theorem frame_of_failure {r : RespGetAPConfig} (h : r.resp ≠ 0) {g : StaField}
    (hg : g ≠ .status) :
    (wifiGetApConfigInto (getApConfigReply hasMsg msg r) confused beyond before).2.get g =
      before.get g := by
  have hframe : ∀ s, (Destination.run beyond { bytes := before.1, overread := false }
      [statusWrite s]).get g = before.get g := by
    intro s
    apply (Destination.run_frame beyond (within_status s) before.2).2
    cases g with
    | status => exact absurd rfl hg
    | _ => decide
  have hbody : (wifiGetApConfig (getApConfigReply hasMsg msg r) confused).1.writes =
      if r.resp = NOT_CONNECTED then [statusWrite "not_connected"]
      else if r.resp = -1 then [statusWrite "failure"]
      else [] := by
    rw [wifiGetApConfig_eq, if_neg h]
    split_ifs <;> rfl
  rw [wifiGetApConfigInto, hbody]
  split_ifs with h1 h2
  · exact hframe "not_connected"
  · exact hframe "failure"
  · rfl

end Reply

/-- The string fields arrive, and the byte behind `bssid` was zero if `bssid` is copied. -/
structure Faithful (r : RespGetAPConfig) (before : ControlConfig) : Prop where
  ssid : Arrives r.ssid (before.get .ssid)
  bssid : Arrives r.bssid (before.get .bssid)
  isWpa3Supported : r.bssid ≠ none → before.get .isWpa3Supported = [0]

/-- The byte behind `bssid` is cleared by a copy that ends in the field. -/
theorem cleared_behind_bssid {s : List UInt8} (hs : ZeroEnded s) (hle : s.length ≤ bssidLength)
    (beyond : List UInt8) : slice (padTo 19 ((cstr (s ++ beyond)).take 18)) 17 1 = [0] := by
  have hlt : (cstr s).length < s.length := strlen_lt_of_mem hs.1
  have hsize : s.length ≤ 17 := hle
  rw [cstr_append_of_mem hs.1, List.take_of_length_le (by omega), slice,
    drop_padTo (by omega)]
  rfl

/-- A string field holds what was answered, and nothing else was read for it, when the string
arrives. -/
theorem stored_iff_arrives {data : BinaryData} {before after beyond : List UInt8}
    {size n : ℕ} (hbefore : before.length = size) (hpos : 0 < size) (hsize : size ≤ n)
    (hafter : after = match data with
      | none => before
      | some s => (padTo n ((cstr (s ++ beyond)).take (n - 1))).take size)
    (hle : ∀ s, data = some s → s.length ≤ size) :
    (after = padTo size (data.getD []) ∧
        ∀ s, data = some s → strncpyReads (s ++ beyond) n ≤ s.length) ↔
      Arrives data before := by
  cases data with
  | none =>
      have hnone : after = before := hafter
      rw [hnone, ← hbefore]
      constructor
      · intro h
        exact h.1
      · intro h
        refine ⟨h, ?_⟩
        intro s hs
        cases hs
  | some s =>
      have hsome : after = (padTo n ((cstr (s ++ beyond)).take (n - 1))).take size := hafter
      have hcopied := @copied_iff s beyond size n hpos (hle s rfl) hsize
      rw [← hsome] at hcopied
      constructor
      · intro h
        exact hcopied.1 ⟨h.2 s rfl, h.1⟩
      · intro h
        obtain ⟨hreads, hstored⟩ := hcopied.2 h
        refine ⟨hstored, ?_⟩
        intro s' hs'
        cases hs'
        exact hreads

theorem Effect.reports_iff {r : StationReply} {beyond : CallerField → List UInt8}
    {before : ControlConfig} {after : Destination}
    (e : Effect r.toRespGetAPConfig beyond before after) :
    Reports r.toRespGetAPConfig before after ↔ Faithful r.toRespGetAPConfig before := by
  have hssid := stored_iff_arrives (before.length_get .ssid)
    (by decide : 0 < ssidLength) (Nat.le_refl 32) e.ssid r.ssid_le
  have hbssid := stored_iff_arrives (before.length_get .bssid)
    (by decide : 0 < bssidLength) (by decide : bssidLength ≤ 19) e.bssid r.bssid_le
  constructor
  · intro h
    obtain ⟨hreads, hreads'⟩ := e.overread.1 h.inBounds
    have hbssidArrives := hbssid.1 ⟨h.bssid, hreads'⟩
    refine ⟨hssid.1 ⟨h.ssid, hreads⟩, hbssidArrives, ?_⟩
    intro hne
    obtain ⟨s, hs⟩ := Option.ne_none_iff_exists'.1 hne
    have hget := h.isWpa3Supported
    rw [e.isWpa3Supported, hs] at hget
    rw [hs] at hbssidArrives
    rw [← hget]
    exact cleared_behind_bssid hbssidArrives (r.bssid_le s hs) _
  · intro h
    obtain ⟨hssidStored, hreads⟩ := hssid.2 h.ssid
    obtain ⟨hbssidStored, hreads'⟩ := hbssid.2 h.bssid
    constructor
    · exact hssidStored
    · exact hbssidStored
    · exact e.channel
    · exact e.rssi
    · exact e.encryptionMode
    · exact e.status
    · exact e.pwd
    · rw [e.isWpa3Supported]
      cases hs : r.bssid with
      | none => rfl
      | some s =>
          have hbssidArrives := h.bssid
          rw [hs] at hbssidArrives
          rw [h.isWpa3Supported (by rw [hs]; exact Option.some_ne_none s)]
          exact cleared_behind_bssid hbssidArrives (r.bssid_le s hs) _
    · exact e.listenInterval
    · exact e.overread.2 ⟨hreads, hreads'⟩

/-- For an answer that reports success, the command reports what it says and nothing else
exactly when both strings end in zeros and the byte behind `bssid` was zero; on any other
answer it writes `status` alone. -/
theorem get_ap_config_iff (hasMsg : Bool) (msg : Int32) (confused : Confused)
    (beyond : CallerField → List UInt8) (before : ControlConfig) (r : StationReply) :
    (r.resp = 0 →
      (wifiGetApConfigInto (getApConfigReply hasMsg msg r.toRespGetAPConfig) confused beyond
          before).1 = .int SUCCESS ∧
        (Reports r.toRespGetAPConfig before (wifiGetApConfigInto
            (getApConfigReply hasMsg msg r.toRespGetAPConfig) confused beyond before).2 ↔
          Faithful r.toRespGetAPConfig before)) ∧
      (r.resp ≠ 0 → ∀ g : StaField, g ≠ .status →
        (wifiGetApConfigInto (getApConfigReply hasMsg msg r.toRespGetAPConfig) confused beyond
          before).2.get g = before.get g) := by
  constructor
  · intro h
    refine ⟨?_, (effect_of_success h).reports_iff⟩
    rw [wifiGetApConfigInto, wifiGetApConfig_of_success h]
  · intro h g hg
    exact frame_of_failure h hg

/-- An access point called `s`, with both strings and their NUL. -/
def terminatedReply : StationReply where
  ssid := some [115, 0]
  bssid := some [49, 0]
  rssi := -40
  chnl := 6
  ecn := 3
  resp := 0
  ssid_le := by
    intro s hs
    cases hs
    decide
  bssid_le := by
    intro s hs
    cases hs
    decide

theorem get_ap_config_terminated :
    Reports terminatedReply.toRespGetAPConfig .zero (wifiGetApConfigInto
      (getApConfigReply true 0 terminatedReply.toRespGetAPConfig) clearedMemory (fun _ => [])
        .zero).2 := by
  have hiff := (get_ap_config_iff true 0 clearedMemory (fun _ => []) .zero terminatedReply).1 rfl
  refine hiff.2.2 ⟨?_, ?_, ?_⟩
  · exact ⟨by decide, by decide⟩
  · exact ⟨by decide, by decide⟩
  · exact fun _ => by decide

/-- The same access point as it is sent: the 17 characters of a MAC address, without a
NUL. -/
def countedReply : StationReply where
  ssid := some [115]
  bssid := some (textBytes "00:11:22:33:44:55")
  rssi := -40
  chnl := 6
  ecn := 3
  resp := 0
  ssid_le := by
    intro s hs
    cases hs
    decide
  bssid_le := by
    intro s hs
    cases hs
    decide

/-- A structure of a network with WPA3. -/
def wpa3Config : ControlConfig :=
  ControlConfig.zero.store .isWpa3Supported [1] (by decide)

/-- Bytes behind both strings are read, and `is_wpa3_supported` changes. -/
theorem counted_reply_clears_wpa3 :
    (wifiGetApConfigInto (getApConfigReply true 0 countedReply.toRespGetAPConfig) clearedMemory
        (fun _ => []) wpa3Config).2.get .isWpa3Supported = [0] ∧
      ¬ Reports countedReply.toRespGetAPConfig wpa3Config (wifiGetApConfigInto
        (getApConfigReply true 0 countedReply.toRespGetAPConfig) clearedMemory (fun _ => [])
          wpa3Config).2 := by
  have hcleared : (wifiGetApConfigInto (getApConfigReply true 0 countedReply.toRespGetAPConfig)
      clearedMemory (fun _ => []) wpa3Config).2.get .isWpa3Supported = [0] := by
    decide +kernel
  refine ⟨hcleared, ?_⟩
  intro h
  have hkept := h.isWpa3Supported
  rw [hcleared] at hkept
  revert hkept
  decide

end Control

end EspHosted
