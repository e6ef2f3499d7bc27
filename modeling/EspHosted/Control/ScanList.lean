import EspHosted.Control.Commands
import EspHosted.Lib.Records
import EspHosted.Lib.Word

/-!
# The two lists

`wifi_ap_scan_list` and `wifi_connected_stations_list` allocate as many records as the
answer says and copy an entry into each. The number, the entries and the lengths of
their strings are three things that the slave says, and nothing compares them.
-/

namespace EspHosted

open EspHosted.Bytes

namespace Control

/-- `esp_hosted_wifi_scanlist_t`: three bytes of padding follow `bssid`. The stores are in
the order of the loop. -/
def scanLayout : Layout ScanResult where
  size := 64
  fields := fun e =>
    [ { off := 0, cap := 32, bytes := e.ssid },
      { off := 32, cap := 17, bytes := e.bssid },
      { off := 56, cap := 4, bytes := le32Bytes e.chnl },
      { off := 52, cap := 4, bytes := le32Bytes e.rssi.toUInt32 },
      { off := 60, cap := 4, bytes := le32Bytes e.ecn.toUInt32 } ]
  inside := by simp
  disjoint := by simp

/-- `esp_hosted_wifi_connected_stations_list` -/
def stationLayout : Layout ConnectedSTA where
  size := 24
  fields := fun e =>
    [ { off := 0, cap := 17, bytes := e.mac },
      { off := 20, cap := 4, bytes := le32Bytes e.rssi.toUInt32 } ]
  inside := by simp
  disjoint := by simp

/-- How a call ends: by the assertion of `esp_hosted_calloc`, with `NULL`, or with a list. -/
inductive ListEnd where
  | aborted
  | null
  | list (bytes : List UInt8)
  deriving DecidableEq

/-- The end of a call, what `*count` or `*num` is then, whether the size of the allocation
has wrapped, and whether the loop has left the entries or a field. -/
structure ListRun where
  ended : ListEnd
  count : Int32
  wrapped : Bool
  entryOverread : Bool
  fieldOverrun : Bool
  deriving DecidableEq

/-- The label `err1`. -/
def listErr1 (count : Int32) : ListRun where
  ended := .null
  count := count
  wrapped := false
  entryOverread := false
  fieldOverrun := false

/-- `esp_hosted_calloc`; `malloc` says for which sizes there is memory. `none` is the failed
assertion. -/
def espHostedCalloc (malloc : UInt32 → Bool) (blkNo size : UInt32) : Option Block :=
  if malloc (blkNo * size) then some (.calloc (blkNo * size).toNat) else none

section Copy

variable {ε : Type} (K : Layout ε) (malloc : UInt32 → Bool) (beyond : ℕ → ε)

/-- The allocation and the loop that both functions have in common. -/
def copyEntries (entries : List ε) (n : UInt32) (count : Int32) : ListRun :=
  let wrapped := decide (2 ^ 32 ≤ n.toNat * K.size)
  match espHostedCalloc malloc n (UInt32.ofNat K.size) with
  | none =>
      { ended := .aborted, count := count, wrapped := wrapped, entryOverread := false
        fieldOverrun := false }
  | some list =>
      let filled := K.fill entries beyond list n.toNat
      { ended := .list filled.block.bytes, count := count, wrapped := wrapped
        entryOverread := filled.entryOverread, fieldOverrun := filled.fieldOverrun }

end Copy

/-- `wifi_ap_scan_list` from the response on -/
def wifiApScanListInto (malloc : UInt32 → Bool) (beyond : ℕ → ScanResult) (r : RespScanResult)
    (count : Int32) : ListRun :=
  if r.resp ≠ 0 then
    listErr1 count
  else if r.count ≠ 0 then
    let count := r.count.toInt32
    if count = 0 then
      listErr1 count
    else
      copyEntries scanLayout malloc beyond r.entries r.count count
  else
    listErr1 count

/-- `wifi_connected_stations_list` from the response on -/
def wifiConnectedStationsListInto (malloc : UInt32 → Bool) (beyond : ℕ → ConnectedSTA)
    (r : RespConnectedSTA) (num : Int32) : ListRun :=
  if r.resp ≠ 0 then
    listErr1 num
  else
    let num := r.num.toInt32
    if r.num ≠ 0 then
      copyEntries stationLayout malloc beyond r.stations r.num num
    else
      listErr1 num

section Copy

variable {ε : Type} {K : Layout ε} {malloc : UInt32 → Bool} {beyond : ℕ → ε}
  {entries : List ε}

/-- The call fails, or its list has one record for each entry, in order, with the fields of
the entry; it has stayed in the entries and in the fields, and a failure leaves no positive
count. -/
structure CopiedWhole (K : Layout ε) (entries : List ε) (r : ListRun) : Prop where
  ended : r.ended = .null ∨ ∃ bytes, r.ended = .list bytes ∧
    bytes.length = K.size * entries.length ∧
      ∀ (i : ℕ) (hi : i < entries.length), ∀ f ∈ K.fields entries[i],
        slice bytes (K.size * i + f.off) f.cap = padTo f.cap f.bytes
  wrapped : r.wrapped = false
  entryOverread : r.entryOverread = false
  fieldOverrun : r.fieldOverrun = false
  null : r.ended = .null → r.count ≤ 0

/-- The count is the number of entries, the entries fit their records, and there is memory
for all of them. -/
structure Copyable (K : Layout ε) (malloc : UInt32 → Bool) (entries : List ε) (n : UInt32) :
    Prop where
  count : n.toNat = entries.length
  noWrap : n.toNat * K.size < 2 ^ 32
  fits : ∀ e ∈ entries, K.Fits e
  memory : malloc (n * UInt32.ofNat K.size) = true

theorem toNat_mul_ofNat {n : UInt32} {size : ℕ} (h : n.toNat * size < 2 ^ 32)
    (hsize : size < 2 ^ 32) : (n * UInt32.ofNat size).toNat = n.toNat * size := by
  rw [UInt32.toNat_mul, UInt32.toNat_ofNat', Nat.mod_eq_of_lt hsize, Nat.mod_eq_of_lt h]

/-- Of entries that fit, the list has one record each. -/
theorem copyEntries_of_copyable (hsize : K.size < 2 ^ 32) {n : UInt32}
    (h : Copyable K malloc entries n) (count : Int32) :
    copyEntries K malloc beyond entries n count =
      { ended := .list (entries.flatMap K.record), count := count, wrapped := false
        entryOverread := false, fieldOverrun := false } := by
  obtain ⟨hcount, hwrap, hfits, hmemory⟩ := h
  have hcalloc : espHostedCalloc malloc n (UInt32.ofNat K.size) =
      some (.calloc (K.size * entries.length)) := by
    rw [espHostedCalloc, if_pos hmemory, toNat_mul_ofNat hwrap hsize, hcount, Nat.mul_comm]
  have hblock := K.fill_eq entries beyond hfits (Nat.le_refl _)
  have hoverread := (K.entryOverread_fill entries beyond
    (.calloc (K.size * entries.length)) _).2 (Nat.le_refl _)
  have hoverrun := (K.fieldOverrun_fill entries beyond
    (.calloc (K.size * entries.length)) (Nat.le_refl _)).2
      (fun e he => hfits e (List.mem_of_mem_take he))
  have hwrapped : decide (2 ^ 32 ≤ n.toNat * K.size) = false :=
    decide_eq_false (Nat.not_le_of_lt hwrap)
  simp only [copyEntries, hcalloc, hcount ▸ hwrapped, hcount, hblock, hoverread, hoverrun,
    List.take_length, Nat.sub_self, Nat.mul_zero, List.replicate_zero, List.append_nil]

/-- A list of entries that fit is copied whole. -/
theorem copiedWhole_of_copyable (hsize : K.size < 2 ^ 32) {n : UInt32}
    (h : Copyable K malloc entries n) (count : Int32) :
    CopiedWhole K entries (copyEntries K malloc beyond entries n count) := by
  have hfits := h.fits
  have hrecord : ∀ e ∈ entries, (K.record e).length = K.size := fun e he =>
    K.length_record (hfits e he)
  rw [copyEntries_of_copyable hsize h]
  constructor
  · refine Or.inr ⟨_, rfl, length_flatMap_of_length hrecord, ?_⟩
    intro i hi f hf
    have hmem := List.getElem_mem hi
    rw [← slice_slice _ (K.inside _ f hf), slice_flatMap hrecord hi,
      K.slice_record (hfits _ hmem) hf]
  · rfl
  · rfl
  · rfl
  · intro hnull
    cases hnull

/-- Nothing else is. -/
theorem copyable_of_copiedWhole (hpos : 0 < K.size) (hsize : K.size < 2 ^ 32) {n : UInt32}
    {count : Int32} (h : CopiedWhole K entries (copyEntries K malloc beyond entries n count)) :
    Copyable K malloc entries n := by
  by_cases hmemory : malloc (n * UInt32.ofNat K.size) = true
  · have hcalloc : espHostedCalloc malloc n (UInt32.ofNat K.size) =
        some (.calloc (n * UInt32.ofNat K.size).toNat) := if_pos hmemory
    obtain ⟨hended, hwrapped, hoverread, hoverrun, -⟩ := h
    simp only [copyEntries, hcalloc] at hended hwrapped hoverread hoverrun
    have hwrap : n.toNat * K.size < 2 ^ 32 := Nat.not_le.1 (of_decide_eq_false hwrapped)
    have hle := (K.entryOverread_fill entries beyond _ _).1 hoverread
    have hcount : n.toNat = entries.length := by
      rcases hended with hnull | ⟨bytes, hlist, hlength, -⟩
      · cases hnull
      · cases hlist
        rw [K.length_fill, Block.calloc, List.length_replicate, toNat_mul_ofNat hwrap hsize,
          Nat.mul_comm] at hlength
        exact Nat.eq_of_mul_eq_mul_left hpos hlength
    have hfits := (K.fieldOverrun_fill entries beyond _ hle).1 hoverrun
    rw [hcount, List.take_length] at hfits
    exact ⟨hcount, hwrap, hfits, hmemory⟩
  · have hcalloc : espHostedCalloc malloc n (UInt32.ofNat K.size) = none := if_neg hmemory
    have hended := h.ended
    simp only [copyEntries, hcalloc] at hended
    rcases hended with hnull | ⟨bytes, hlist, -⟩
    · cases hnull
    · cases hlist

theorem copiedWhole_listErr1_iff (count : Int32) :
    CopiedWhole K entries (listErr1 count) ↔ count ≤ 0 := by
  constructor
  · intro h
    exact h.null rfl
  · intro h
    exact ⟨Or.inl rfl, rfl, rfl, rfl, fun _ => h⟩

end Copy

theorem fits_scanLayout (e : ScanResult) :
    scanLayout.Fits e ↔ e.ssid.length ≤ 32 ∧ e.bssid.length ≤ 17 := by
  simp [Layout.Fits, scanLayout]

theorem toInt32_ne_zero {n : UInt32} (h : n ≠ 0) : n.toInt32 ≠ 0 := by
  intro h0
  apply h
  calc
    n = n.toInt32.toUInt32 := (UInt32.toUInt32_toInt32 n).symm
    _ = 0 := by rw [h0]; rfl

/-- Both functions copy a list whole exactly when the answer counts its entries and none of
them has a string that is too long, the memory for them is there and its size has not
wrapped. An empty list is a failure, which leaves the count of the caller as it was. -/
theorem lists_copied_whole_iff (malloc : UInt32 → Bool) :
    (∀ (beyond : ℕ → ScanResult) (r : RespScanResult) (count : Int32), r.resp = 0 →
      (CopiedWhole scanLayout r.entries (wifiApScanListInto malloc beyond r count) ↔
        (r.count = 0 ∧ count ≤ 0) ∨
          (r.count ≠ 0 ∧ Copyable scanLayout malloc r.entries r.count))) ∧
      ∀ (beyond : ℕ → ConnectedSTA) (r : RespConnectedSTA) (num : Int32), r.resp = 0 →
        (CopiedWhole stationLayout r.stations
            (wifiConnectedStationsListInto malloc beyond r num) ↔
          r.num = 0 ∨ Copyable stationLayout malloc r.stations r.num) := by
  constructor
  · intro beyond r count hresp
    have hok : ¬ r.resp ≠ 0 := fun h => h hresp
    rw [wifiApScanListInto, if_neg hok]
    by_cases hcount : r.count = 0
    · rw [if_neg (fun h => h hcount), copiedWhole_listErr1_iff]
      simp [hcount]
    · rw [if_pos hcount]
      simp only [toInt32_ne_zero hcount, if_false]
      constructor
      · intro h
        exact Or.inr ⟨hcount, copyable_of_copiedWhole (by decide) (by decide) h⟩
      · intro h
        rcases h with h | h
        · exact absurd h.1 hcount
        · exact copiedWhole_of_copyable (by decide) h.2 _
  · intro beyond r num hresp
    have hok : ¬ r.resp ≠ 0 := fun h => h hresp
    rw [wifiConnectedStationsListInto, if_neg hok]
    by_cases hnum : r.num = 0
    · simp only [hnum, ne_eq, not_true_eq_false, if_false, true_or, iff_true]
      exact (copiedWhole_listErr1_iff _).2 (by decide)
    · rw [if_pos hnum]
      constructor
      · intro h
        exact Or.inr (copyable_of_copiedWhole (by decide) (by decide) h)
      · intro h
        exact copiedWhole_of_copyable (by decide) (h.resolve_left hnum) _

section Command

variable {resp : EspHostedConfigPayload} {confused : Confused} {mistyped : Bool}
  {malloc : UInt32 → Bool}

theorem map_getElem?_range {ε : Type} (l : List ε) :
    (List.range l.length).map (fun i => l[i]?) = l.map some := by
  apply List.ext_getElem
  · simp
  · intro i hi _
    rw [List.length_map, List.length_range] at hi
    simp [List.getElem?_eq_getElem hi]

theorem none_mem_map_getElem?_range {ε : Type} (l : List ε) (n : ℕ) :
    none ∈ (List.range n).map (fun i => l[i]?) ↔ l.length < n := by
  rw [List.mem_map]
  constructor
  · intro h
    obtain ⟨i, hi, hnone⟩ := h
    exact Nat.lt_of_le_of_lt (List.getElem?_eq_none_iff.1 hnone) (List.mem_range.1 hi)
  · intro h
    exact ⟨l.length, List.mem_range.2 h, List.getElem?_eq_none (Nat.le_refl _)⟩

/-- The entries that the command is said to return are those in the records. -/
theorem wifiApScanList_of_copyable {r : RespScanResult} (beyond : ℕ → ScanResult)
    (count : Int32) (hread : readMember .respScanApList resp confused = some (r, mistyped))
    (hresp : r.resp = 0) (hcount : r.count ≠ 0)
    (h : Copyable scanLayout malloc r.entries r.count) :
    (wifiApScanList resp confused).1.ret = .scanList (some (r.entries.map some)) ∧
      (wifiApScanListInto malloc beyond r count).ended =
        .list (r.entries.flatMap scanLayout.record) := by
  have hok : ¬ r.resp ≠ 0 := fun hne => hne hresp
  constructor
  · simp only [wifiApScanList, respond, hread, if_neg hok, if_neg hcount, h.count,
      map_getElem?_range]
  · rw [wifiApScanListInto, if_neg hok, if_pos hcount]
    simp only [toInt32_ne_zero hcount, if_false]
    rw [copyEntries_of_copyable (by decide) h]

theorem wifiConnectedStationsList_of_copyable {r : RespConnectedSTA}
    (beyond : ℕ → ConnectedSTA) (num : Int32)
    (hread : readMember .respConnectedStasList resp confused = some (r, mistyped))
    (hresp : r.resp = 0) (hnum : r.num ≠ 0)
    (h : Copyable stationLayout malloc r.stations r.num) :
    (wifiConnectedStationsList resp confused).1.ret =
        .stationsList (some (r.stations.map some)) ∧
      (wifiConnectedStationsListInto malloc beyond r num).ended =
        .list (r.stations.flatMap stationLayout.record) := by
  have hok : ¬ r.resp ≠ 0 := fun hne => hne hresp
  constructor
  · simp only [wifiConnectedStationsList, respond, hread, if_neg hok, if_neg hnum, h.count,
      map_getElem?_range]
  · rw [wifiConnectedStationsListInto, if_neg hok]
    simp only [hnum, ne_eq, not_false_eq_true, if_true]
    rw [copyEntries_of_copyable (by decide) h]

/-- An entry behind the list is read exactly when the command is said to return one. -/
theorem entryOverread_copyEntries_iff {ε : Type} {K : Layout ε} {beyond : ℕ → ε}
    {entries : List ε} {n : UInt32} {count : Int32}
    (hmemory : malloc (n * UInt32.ofNat K.size) = true) :
    (copyEntries K malloc beyond entries n count).entryOverread = true ↔
      none ∈ (List.range n.toNat).map (fun i => entries[i]?) := by
  have hcalloc : espHostedCalloc malloc n (UInt32.ofNat K.size) =
      some (.calloc (n * UInt32.ofNat K.size).toNat) := if_pos hmemory
  have hiff := K.entryOverread_fill entries beyond
    (.calloc (n * UInt32.ofNat K.size).toNat) n.toNat
  simp only [copyEntries, hcalloc]
  rw [none_mem_map_getElem?_range, ← Nat.not_le, ← hiff, Bool.not_eq_false]

theorem entryOverread_wifiApScanListInto_iff {r : RespScanResult} (beyond : ℕ → ScanResult)
    (count : Int32) (hread : readMember .respScanApList resp confused = some (r, mistyped))
    (hresp : r.resp = 0) (hcount : r.count ≠ 0)
    (hmemory : malloc (r.count * UInt32.ofNat scanLayout.size) = true) :
    (wifiApScanListInto malloc beyond r count).entryOverread = true ↔
      ∃ l, (wifiApScanList resp confused).1.ret = .scanList (some l) ∧ none ∈ l := by
  have hok : ¬ r.resp ≠ 0 := fun hne => hne hresp
  have hret : (wifiApScanList resp confused).1.ret =
      .scanList (some ((List.range r.count.toNat).map fun i => r.entries[i]?)) := by
    simp only [wifiApScanList, respond, hread, if_neg hok, if_neg hcount]
  rw [wifiApScanListInto, if_neg hok, if_pos hcount]
  simp only [toInt32_ne_zero hcount, if_false]
  rw [entryOverread_copyEntries_iff hmemory, hret]
  simp

end Command

/-- One access point. -/
def oneEntry : RespScanResult where
  count := 1
  entries := [{ ssid := [115], bssid := [49], chnl := 6, rssi := -40, ecn := 3 }]
  resp := 0

/-- A heap of a thousand bytes. -/
def smallHeap (n : UInt32) : Bool := decide (n ≤ 1000)

/-- What is read behind the list. -/
def blankEntry : ScanResult := { ssid := [], bssid := [], chnl := 0, rssi := 0, ecn := 0 }

/-- Two access points, the second with all 17 characters of its address. -/
def twoEntries : RespScanResult where
  count := 2
  entries :=
    [ { ssid := [115], bssid := [49], chnl := 6, rssi := -40, ecn := 3 },
      { ssid := [104, 111, 109, 101], bssid := List.replicate 17 48, chnl := 11, rssi := -71,
        ecn := 0 } ]
  resp := 0

theorem two_entries_copied_whole :
    CopiedWhole scanLayout twoEntries.entries
      (wifiApScanListInto smallHeap (fun _ => blankEntry) twoEntries 0) := by
  have hiff := (lists_copied_whole_iff smallHeap).1 (fun _ => blankEntry) twoEntries 0 rfl
  refine hiff.2 (Or.inr ⟨by decide, rfl, by decide, ?_, by decide⟩)
  intro e he
  rw [fits_scanLayout]
  rw [twoEntries, List.mem_pair] at he
  rcases he with rfl | rfl
  · decide
  · decide

/-- An answer that counts an entry it does not hold. -/
def missingEntry : RespScanResult where
  count := 2
  entries := oneEntry.entries
  resp := 0

/-- The entry is read behind the list. -/
theorem missing_entry_read :
    (wifiApScanListInto smallHeap (fun _ => blankEntry) missingEntry 0).entryOverread = true ∧
      ¬ CopiedWhole scanLayout missingEntry.entries
        (wifiApScanListInto smallHeap (fun _ => blankEntry) missingEntry 0) := by
  have hread : (wifiApScanListInto smallHeap (fun _ => blankEntry) missingEntry
      0).entryOverread = true := by decide
  refine ⟨hread, ?_⟩
  intro h
  rw [h.entryOverread] at hread
  cases hread

end Control

end EspHosted
