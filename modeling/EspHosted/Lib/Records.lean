import EspHosted.Lib.CString

/-!
# Arrays of records

A block of `count * size` bytes is filled record by record, each with stores to fixed
places of the record. The number of records and the lengths of the stores are not
taken from the list that is copied, so the fill says when it has left the list, and
when a store has left its field. If neither happens, every record holds its entry.
-/

namespace EspHosted

namespace Bytes

/-- A store of `bytes` at `off` of a record, where `cap` bytes are meant for it. -/
structure FieldStore where
  off : ℕ
  cap : ℕ
  bytes : List UInt8

/-- The record that an entry becomes: its size and its fields. -/
structure Layout (ε : Type) where
  size : ℕ
  fields : ε → List FieldStore
  inside : ∀ e, ∀ f ∈ fields e, f.off + f.cap ≤ size
  disjoint : ∀ e, (fields e).Pairwise fun f g =>
    f.off + f.cap ≤ g.off ∨ g.off + g.cap ≤ f.off

/-- A block while it is filled: whether an entry behind the list has been read, and
whether a store was longer than its field. -/
structure Filled where
  block : Block
  entryOverread : Bool
  fieldOverrun : Bool

/-- The stores of one record, which starts at `base`. -/
def storeRecord (b : Block) (base : ℕ) (fs : List FieldStore) : Block :=
  fs.foldl (fun b f => b.store (base + f.off) f.bytes) b

namespace Layout

variable {ε : Type} (K : Layout ε)

/-- Every store of the entry fits its field. -/
def Fits (e : ε) : Prop := ∀ f ∈ K.fields e, f.bytes.length ≤ f.cap

/-- The `i`-th turn of the loop; `beyond` is what the memory behind the list looks like when
it is read as an entry. -/
def fillStep (entries : List ε) (beyond : ℕ → ε) (s : Filled) (i : ℕ) : Filled where
  block := storeRecord s.block (K.size * i) (K.fields (entries.getD i (beyond i)))
  entryOverread := s.entryOverread || decide (entries.length ≤ i)
  fieldOverrun := s.fieldOverrun ||
    (K.fields (entries.getD i (beyond i))).any fun f => decide (f.cap < f.bytes.length)

/-- The loop over `count` records, into a cleared block. -/
def fill (entries : List ε) (beyond : ℕ → ε) (b : Block) (count : ℕ) : Filled :=
  (List.range count).foldl (K.fillStep entries beyond)
    { block := b, entryOverread := false, fieldOverrun := false }

/-- A record by itself. -/
def record (e : ε) : List UInt8 :=
  (K.fields e).foldl (fun m f => patch m f.off f.bytes) (List.replicate K.size 0)

/-! ## One record -/

/-- Stores that stay in a memory keep its length. -/
theorem length_foldl_patch {fs : List FieldStore} {m : List UInt8}
    (hinside : ∀ f ∈ fs, f.off + f.bytes.length ≤ m.length) :
    (fs.foldl (fun m f => patch m f.off f.bytes) m).length = m.length := by
  induction fs generalizing m with
  | nil => rfl
  | cons f fs ih =>
      have hlen : (patch m f.off f.bytes).length = m.length :=
        length_patch (hinside f List.mem_cons_self)
      rw [List.foldl_cons, ih, hlen]
      intro g hg
      rw [hlen]
      exact hinside g (List.mem_cons_of_mem _ hg)

/-- What none of the stores meets stays. -/
theorem slice_foldl_patch {fs : List FieldStore} {m : List UInt8} {off n : ℕ}
    (hinside : ∀ f ∈ fs, f.off + f.bytes.length ≤ m.length)
    (houtside : ∀ f ∈ fs, off + n ≤ f.off ∨ f.off + f.bytes.length ≤ off) :
    slice (fs.foldl (fun m f => patch m f.off f.bytes) m) off n = slice m off n := by
  induction fs generalizing m with
  | nil => rfl
  | cons f fs ih =>
      have hf := hinside f List.mem_cons_self
      rw [List.foldl_cons, ih]
      · exact slice_patch_of_disjoint (by omega) (houtside f List.mem_cons_self)
      · intro g hg
        rw [length_patch hf]
        exact hinside g (List.mem_cons_of_mem _ hg)
      · intro g hg
        exact houtside g (List.mem_cons_of_mem _ hg)

/-- Each of several stores into disjoint fields shows in its own. -/
theorem slice_foldl_patch_of_mem {fs : List FieldStore} {m : List UInt8}
    (hinside : ∀ f ∈ fs, f.off + f.cap ≤ m.length)
    (hfits : ∀ f ∈ fs, f.bytes.length ≤ f.cap)
    (hdisjoint : fs.Pairwise fun f g => f.off + f.cap ≤ g.off ∨ g.off + g.cap ≤ f.off)
    {f : FieldStore} (hf : f ∈ fs) :
    slice (fs.foldl (fun m f => patch m f.off f.bytes) m) f.off f.cap =
      patch (slice m f.off f.cap) 0 f.bytes := by
  induction fs generalizing m with
  | nil => exact absurd hf List.not_mem_nil
  | cons g fs ih =>
      have hg := hinside g List.mem_cons_self
      have hgfits := hfits g List.mem_cons_self
      have hlen : (patch m g.off g.bytes).length = m.length := length_patch (by omega)
      obtain ⟨hhead, htail⟩ := List.pairwise_cons.1 hdisjoint
      have hinside' : ∀ h ∈ fs, h.off + h.cap ≤ (patch m g.off g.bytes).length := by
        intro h hh
        rw [hlen]
        exact hinside h (List.mem_cons_of_mem _ hh)
      have hfits' : ∀ h ∈ fs, h.bytes.length ≤ h.cap := fun h hh =>
        hfits h (List.mem_cons_of_mem _ hh)
      rw [List.foldl_cons]
      rcases List.mem_cons.1 hf with rfl | hmem
      · rw [slice_foldl_patch]
        · exact slice_patch_start (by omega) hgfits
        · intro h hh
          have hcap := hinside' h hh
          have hle := hfits' h hh
          omega
        · intro h hh
          have hle := hfits' h hh
          rcases hhead h hh with hdis | hdis
          · exact Or.inl hdis
          · exact Or.inr (by omega)
      · rw [ih hinside' hfits' htail hmem]
        congr 1
        apply slice_patch_of_disjoint (by omega)
        rcases hhead f hmem with hdis | hdis
        · exact Or.inr (by omega)
        · exact Or.inl hdis

theorem length_record {e : ε} (he : K.Fits e) : (K.record e).length = K.size := by
  rw [record, length_foldl_patch, List.length_replicate]
  intro f hf
  have hinside := K.inside e f hf
  have hfits := he f hf
  rw [List.length_replicate]
  omega

/-- A record holds its entry, each field with zeros behind it. -/
theorem slice_record {e : ε} (he : K.Fits e) {f : FieldStore} (hf : f ∈ K.fields e) :
    slice (K.record e) f.off f.cap = padTo f.cap f.bytes := by
  have hinside : ∀ g ∈ K.fields e, g.off + g.cap ≤ (List.replicate K.size (0 : UInt8)).length := by
    intro g hg
    rw [List.length_replicate]
    exact K.inside e g hg
  have hzero : slice (List.replicate K.size (0 : UInt8)) f.off f.cap =
      List.replicate f.cap 0 := by
    have hle := K.inside e f hf
    rw [slice, List.drop_replicate, List.take_replicate, Nat.min_eq_left (by omega)]
  rw [record, slice_foldl_patch_of_mem hinside he (K.disjoint e) hf, hzero, patch_replicate]
  rfl

/-! ## The loop -/

theorem length_storeRecord (b : Block) (base : ℕ) (fs : List FieldStore) :
    (storeRecord b base fs).bytes.length = b.bytes.length := by
  rw [storeRecord]
  induction fs generalizing b with
  | nil => rfl
  | cons f fs ih => rw [List.foldl_cons, ih, Block.length_store]

/-- The stores of one record in the middle of a block. -/
theorem storeRecord_eq {fs : List FieldStore} {m : List UInt8} (l r : List UInt8) (o : Bool)
    (hinside : ∀ f ∈ fs, f.off + f.bytes.length ≤ m.length) :
    storeRecord { bytes := l ++ (m ++ r), overrun := o } l.length fs =
      { bytes := l ++ (fs.foldl (fun m f => patch m f.off f.bytes) m ++ r), overrun := o } := by
  rw [storeRecord]
  induction fs generalizing m with
  | nil => rfl
  | cons f fs ih =>
      have hf := hinside f List.mem_cons_self
      have hroom : l.length + f.off + f.bytes.length ≤ (l ++ (m ++ r)).length := by
        rw [List.length_append, List.length_append]
        omega
      rw [List.foldl_cons, List.foldl_cons, Block.store_of_le hroom, patch_append_within l r hf]
      apply ih
      intro g hg
      rw [length_patch hf]
      exact hinside g (List.mem_cons_of_mem _ hg)

variable (entries : List ε) (beyond : ℕ → ε)

theorem fill_succ (b : Block) (n : ℕ) :
    K.fill entries beyond b (n + 1) = K.fillStep entries beyond (K.fill entries beyond b n) n := by
  rw [fill, List.range_succ, List.foldl_concat]
  rfl

theorem length_fill (b : Block) (n : ℕ) :
    (K.fill entries beyond b n).block.bytes.length = b.bytes.length := by
  induction n with
  | zero => rfl
  | succ n ih =>
      rw [fill_succ]
      exact (length_storeRecord _ _ _).trans ih

/-- The loop stays in the list as long as it makes no more turns than the list is long. -/
theorem entryOverread_fill (b : Block) (n : ℕ) :
    (K.fill entries beyond b n).entryOverread = false ↔ n ≤ entries.length := by
  induction n with
  | zero => exact iff_of_true rfl (Nat.zero_le _)
  | succ n ih =>
      rw [fill_succ, fillStep, Bool.or_eq_false_iff, ih, decide_eq_false_iff_not]
      omega

theorem fieldOverrun_fill (b : Block) {n : ℕ} (hn : n ≤ entries.length) :
    (K.fill entries beyond b n).fieldOverrun = false ↔ ∀ e ∈ entries.take n, K.Fits e := by
  induction n with
  | zero => simp [fill]
  | succ n ih =>
      have hlt : n < entries.length := hn
      have hget : entries.getD n (beyond n) = entries[n] := by
        simp [hlt]
      have hfits : ((K.fields entries[n]).any fun f => decide (f.cap < f.bytes.length)) = false ↔
          K.Fits entries[n] := by
        simp only [List.any_eq_false, decide_eq_true_eq, Nat.not_lt, Fits]
      rw [fill_succ, fillStep, Bool.or_eq_false_iff, ih (Nat.le_of_lt hlt), hget, hfits,
        List.take_succ_eq_append_getElem hlt]
      simp only [List.mem_append, List.mem_singleton]
      constructor
      · intro h e he
        rcases he with he | rfl
        · exact h.1 e he
        · exact h.2
      · intro h
        exact ⟨fun e he => h e (Or.inl he), h entries[n] (Or.inr rfl)⟩

/-- A list of entries that fit becomes the block of their records. -/
theorem fill_eq (hfits : ∀ e ∈ entries, K.Fits e) {n : ℕ} (hn : n ≤ entries.length) :
    (K.fill entries beyond (.calloc (K.size * entries.length)) n).block =
      { bytes := (entries.take n).flatMap K.record ++
          List.replicate (K.size * (entries.length - n)) 0
        overrun := false } := by
  induction n with
  | zero => simp [fill, Block.calloc]
  | succ n ih =>
      have hlt : n < entries.length := hn
      have hget : entries.getD n (beyond n) = entries[n] := by
        simp [hlt]
      have hentry := hfits _ (List.getElem_mem hlt)
      have hlength : ((entries.take n).flatMap K.record).length = K.size * n := by
        rw [length_flatMap_of_length, List.length_take, Nat.min_eq_left (Nat.le_of_lt hlt)]
        intro e he
        exact K.length_record (hfits e (List.mem_of_mem_take he))
      have hrest : List.replicate (K.size * (entries.length - n)) (0 : UInt8) =
          List.replicate K.size 0 ++ List.replicate (K.size * (entries.length - (n + 1))) 0 := by
        have hleft : entries.length - n = (entries.length - (n + 1)) + 1 := by omega
        rw [List.replicate_append_replicate, hleft, Nat.mul_succ, Nat.add_comm]
      rw [fill_succ, fillStep, ih (Nat.le_of_lt hlt), hget, hrest, ← hlength, storeRecord_eq,
        List.take_succ_eq_append_getElem hlt, List.flatMap_append, List.append_assoc]
      · simp [record]
      · intro f hf
        have hcap := hentry f hf
        have hinside := K.inside _ f hf
        rw [List.length_replicate]
        omega

end Layout

end Bytes

end EspHosted
