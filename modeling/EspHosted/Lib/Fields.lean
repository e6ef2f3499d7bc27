import EspHosted.Lib.Slice

/-!
# Fields of fixed width

A packet is the concatenation of its fields. `widths` are their lengths, so that the
offset of field `k` is the sum of the first `k` widths: what is read there is the
field, and what is stored there replaces it. Every block that is long enough splits
into such fields and a rest.

`copyLoop` is the store of a field byte by byte, from another block or from a place
in the block that is written.
-/

namespace EspHosted

namespace Bytes

/-! ## Reading and replacing a field -/

section Fields

variable {fields : List (List UInt8)} {widths : List ℕ}

/-- The fields that stand before field `k` fill the block up to its offset. -/
theorem length_flatten_take (h : fields.map List.length = widths) (k : ℕ) :
    (fields.take k).flatten.length = (widths.take k).sum := by
  rw [List.length_flatten, List.map_take, h]

theorem flatten_eq_of_getElem? {k : ℕ} {field : List UInt8} (hk : fields[k]? = some field) :
    fields.flatten = (fields.take k).flatten ++ (field ++ (fields.drop (k + 1)).flatten) := by
  obtain ⟨hlt, hfield⟩ := List.getElem?_eq_some_iff.1 hk
  rw [← List.flatten_cons, ← List.flatten_append, ← hfield,
    ← List.drop_eq_getElem_cons hlt, List.take_append_drop]

/-- A field ends inside the block. -/
theorem offset_add_length_le (h : fields.map List.length = widths) {k : ℕ} {field : List UInt8}
    (hk : fields[k]? = some field) (rest : List UInt8) :
    (widths.take k).sum + field.length ≤ (fields.flatten ++ rest).length := by
  rw [flatten_eq_of_getElem? hk, ← length_flatten_take h k]
  simp only [List.length_append]
  omega

theorem slice_field (h : fields.map List.length = widths) {k : ℕ} {field : List UInt8}
    (hk : fields[k]? = some field) (rest : List UInt8) :
    slice (fields.flatten ++ rest) (widths.take k).sum field.length = field := by
  rw [flatten_eq_of_getElem? hk, List.append_assoc, List.append_assoc]
  exact slice_append (length_flatten_take h k) rfl _

theorem patch_field (h : fields.map List.length = widths) {k : ℕ} {field src : List UInt8}
    (hk : fields[k]? = some field) (hsrc : src.length = field.length) (rest : List UInt8) :
    patch (fields.flatten ++ rest) (widths.take k).sum src =
      (fields.set k src).flatten ++ rest := by
  have hlt := (List.getElem?_eq_some_iff.1 hk).1
  have hset : fields.set k src = fields.take k ++ src :: fields.drop (k + 1) := by
    rw [List.set_eq_take_append_cons_drop, if_pos hlt]
  have hpatch := patch_append (fields.take k).flatten field
    ((fields.drop (k + 1)).flatten ++ rest) src hsrc.symm
  rw [flatten_eq_of_getElem? hk, hset, ← length_flatten_take h k]
  simpa [List.append_assoc] using hpatch

/-- The block cut into fields of the given widths. -/
def split : List ℕ → List UInt8 → List (List UInt8)
  | [], _ => []
  | w :: widths, m => m.take w :: split widths (m.drop w)

theorem map_length_split (widths : List ℕ) {m : List UInt8} (h : widths.sum ≤ m.length) :
    (split widths m).map List.length = widths := by
  induction widths generalizing m with
  | nil => rfl
  | cons w widths ih =>
      rw [List.sum_cons] at h
      have hdrop : widths.sum ≤ (m.drop w).length := by
        rw [List.length_drop]
        omega
      rw [split, List.map_cons, ih hdrop, List.length_take, Nat.min_eq_left (by omega)]

/-- Nothing is lost when a block is cut. -/
theorem flatten_split (widths : List ℕ) (m : List UInt8) :
    (split widths m).flatten ++ m.drop widths.sum = m := by
  induction widths generalizing m with
  | nil => simp [split]
  | cons w widths ih =>
      rw [split, List.flatten_cons, List.append_assoc, List.sum_cons, ← List.drop_drop, ih,
        List.take_append_drop]

end Fields

/-! ## A store byte by byte -/

/-- Where a copy loop reads: at an offset of the block it writes, or in another block. -/
inductive Source where
  | inside (pos : ℕ)
  | outside (bytes : List UInt8)

/-- Byte `idx` of the source, when the block is `m`. -/
def Source.read (m : List UInt8) (idx : ℕ) : Source → UInt8
  | .inside pos => m.getD (pos + idx) 0
  | .outside bytes => bytes.getD idx 0

def copyLoop (m : List UInt8) (src : Source) (off n : ℕ) : List UInt8 :=
  (List.range n).foldl (fun m idx => m.set (off + idx) (src.read m idx)) m

section CopyLoop

variable {m : List UInt8} {src : Source} {off : ℕ}

theorem copyLoop_succ (n : ℕ) :
    copyLoop m src off (n + 1) =
      (copyLoop m src off n).set (off + n) (src.read (copyLoop m src off n) n) := by
  rw [copyLoop, List.range_succ, List.foldl_append]
  rfl

/-- As long as the loop has not written to what it reads, it has stored a part of it. -/
theorem copyLoop_eq_patch {l : List UInt8} {n : ℕ} (hn : n ≤ l.length)
    (hoff : off + l.length ≤ m.length)
    (hread : ∀ k, k < l.length → src.read (patch m off (l.take k)) k = l.getD k 0) :
    copyLoop m src off n = patch m off (l.take n) := by
  induction n with
  | zero => simp [copyLoop, patch]
  | succ n ih =>
      have hlt : n < l.length := hn
      rw [copyLoop_succ, ih (Nat.le_of_lt hlt), hread n hlt]
      apply List.ext_getElem?
      intro i
      have hlen : (l.take n).length = n := List.length_take_of_le (Nat.le_of_lt hlt)
      have hlen' : (l.take (n + 1)).length = n + 1 := List.length_take_of_le hlt
      have hpatch : (patch m off (l.take n)).length = m.length := length_patch (by omega)
      rw [List.getElem?_set, hpatch, getElem?_patch (by omega), getElem?_patch (by omega), hlen,
        hlen', List.getElem?_take, List.getElem?_take]
      by_cases hi : off + n = i
      · have hin : off ≤ i ∧ i < off + (n + 1) := by omega
        have hm : off + n < m.length := by omega
        have hpos : i - off = n := by omega
        rw [if_pos hi, if_pos hm, if_pos hin, hpos, if_pos (Nat.lt_succ_self n),
          List.getD_eq_getElem?_getD, List.getElem?_eq_getElem hlt, Option.getD_some]
      · rw [if_neg hi]
        by_cases hin : off ≤ i ∧ i < off + n
        · have hin' : off ≤ i ∧ i < off + (n + 1) := by omega
          have hpos : i - off < n := by omega
          rw [if_pos hin, if_pos hin', if_pos hpos, if_pos (Nat.lt_succ_of_lt hpos)]
        · have hin' : ¬ (off ≤ i ∧ i < off + (n + 1)) := by omega
          rw [if_neg hin, if_neg hin']

/-- From another block, the loop is a store. -/
theorem copyLoop_outside {l : List UInt8} (hoff : off + l.length ≤ m.length) :
    copyLoop m (.outside l) off l.length = patch m off l := by
  have hread : ∀ k, k < l.length →
      (Source.outside l).read (patch m off (l.take k)) k = l.getD k 0 := by
    intro k _
    rfl
  have hcopy := copyLoop_eq_patch (Nat.le_refl l.length) hoff hread
  rwa [List.take_length] at hcopy

/-- From a part of the block that the loop does not reach, it is a store, too. -/
theorem copyLoop_inside {pos n : ℕ} (hoff : off + n ≤ m.length) (hpos : pos + n ≤ m.length)
    (hdisjoint : pos + n ≤ off ∨ off + n ≤ pos) :
    copyLoop m (.inside pos) off n = patch m off (slice m pos n) := by
  have hlen := length_slice hpos
  have hread : ∀ k, k < (slice m pos n).length →
      (Source.inside pos).read (patch m off ((slice m pos n).take k)) k =
        (slice m pos n).getD k 0 := by
    intro k hk
    have htake : ((slice m pos n).take k).length = k :=
      List.length_take_of_le (Nat.le_of_lt hk)
    have hout : ¬ (off ≤ pos + k ∧ pos + k < off + k) := by omega
    rw [Source.read, List.getD_eq_getElem?_getD, List.getD_eq_getElem?_getD,
      getElem?_patch (by omega), htake, if_neg hout, getElem?_slice, if_pos (by omega)]
  have hcopy := copyLoop_eq_patch (Nat.le_of_eq hlen.symm) (by omega) hread
  rwa [List.take_of_length_le (Nat.le_of_eq hlen)] at hcopy

end CopyLoop

end Bytes

end EspHosted
