import EspHosted.Lib.Bytes

/-!
# Parts of a block

`slice m off n` is the field of `n` bytes at `off`. A store inside a field shows
there, and a store outside of it does not; the lemmas say both, so that a layout is
a list of offsets and the frame of a store a comparison of numbers.
-/

namespace EspHosted

namespace Bytes

/-- The `n` bytes at `off`. -/
def slice (m : List UInt8) (off n : ℕ) : List UInt8 := (m.drop off).take n

theorem length_slice {m : List UInt8} {off n : ℕ} (h : off + n ≤ m.length) :
    (slice m off n).length = n := by
  rw [slice, List.length_take, List.length_drop]
  omega

theorem getElem?_slice (m : List UInt8) (off n i : ℕ) :
    (slice m off n)[i]? = if i < n then m[off + i]? else none := by
  rw [slice, List.getElem?_take, List.getElem?_drop]

theorem slice_add (m : List UInt8) (off n k : ℕ) :
    slice m off (n + k) = slice m off n ++ slice m (off + n) k := by
  simp only [slice]
  rw [List.take_add, List.drop_drop]

/-- A block is stored byte by byte. -/
theorem getElem?_patch {m src : List UInt8} {off : ℕ} (h : off ≤ m.length) (i : ℕ) :
    (patch m off src)[i]? =
      if off ≤ i ∧ i < off + src.length then src[i - off]? else m[i]? := by
  have hlen : (m.take off).length = off := by
    rw [List.length_take]
    omega
  rw [patch]
  by_cases hlow : i < off
  · have hnot : ¬ (off ≤ i ∧ i < off + src.length) := by omega
    rw [if_neg hnot, List.append_assoc, List.getElem?_append_left (by omega),
      List.getElem?_take, if_pos hlow]
  · by_cases hhigh : i < off + src.length
    · have hin : off ≤ i ∧ i < off + src.length := by omega
      rw [if_pos hin, List.append_assoc, List.getElem?_append_right (by omega), hlen,
        List.getElem?_append_left (by omega)]
    · have hnot : ¬ (off ≤ i ∧ i < off + src.length) := by omega
      have happ : (m.take off ++ src).length = off + src.length := by
        rw [List.length_append, hlen]
      rw [if_neg hnot, List.getElem?_append_right (by omega), happ, List.getElem?_drop]
      congr 1
      omega

/-- A field that ends before a store or starts behind it keeps its bytes. -/
theorem slice_patch_of_disjoint {m src : List UInt8} {off pos n : ℕ} (h : off ≤ m.length)
    (hdisjoint : pos + n ≤ off ∨ off + src.length ≤ pos) :
    slice (patch m off src) pos n = slice m pos n := by
  apply List.ext_getElem?
  intro i
  rw [getElem?_slice, getElem?_slice]
  by_cases hi : i < n
  · have hnot : ¬ (off ≤ pos + i ∧ pos + i < off + src.length) := by omega
    rw [if_pos hi, if_pos hi, getElem?_patch h, if_neg hnot]
  · rw [if_neg hi, if_neg hi]

/-- A field inside a store holds its part of what is stored. -/
theorem slice_patch_of_within {m src : List UInt8} {off pos n : ℕ} (h : off ≤ m.length)
    (hlow : off ≤ pos) (hhigh : pos + n ≤ off + src.length) :
    slice (patch m off src) pos n = slice src (pos - off) n := by
  apply List.ext_getElem?
  intro i
  rw [getElem?_slice, getElem?_slice]
  by_cases hi : i < n
  · have hin : off ≤ pos + i ∧ pos + i < off + src.length := by omega
    rw [if_pos hi, if_pos hi, getElem?_patch h, if_pos hin]
    congr 1
    omega
  · rw [if_neg hi, if_neg hi]

/-- The field between a part `l` that ends at its offset and a part `r`. -/
theorem slice_append {l m : List UInt8} {off n : ℕ} (hl : l.length = off) (hm : m.length = n)
    (r : List UInt8) : slice (l ++ (m ++ r)) off n = m := by
  rw [slice, List.drop_left' hl, List.take_left' hm]

/-- A store at the start of a field, and not behind its end. -/
theorem slice_patch_start {m src : List UInt8} {off n : ℕ} (h : off + n ≤ m.length)
    (hsrc : src.length ≤ n) :
    slice (patch m off src) off n = patch (slice m off n) 0 src := by
  have hlen := length_slice h
  apply List.ext_getElem?
  intro i
  rw [getElem?_slice, getElem?_patch (by omega), getElem?_patch (by omega), getElem?_slice]
  by_cases hi : i < src.length
  · have hin : i < n := by omega
    have hout : off ≤ off + i ∧ off + i < off + src.length := by omega
    have hzero : 0 ≤ i ∧ i < 0 + src.length := by omega
    rw [if_pos hin, if_pos hout, if_pos hzero]
    congr 1
    omega
  · have hout : ¬ (off ≤ off + i ∧ off + i < off + src.length) := by omega
    have hzero : ¬ (0 ≤ i ∧ i < 0 + src.length) := by omega
    rw [if_neg hout, if_neg hzero]

@[simp] theorem slice_zero_length (m : List UInt8) : slice m 0 m.length = m := by
  rw [slice, List.drop_zero, List.take_length]

/-- Two stores behind each other are one store. -/
theorem patch_patch {m l src : List UInt8} {off : ℕ} (h : off + l.length ≤ m.length) :
    patch (patch m off l) (off + l.length) src = patch m off (l ++ src) := by
  have hlen : (patch m off l).length = m.length := length_patch h
  apply List.ext_getElem?
  intro i
  rw [getElem?_patch (by omega), getElem?_patch (by omega), getElem?_patch (by omega),
    List.length_append]
  by_cases hl : off ≤ i ∧ i < off + l.length
  · have hnot : ¬ (off + l.length ≤ i ∧ i < off + l.length + src.length) := by omega
    have hin : off ≤ i ∧ i < off + (l.length + src.length) := by omega
    rw [if_neg hnot, if_pos hl, if_pos hin, List.getElem?_append_left (by omega)]
  · rw [if_neg hl]
    by_cases hs : off + l.length ≤ i ∧ i < off + l.length + src.length
    · have hin : off ≤ i ∧ i < off + (l.length + src.length) := by omega
      rw [if_pos hs, if_pos hin, List.getElem?_append_right (by omega)]
      congr 1
      omega
    · have hnot : ¬ (off ≤ i ∧ i < off + (l.length + src.length)) := by omega
      rw [if_neg hs, if_neg hnot]

/-- A store into what has just been stored is a store before it. -/
theorem patch_patch_within {m l src : List UInt8} {off pos : ℕ}
    (hoff : off + l.length ≤ m.length) (hpos : pos + src.length ≤ l.length) :
    patch (patch m off l) (off + pos) src = patch m off (patch l pos src) := by
  have hm : (patch m off l).length = m.length := length_patch hoff
  have hl : (patch l pos src).length = l.length := length_patch hpos
  apply List.ext_getElem?
  intro i
  rw [getElem?_patch (by omega), getElem?_patch (by omega), getElem?_patch (by omega), hl]
  by_cases hin : off ≤ i ∧ i < off + l.length
  · rw [if_pos hin, if_pos hin, getElem?_patch (by omega)]
    by_cases hsrc : off + pos ≤ i ∧ i < off + pos + src.length
    · have hsrc' : pos ≤ i - off ∧ i - off < pos + src.length := by omega
      rw [if_pos hsrc, if_pos hsrc']
      congr 1
      omega
    · have hsrc' : ¬ (pos ≤ i - off ∧ i - off < pos + src.length) := by omega
      rw [if_neg hsrc, if_neg hsrc']
  · have hsrc : ¬ (off + pos ≤ i ∧ i < off + pos + src.length) := by omega
    rw [if_neg hin, if_neg hin, if_neg hsrc]

/-- A store into the middle part of a block. -/
theorem patch_append_within (l r : List UInt8) {m src : List UInt8} {off : ℕ}
    (h : off + src.length ≤ m.length) :
    patch (l ++ (m ++ r)) (l.length + off) src = l ++ (patch m off src ++ r) := by
  have htake : (m ++ r).take off = m.take off := List.take_append_of_le_length (by omega)
  have hdrop : (m ++ r).drop (off + src.length) = m.drop (off + src.length) ++ r :=
    List.drop_append_of_le_length h
  rw [patch, List.take_length_add_append, Nat.add_assoc, List.drop_length_add_append, htake,
    hdrop, patch]
  simp

theorem length_flatMap_of_length {α : Type} {l : List α} {g : α → List UInt8} {size : ℕ}
    (hg : ∀ x ∈ l, (g x).length = size) : (l.flatMap g).length = size * l.length := by
  induction l with
  | nil => rfl
  | cons x l ih =>
      rw [List.flatMap_cons, List.length_append, hg x List.mem_cons_self,
        ih fun y hy => hg y (List.mem_cons_of_mem _ hy), List.length_cons, Nat.mul_succ,
        Nat.add_comm]

/-- The `i`-th of the parts of equal length that a block consists of. -/
theorem slice_flatMap {α : Type} {l : List α} {g : α → List UInt8} {size : ℕ}
    (hg : ∀ x ∈ l, (g x).length = size) {i : ℕ} (hi : i < l.length) :
    slice (l.flatMap g) (size * i) size = g l[i] := by
  induction l generalizing i with
  | nil => exact absurd hi (Nat.not_lt_zero i)
  | cons x l ih =>
      have hx := hg x List.mem_cons_self
      rw [List.flatMap_cons]
      cases i with
      | zero =>
          rw [slice, Nat.mul_zero, List.drop_zero, List.take_left' hx]
          rfl
      | succ i =>
          have htail := ih (fun y hy => hg y (List.mem_cons_of_mem _ hy))
            (Nat.lt_of_succ_lt_succ hi)
          rw [slice, Nat.mul_succ, Nat.add_comm, ← List.drop_drop, List.drop_left' hx]
          exact htail

theorem slice_slice (m : List UInt8) {off n pos k : ℕ} (h : pos + k ≤ n) :
    slice (slice m off n) pos k = slice m (off + pos) k := by
  apply List.ext_getElem?
  intro i
  rw [getElem?_slice, getElem?_slice, getElem?_slice]
  by_cases hi : i < k
  · have hin : pos + i < n := by omega
    rw [if_pos hi, if_pos hi, if_pos hin, Nat.add_assoc]
  · rw [if_neg hi, if_neg hi]

namespace Block

@[simp] theorem length_store (b : Block) (off : ℕ) (src : List UInt8) :
    (b.store off src).bytes.length = b.bytes.length := by
  simp only [store, patch, List.length_take, List.length_append, List.length_drop]
  omega

/-- A store that fits. -/
theorem store_of_le {b : Block} {off : ℕ} {src : List UInt8}
    (h : off + src.length ≤ b.bytes.length) :
    b.store off src = { bytes := patch b.bytes off src, overrun := b.overrun } := by
  have hlt : ¬ b.bytes.length < off + src.length := by omega
  rw [store, List.take_of_length_le (Nat.le_of_eq (length_patch h))]
  simp [hlt]

/-- A store replaces what stands between `l` and `r`. -/
theorem store_between {b : Block} {l m r : List UInt8} (hb : b.bytes = l ++ (m ++ r)) (off : ℕ)
    (src : List UInt8) (hoff : off = l.length) (hm : m.length = src.length) :
    b.store off src = { bytes := l ++ (src ++ r), overrun := b.overrun } := by
  have hfits : off + src.length ≤ b.bytes.length := by
    rw [hb, List.length_append, List.length_append]
    omega
  rw [store_of_le hfits, hb, hoff, ← List.append_assoc, patch_append l m r src hm,
    List.append_assoc]

/-- Two stores behind each other, the first at the start, are one store. -/
theorem store_store (b : Block) (l src : List UInt8) :
    (b.store 0 l).store l.length src = b.store 0 (l ++ src) := by
  have hlen : (b.store 0 l).bytes.length = b.bytes.length := length_store b 0 l
  rw [store, hlen]
  simp only [store, List.length_append, Block.mk.injEq]
  constructor
  · by_cases hl : l.length ≤ b.bytes.length
    · have hfit : 0 + l.length ≤ b.bytes.length := by omega
      have hpatch : patch (patch b.bytes 0 l) (0 + l.length) src = patch b.bytes 0 (l ++ src) :=
        patch_patch hfit
      rw [Nat.zero_add] at hpatch
      rw [List.take_of_length_le (Nat.le_of_eq (length_patch hfit)), hpatch]
    · have hcut : (patch b.bytes 0 l).take b.bytes.length = l.take b.bytes.length := by
        rw [patch, List.take_zero, List.nil_append, List.take_append_of_le_length (by omega)]
      have hbehind : patch (l.take b.bytes.length) l.length src =
          l.take b.bytes.length ++ src := by
        rw [patch, List.take_of_length_le, List.drop_eq_nil_of_le, List.append_nil]
        · rw [List.length_take]
          omega
        · rw [List.length_take]
          omega
      have hstart : patch b.bytes 0 (l ++ src) = l ++ (src ++ b.bytes.drop (l ++ src).length) := by
        rw [patch, List.take_zero, List.nil_append, Nat.zero_add, List.append_assoc]
      have hfull : (l.take b.bytes.length).length = b.bytes.length := by
        rw [List.length_take]
        omega
      rw [hcut, hbehind, hstart, List.take_left' hfull, List.take_append_of_le_length (by omega)]
  · rw [Bool.or_assoc]
    congr 1
    rw [Bool.eq_iff_iff]
    simp only [Bool.or_eq_true, decide_eq_true_eq]
    omega

end Block

end Bytes

end EspHosted
