import Mathlib.Algebra.GroupWithZero.Nat
import Mathlib.Data.List.Basic

/-!
# Bytes in memory

Blocks of memory are lists of bytes. `byteSum` adds the bytes of a block without
wrapping, and the lemmas bound it and follow it through a store. `le16` reads
two bytes as a little-endian halfword, `lowByte` and `highByte` are the bytes
that store one, and `patch` overwrites a part of a block, which is what `memcpy`
and the assignment of a field do. A `Block` remembers whether something was stored
behind its end.
-/

namespace EspHosted

namespace Bytes

/-! ## Sums of bytes -/

/-- The sum of the bytes of a block, in the natural numbers. -/
def byteSum (l : List UInt8) : ℕ := (l.map UInt8.toNat).sum

@[simp] theorem byteSum_nil : byteSum [] = 0 := rfl

@[simp] theorem byteSum_cons (b : UInt8) (l : List UInt8) :
    byteSum (b :: l) = b.toNat + byteSum l := by
  simp [byteSum]

@[simp] theorem byteSum_append (l m : List UInt8) :
    byteSum (l ++ m) = byteSum l + byteSum m := by
  simp [byteSum]

@[simp] theorem byteSum_replicate_zero (n : ℕ) :
    byteSum (List.replicate n 0) = 0 := by
  simp [byteSum]

/-- A byte is at most 255, so a block of `n` bytes sums to at most `255 * n`. -/
theorem byteSum_le (l : List UInt8) : byteSum l ≤ 255 * l.length := by
  induction l with
  | nil => simp
  | cons b l ih =>
      have hb : b.toNat < 256 := b.toNat_lt
      rw [byteSum_cons, List.length_cons]
      omega

/-- Storing `v` at position `p` replaces one summand. -/
theorem byteSum_set (l : List UInt8) (p : ℕ) (v : UInt8) (hp : p < l.length) :
    byteSum (l.set p v) + l[p].toNat = byteSum l + v.toNat := by
  induction l generalizing p with
  | nil => exact absurd hp (Nat.not_lt_zero p)
  | cons b l ih =>
      cases p with
      | zero =>
          simp only [List.set_cons_zero, byteSum_cons, List.getElem_cons_zero]
          omega
      | succ p =>
          have hp' : p < l.length := Nat.lt_of_succ_lt_succ hp
          have h := ih p hp'
          simp only [List.set_cons_succ, byteSum_cons, List.getElem_cons_succ]
          omega

theorem byteSum_take_add_drop (l : List UInt8) (n : ℕ) :
    byteSum (l.take n) + byteSum (l.drop n) = byteSum l := by
  rw [← byteSum_append, List.take_append_drop]

/-! ## Little-endian halfwords -/

/-- The halfword stored as `lo`, `hi` on a little-endian machine. -/
def le16 (lo hi : UInt8) : UInt16 := UInt16.ofNat (lo.toNat + 256 * hi.toNat)

/-- The byte of a halfword at the lower address. -/
def lowByte (x : UInt16) : UInt8 := UInt8.ofNat (x.toNat % 256)

/-- The byte of a halfword at the higher address. -/
def highByte (x : UInt16) : UInt8 := UInt8.ofNat (x.toNat / 256)

@[simp] theorem toNat_le16 (lo hi : UInt8) :
    (le16 lo hi).toNat = lo.toNat + 256 * hi.toNat := by
  have hl : lo.toNat < 256 := lo.toNat_lt
  have hh : hi.toNat < 256 := hi.toNat_lt
  rw [le16, UInt16.toNat_ofNat']
  omega

@[simp] theorem toNat_lowByte (x : UInt16) : (lowByte x).toNat = x.toNat % 256 := by
  rw [lowByte, UInt8.toNat_ofNat']
  omega

@[simp] theorem toNat_highByte (x : UInt16) : (highByte x).toNat = x.toNat / 256 := by
  have hx : x.toNat < 65536 := x.toNat_lt
  rw [highByte, UInt8.toNat_ofNat']
  omega

@[simp] theorem le16_lowByte_highByte (x : UInt16) :
    le16 (lowByte x) (highByte x) = x := by
  rw [← UInt16.toNat_inj, toNat_le16, toNat_lowByte, toNat_highByte]
  omega

@[simp] theorem lowByte_le16 (lo hi : UInt8) : lowByte (le16 lo hi) = lo := by
  have hl : lo.toNat < 256 := lo.toNat_lt
  rw [← UInt8.toNat_inj, toNat_lowByte, toNat_le16]
  omega

@[simp] theorem highByte_le16 (lo hi : UInt8) : highByte (le16 lo hi) = hi := by
  have hl : lo.toNat < 256 := lo.toNat_lt
  rw [← UInt8.toNat_inj, toNat_highByte, toNat_le16]
  omega

theorem le16_eq_iff (lo hi : UInt8) (x : UInt16) :
    le16 lo hi = x ↔ lo = lowByte x ∧ hi = highByte x := by
  constructor
  · intro h
    rw [← h, lowByte_le16, highByte_le16]
    exact ⟨rfl, rfl⟩
  · intro h
    rw [h.1, h.2, le16_lowByte_highByte]

/-- Changing the low byte of a halfword changes the halfword. -/
theorem le16_highByte_ne {x : UInt16} {v : UInt8} (h : v ≠ lowByte x) :
    le16 v (highByte x) ≠ x := by
  intro heq
  exact h ((le16_eq_iff _ _ x).1 heq).1

/-- Changing the high byte of a halfword changes the halfword. -/
theorem le16_lowByte_ne {x : UInt16} {v : UInt8} (h : v ≠ highByte x) :
    le16 (lowByte x) v ≠ x := by
  intro heq
  exact h ((le16_eq_iff _ _ x).1 heq).2

/-! ## Stores -/

/-- The block after `src` has been copied to offset `off`. -/
def patch (buf : List UInt8) (off : ℕ) (src : List UInt8) : List UInt8 :=
  buf.take off ++ src ++ buf.drop (off + src.length)

theorem length_patch {buf src : List UInt8} {off : ℕ}
    (h : off + src.length ≤ buf.length) :
    (patch buf off src).length = buf.length := by
  simp only [patch, List.length_append, List.length_take, List.length_drop]
  omega

/-- A store between a part `l` that ends at its offset and a part `r` replaces
exactly what stands between them. -/
theorem patch_append (l m r src : List UInt8) (hm : m.length = src.length) :
    patch (l ++ m ++ r) l.length src = l ++ src ++ r := by
  have htake : (l ++ m ++ r).take l.length = l := by simp
  have hdrop : (l ++ m ++ r).drop (l.length + src.length) = r := by
    rw [← hm, ← List.length_append]
    exact List.drop_left
  rw [patch, htake, hdrop]

/-- A store at the start of a block filled with one byte. -/
theorem patch_replicate (n : ℕ) (x : UInt8) (src : List UInt8) :
    patch (List.replicate n x) 0 src = src ++ List.replicate (n - src.length) x := by
  rw [patch, List.take_zero, List.nil_append, Nat.zero_add, List.drop_replicate]

/-- A store behind a part `l` into a block filled with one byte. -/
theorem patch_append_replicate (l src : List UInt8) (n : ℕ) (x : UInt8)
    (h : src.length ≤ n) :
    patch (l ++ List.replicate n x) l.length src =
      l ++ (src ++ List.replicate (n - src.length) x) := by
  have hsplit : List.replicate n x =
      List.replicate src.length x ++ List.replicate (n - src.length) x := by
    rw [List.replicate_append_replicate, Nat.add_sub_cancel' h]
  rw [hsplit, ← List.append_assoc, ← List.append_assoc]
  exact patch_append _ _ _ _ (by rw [List.length_replicate])

/-! ## Blocks with an end -/

structure Block where
  bytes : List UInt8
  overrun : Bool
  deriving DecidableEq

namespace Block

def calloc (size : ℕ) : Block where
  bytes := List.replicate size 0
  overrun := false

/-- A store at offset `off`. What falls behind the end is not part of the block
any more, and `overrun` stays set from then on. -/
def store (b : Block) (off : ℕ) (src : List UInt8) : Block where
  bytes := (patch b.bytes off src).take b.bytes.length
  overrun := b.overrun || decide (b.bytes.length < off + src.length)

/-- The block after its first store, at its start. -/
theorem calloc_store_zero (n : ℕ) (src : List UInt8) :
    (calloc n).store 0 src =
      { bytes := (src ++ List.replicate (n - src.length) 0).take n
        overrun := decide (n < src.length) } := by
  simp [store, calloc, patch_replicate]

/-- A store at the start that fits leaves the rest cleared. -/
theorem calloc_store_of_le {n : ℕ} {src : List UInt8} (h : src.length ≤ n) :
    (calloc n).store 0 src =
      { bytes := src ++ List.replicate (n - src.length) 0, overrun := false } := by
  rw [calloc_store_zero, List.take_of_length_le]
  · simp only [Block.mk.injEq, true_and, decide_eq_false_iff_not]
    omega
  · rw [List.length_append, List.length_replicate]
    omega

end Block

end Bytes

end EspHosted
