import Mathlib.Data.Int.Notation
import Mathlib.Data.List.Basic
import Mathlib.Data.Nat.Notation
import Mathlib.Order.Basic
import Mathlib.Tactic.ByContra

/-!
# The field of a number

The numbers of the fields of a message come in blocks of consecutive ones. The generated
table of a message has one entry for each block, its first number and the index of its
first field, and one more entry with the number of fields. `int_range_lookup` finds the
block of a number by halving.
-/

namespace EspHosted

namespace Protobuf

structure IntRange where
  startValue : ℤ
  origIndex : ℕ
  deriving DecidableEq, Repr

def rangeAt (ranges : List IntRange) (k : ℕ) : IntRange := ranges.getD k ⟨0, 0⟩

/-- The number of fields of a block. -/
def blockSize (ranges : List IntRange) (k : ℕ) : ℕ :=
  (rangeAt ranges (k + 1)).origIndex - (rangeAt ranges k).origIndex

/-- What is left of the search at one block, or none. -/
def rangeLast (ranges : List IntRange) (value : ℤ) (start n : ℕ) : Option ℕ :=
  if 0 < n then
    if (rangeAt ranges start).startValue ≤ value ∧
        value < (rangeAt ranges start).startValue + blockSize ranges start then
      some ((value - (rangeAt ranges start).startValue).toNat + (rangeAt ranges start).origIndex)
    else
      none
  else
    none

/-- The loop over `n` blocks from `start` on; it halves `n`, so `n` turns are enough. -/
def rangeSearch (ranges : List IntRange) (value : ℤ) : (budget start n : ℕ) → Option ℕ
  | 0, start, n => rangeLast ranges value start n
  | budget + 1, start, n =>
      if 1 < n then
        let mid := start + n / 2
        if value < (rangeAt ranges mid).startValue then
          rangeSearch ranges value budget start (mid - start)
        else if (rangeAt ranges mid).startValue + blockSize ranges mid ≤ value then
          rangeSearch ranges value budget (mid + 1) (start + n - (mid + 1))
        else
          some ((value - (rangeAt ranges mid).startValue).toNat + (rangeAt ranges mid).origIndex)
      else
        rangeLast ranges value start n

/-- `none` where the source returns -1. -/
def intRangeLookup (nRanges : ℕ) (ranges : List IntRange) (value : ℤ) : Option ℕ :=
  if nRanges = 0 then none else rangeSearch ranges value nRanges 0 nRanges

/-! ## Tables -/

/-- The table describes the fields with these numbers. -/
structure Describes (nRanges : ℕ) (ranges : List IntRange) (ids : List ℕ) : Prop where
  first : (rangeAt ranges 0).origIndex = 0
  last : (rangeAt ranges nRanges).origIndex = ids.length
  nonempty : ∀ k < nRanges, (rangeAt ranges k).origIndex < (rangeAt ranges (k + 1)).origIndex
  consecutive : ∀ k < nRanges, ∀ j < blockSize ranges k,
    ((ids.getD ((rangeAt ranges k).origIndex + j) 0 : ℕ) : ℤ) = (rangeAt ranges k).startValue + j
  apart : ∀ k < nRanges - 1,
    (rangeAt ranges k).startValue + blockSize ranges k ≤ (rangeAt ranges (k + 1)).startValue

instance (nRanges : ℕ) (ranges : List IntRange) (ids : List ℕ) :
    Decidable (Describes nRanges ranges ids) :=
  decidable_of_iff
    ((rangeAt ranges 0).origIndex = 0 ∧
      (rangeAt ranges nRanges).origIndex = ids.length ∧
      (∀ k < nRanges, (rangeAt ranges k).origIndex < (rangeAt ranges (k + 1)).origIndex) ∧
      (∀ k < nRanges, ∀ j < blockSize ranges k,
        ((ids.getD ((rangeAt ranges k).origIndex + j) 0 : ℕ) : ℤ) =
          (rangeAt ranges k).startValue + j) ∧
      ∀ k < nRanges - 1,
        (rangeAt ranges k).startValue + blockSize ranges k ≤ (rangeAt ranges (k + 1)).startValue)
    ⟨fun ⟨h₁, h₂, h₃, h₄, h₅⟩ => ⟨h₁, h₂, h₃, h₄, h₅⟩,
      fun ⟨h₁, h₂, h₃, h₄, h₅⟩ => ⟨h₁, h₂, h₃, h₄, h₅⟩⟩

/-- The number lies in the block `k`. -/
def InBlock (ranges : List IntRange) (value : ℤ) (k : ℕ) : Prop :=
  (rangeAt ranges k).startValue ≤ value ∧
    value < (rangeAt ranges k).startValue + blockSize ranges k

/-- The index of the field that the block `k` gives a number. -/
def indexIn (ranges : List IntRange) (value : ℤ) (k : ℕ) : ℕ :=
  (value - (rangeAt ranges k).startValue).toNat + (rangeAt ranges k).origIndex

section Search

variable {nRanges : ℕ} {ranges : List IntRange} {ids : List ℕ} {value : ℤ}

/-- A later block starts behind an earlier one. -/
theorem Describes.start_le (h : Describes nRanges ranges ids) {k j : ℕ} (hkj : k < j)
    (hj : j < nRanges) :
    (rangeAt ranges k).startValue + blockSize ranges k ≤ (rangeAt ranges j).startValue := by
  induction j with
  | zero => omega
  | succ j ih =>
      have hnext := h.apart j (by omega)
      rcases Nat.lt_or_ge k j with hlt | hge
      · have hprev := ih hlt (by omega)
        omega
      · obtain rfl : k = j := by omega
        exact hnext

theorem Describes.inBlock_unique (h : Describes nRanges ranges ids) {k j : ℕ}
    (hk : k < nRanges) (hj : j < nRanges) (hvk : InBlock ranges value k)
    (hvj : InBlock ranges value j) : k = j := by
  obtain ⟨hk₁, hk₂⟩ := hvk
  obtain ⟨hj₁, hj₂⟩ := hvj
  rcases Nat.lt_trichotomy k j with hlt | heq | hlt
  · have := h.start_le hlt hj
    omega
  · exact heq
  · have := h.start_le hlt hk
    omega

theorem rangeLast_eq_some_iff {start n i : ℕ} (hn : n ≤ 1)
    (hin : ∀ k < nRanges, InBlock ranges value k → start ≤ k ∧ k < start + n)
    (hbound : start + n ≤ nRanges) :
    rangeLast ranges value start n = some i ↔
      ∃ k < nRanges, InBlock ranges value k ∧ i = indexIn ranges value k := by
  rw [rangeLast]
  constructor
  · intro h
    split at h
    · split at h
      · rename_i hpos hblock
        cases h
        exact ⟨start, by omega, hblock, rfl⟩
      · cases h
    · cases h
  · rintro ⟨k, hk, hblock, rfl⟩
    obtain ⟨hlo, hhi⟩ := hin k hk hblock
    obtain rfl : k = start := by omega
    rw [if_pos (by omega), if_pos (show _ ∧ _ from hblock)]
    rfl

/-- The block of a number stays among the `n` blocks from `start` on. -/
theorem rangeSearch_eq_some_iff (h : Describes nRanges ranges ids) {budget start n i : ℕ}
    (hn : n ≤ budget) (hbound : start + n ≤ nRanges)
    (hin : ∀ k < nRanges, InBlock ranges value k → start ≤ k ∧ k < start + n) :
    rangeSearch ranges value budget start n = some i ↔
      ∃ k < nRanges, InBlock ranges value k ∧ i = indexIn ranges value k := by
  induction budget generalizing start n with
  | zero => exact rangeLast_eq_some_iff (by omega) hin hbound
  | succ budget ih =>
      rw [rangeSearch]
      by_cases hone : 1 < n
      · rw [if_pos hone]
        simp only
        generalize hmid : start + n / 2 = mid
        by_cases hless : value < (rangeAt ranges mid).startValue
        · rw [if_pos hless]
          refine ih (by omega) (by omega) fun k hk hblock => ?_
          obtain ⟨hlo, -⟩ := hin k hk hblock
          have hkmid : k < mid := by
            by_contra hge
            have hstart := hblock.1
            rcases Nat.lt_or_ge mid k with hlt | hle
            · have := h.start_le hlt hk
              omega
            · obtain rfl : k = mid := by omega
              omega
          omega
        · rw [if_neg hless]
          by_cases hmore : (rangeAt ranges mid).startValue + blockSize ranges mid ≤ value
          · rw [if_pos hmore]
            refine ih (by omega) (by omega) fun k hk hblock => ?_
            obtain ⟨-, hhi⟩ := hin k hk hblock
            have hkmid : mid < k := by
              by_contra hge
              have hend := hblock.2
              rcases Nat.lt_or_ge k mid with hlt | hle
              · have := h.start_le hlt (by omega : mid < nRanges)
                omega
              · obtain rfl : k = mid := by omega
                omega
            omega
          · rw [if_neg hmore]
            have hblock : InBlock ranges value mid := ⟨by omega, by omega⟩
            constructor
            · intro hi
              cases hi
              exact ⟨mid, by omega, hblock, rfl⟩
            · rintro ⟨k, hk, hk', rfl⟩
              obtain rfl := h.inBlock_unique hk (by omega) hk' hblock
              rfl
      · rw [if_neg hone]
        exact rangeLast_eq_some_iff (by omega) hin hbound

/-- Every field lies in a block. -/
theorem Describes.exists_block (h : Describes nRanges ranges ids) {i : ℕ}
    (hi : i < ids.length) :
    ∃ k < nRanges, (rangeAt ranges k).origIndex ≤ i ∧
      i < (rangeAt ranges (k + 1)).origIndex := by
  by_contra hnone
  have hall : ∀ k ≤ nRanges, (rangeAt ranges k).origIndex ≤ i := by
    intro k
    induction k with
    | zero =>
        intro _
        rw [h.first]
        exact Nat.zero_le i
    | succ k ih =>
        intro hk
        by_contra hlt
        exact hnone ⟨k, by omega, ih (by omega), by omega⟩
  have := hall nRanges (Nat.le_refl _)
  rw [h.last] at this
  omega

theorem Describes.origIndex_le (h : Describes nRanges ranges ids) {k d : ℕ}
    (hk : k + d ≤ nRanges) :
    (rangeAt ranges k).origIndex ≤ (rangeAt ranges (k + d)).origIndex := by
  induction d with
  | zero => exact Nat.le_refl _
  | succ d ih =>
      have hnext := h.nonempty (k + d) (by omega)
      have hprev := ih (by omega)
      rw [← Nat.add_assoc]
      omega

/-- The search finds the field with the number, and only that one. -/
theorem Describes.intRangeLookup_eq_some_iff (h : Describes nRanges ranges ids) (i : ℕ) :
    intRangeLookup nRanges ranges value = some i ↔
      i < ids.length ∧ ((ids.getD i 0 : ℕ) : ℤ) = value := by
  have hsearch : intRangeLookup nRanges ranges value = some i ↔
      ∃ k < nRanges, InBlock ranges value k ∧ i = indexIn ranges value k := by
    rw [intRangeLookup]
    split
    · rename_i hzero
      constructor
      · intro hnone
        cases hnone
      · rintro ⟨k, hk, -⟩
        omega
    · exact rangeSearch_eq_some_iff h (Nat.le_refl _) (by omega) fun k hk _ => by omega
  rw [hsearch]
  constructor
  · rintro ⟨k, hk, ⟨hlo, hhi⟩, rfl⟩
    have hoff : (value - (rangeAt ranges k).startValue).toNat < blockSize ranges k := by omega
    have hid := h.consecutive k hk _ hoff
    have hsize : blockSize ranges k =
        (rangeAt ranges (k + 1)).origIndex - (rangeAt ranges k).origIndex := rfl
    obtain ⟨d, hd⟩ := Nat.exists_eq_add_of_le (Nat.succ_le_of_lt hk)
    have hle := h.origIndex_le (k := k + 1) (d := d) (by omega)
    rw [← hd, h.last] at hle
    rw [indexIn, Nat.add_comm]
    exact ⟨by omega, by omega⟩
  · rintro ⟨hi, rfl⟩
    obtain ⟨k, hk, hlo, hhi⟩ := h.exists_block hi
    have hsize : blockSize ranges k =
        (rangeAt ranges (k + 1)).origIndex - (rangeAt ranges k).origIndex := rfl
    have hid := h.consecutive k hk (i - (rangeAt ranges k).origIndex) (by omega)
    rw [Nat.add_sub_cancel' hlo] at hid
    refine ⟨k, hk, ⟨by omega, by omega⟩, ?_⟩
    rw [indexIn, hid]
    omega

end Search

end Protobuf

end EspHosted
