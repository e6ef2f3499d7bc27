import Mathlib.Algebra.Order.BigOperators.Group.List
import Mathlib.Algebra.Order.Ring.Nat
import Mathlib.Data.List.DropRight

/-!
# The least and the greatest number so far

A running minimum and a running maximum of natural numbers in which `0` stands for a value
that was not set yet. A sample of `0` unsets the minimum again, so it is the least of the
samples since the last `0`; the maximum is not affected.
-/

namespace EspHosted

namespace Sample

/-- `if (least == 0 || least > t) least = t` -/
def recordLeast (least t : ℕ) : ℕ := if least = 0 ∨ least > t then t else least

/-- `if (greatest == 0 || greatest < t) greatest = t` -/
def recordGreatest (greatest t : ℕ) : ℕ := if greatest = 0 ∨ greatest < t then t else greatest

def least (ts : List ℕ) : ℕ := ts.foldl recordLeast 0

def greatest (ts : List ℕ) : ℕ := ts.foldl recordGreatest 0

/-- The samples since the last `0`. -/
def sinceZero (ts : List ℕ) : List ℕ := ts.rtakeWhile fun t => t ≠ 0

theorem least_concat (ts : List ℕ) (t : ℕ) : least (ts ++ [t]) = recordLeast (least ts) t := by
  rw [least, least, List.foldl_append]
  rfl

theorem greatest_concat (ts : List ℕ) (t : ℕ) :
    greatest (ts ++ [t]) = recordGreatest (greatest ts) t := by
  rw [greatest, greatest, List.foldl_append]
  rfl

theorem sinceZero_concat_zero (ts : List ℕ) : sinceZero (ts ++ [0]) = [] :=
  List.rtakeWhile_concat_neg _ _ _ (by simp)

theorem sinceZero_concat {t : ℕ} (h : t ≠ 0) (ts : List ℕ) :
    sinceZero (ts ++ [t]) = sinceZero ts ++ [t] :=
  List.rtakeWhile_concat_pos _ _ _ (by simp [h])

/-- The running minimum is the least sample since the last `0`. -/
theorem least_spec (ts : List ℕ) :
    (sinceZero ts = [] ∧ least ts = 0) ∨
      (least ts ≠ 0 ∧ least ts ∈ sinceZero ts ∧ ∀ t ∈ sinceZero ts, least ts ≤ t) := by
  induction ts using List.reverseRecOn with
  | nil => exact Or.inl ⟨rfl, rfl⟩
  | append_singleton ts t ih =>
      rw [least_concat, recordLeast]
      by_cases ht : t = 0
      · rw [ht, sinceZero_concat_zero]
        refine Or.inl ⟨rfl, ?_⟩
        split
        · rfl
        · omega
      · rw [sinceZero_concat ht]
        refine Or.inr ?_
        rcases ih with ⟨hnone, hzero⟩ | ⟨hne, hmem, hle⟩
        · rw [hnone, hzero, if_pos (Or.inl rfl)]
          simp [ht]
        · by_cases hlt : least ts > t
          · rw [if_pos (Or.inr hlt)]
            refine ⟨ht, List.mem_append_right _ (List.mem_singleton.2 rfl), ?_⟩
            intro u hu
            rcases List.mem_append.1 hu with hu | hu
            · exact Nat.le_of_lt (Nat.lt_of_lt_of_le hlt (hle u hu))
            · exact Nat.le_of_eq (List.mem_singleton.1 hu).symm
          · rw [if_neg (not_or.2 ⟨hne, hlt⟩)]
            refine ⟨hne, List.mem_append_left _ hmem, ?_⟩
            intro u hu
            rcases List.mem_append.1 hu with hu | hu
            · exact hle u hu
            · rw [List.mem_singleton.1 hu]
              exact Nat.not_lt.1 hlt

/-- The minimum is small enough when one of its samples is. -/
theorem least_mul_le_iff (ts : List ℕ) (n total : ℕ) :
    least ts * n ≤ total ↔ sinceZero ts = [] ∨ ∃ t ∈ sinceZero ts, t * n ≤ total := by
  rcases least_spec ts with ⟨hnone, hzero⟩ | ⟨-, hmem, hle⟩
  · rw [hzero, Nat.zero_mul]
    exact iff_of_true (Nat.zero_le _) (Or.inl hnone)
  · rw [or_iff_right (List.ne_nil_of_mem hmem)]
    constructor
    · intro h
      exact ⟨_, hmem, h⟩
    · rintro ⟨t, ht, h⟩
      exact Nat.le_trans (Nat.mul_le_mul_right n (hle t ht)) h

theorem le_greatest (ts : List ℕ) : ∀ t ∈ ts, t ≤ greatest ts := by
  induction ts using List.reverseRecOn with
  | nil => exact fun t ht => absurd ht List.not_mem_nil
  | append_singleton ts t ih =>
      intro u hu
      rw [greatest_concat, recordGreatest]
      rcases List.mem_append.1 hu with hu | hu
      · have hle := ih u hu
        split
        · omega
        · exact hle
      · rw [List.mem_singleton.1 hu]
        split
        · exact Nat.le_refl _
        · omega

/-- Spread over at least as many, the samples do not exceed their maximum. -/
theorem sum_div_le_greatest {ts : List ℕ} {n : ℕ} (h : ts.length ≤ n) :
    ts.sum / n ≤ greatest ts := by
  have hsum : ts.sum ≤ ts.length * greatest ts :=
    List.sum_le_card_nsmul ts (greatest ts) (le_greatest ts)
  have hle : ts.sum ≤ greatest ts * n := by
    calc
      ts.sum ≤ ts.length * greatest ts := hsum
      _ ≤ n * greatest ts := Nat.mul_le_mul_right _ h
      _ = greatest ts * n := Nat.mul_comm _ _
  exact Nat.div_le_of_le_mul (Nat.mul_comm _ _ ▸ hle)

end Sample

end EspHosted
