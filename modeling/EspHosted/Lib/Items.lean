import Mathlib.Data.List.Basic
import Mathlib.Data.Nat.Notation

/-!
# Reading an input item by item

`readAll item` reads items from the head of an input until nothing is left. A reader of
one item may carry a state from item to item. The number of turns is bounded by a
budget; a reader that takes at least one byte for an item never reaches a bound that is
the length of the input.
-/

namespace EspHosted

namespace Items

variable {σ α : Type}

/-- The items of an input, when it ends with one of them. -/
def readAll (item : σ → List UInt8 → Option (α × σ × List UInt8)) :
    ℕ → σ → List UInt8 → Option (List α)
  | 0, _, input => if input.isEmpty then some [] else none
  | budget + 1, s, input =>
      if input.isEmpty then
        some []
      else
        (item s input).bind fun r => (readAll item budget r.2.1 r.2.2).map (r.1 :: ·)

/-- Every item takes at least `k` bytes. -/
def Takes (k : ℕ) (item : σ → List UInt8 → Option (α × σ × List UInt8)) : Prop :=
  ∀ s input a s' rest, item s input = some (a, s', rest) → rest.length + k ≤ input.length

variable {item : σ → List UInt8 → Option (α × σ × List UInt8)}

@[simp] theorem readAll_nil (budget : ℕ) (s : σ) : readAll item budget s [] = some [] := by
  cases budget <;> rfl

theorem readAll_succ {input : List UInt8} (h : input ≠ []) (budget : ℕ) (s : σ) :
    readAll item (budget + 1) s input =
      (item s input).bind fun r => (readAll item budget r.2.1 r.2.2).map (r.1 :: ·) := by
  rw [readAll, if_neg (by simpa using h)]

/-- A budget of the length of the input is as good as any larger one. -/
theorem readAll_budget (hitem : Takes 1 item) {budget : ℕ} {s : σ} {input : List UInt8}
    (h : input.length ≤ budget) :
    readAll item budget s input = readAll item input.length s input := by
  induction hn : input.length using Nat.strongRecOn generalizing budget s input with
  | ind n ih =>
      subst hn
      by_cases hinput : input = []
      · simp [hinput]
      obtain ⟨k, hk⟩ : ∃ k, input.length = k + 1 :=
        ⟨input.length - 1, by have := List.length_pos_iff.2 hinput; omega⟩
      obtain ⟨budget, rfl⟩ : ∃ b, budget = b + 1 := ⟨budget - 1, by omega⟩
      rw [hk, readAll_succ hinput, readAll_succ hinput]
      cases hr : item s input with
      | none => rfl
      | some r =>
          have htakes := hitem s input r.1 r.2.1 r.2.2 hr
          simp only [Option.bind_some]
          rw [ih r.2.2.length (by omega) (by omega) rfl,
            ih r.2.2.length (by omega) (by omega : r.2.2.length ≤ k) rfl]

/-- The texts of items in a row are read as these items, when the state between them stays
one in which the reader knows the text of each. -/
theorem readAll_flatMap {P : σ → Prop} {text : α → List UInt8} {xs : List α}
    (hitem : Takes 1 item)
    (hread : ∀ x ∈ xs, ∀ s, P s → ∀ rest,
      ∃ s', P s' ∧ item s (text x ++ rest) = some (x, s', rest))
    {s : σ} (hs : P s) :
    readAll item (xs.flatMap text).length s (xs.flatMap text) = some xs := by
  induction xs generalizing s with
  | nil => rfl
  | cons x xs ih =>
      obtain ⟨s', hs', hx⟩ := hread x List.mem_cons_self s hs (xs.flatMap text)
      have htakes := hitem _ _ _ _ _ hx
      rw [List.flatMap_cons]
      have hne : text x ++ xs.flatMap text ≠ [] := by
        intro hnil
        rw [hnil] at htakes
        simp at htakes
      obtain ⟨k, hk⟩ : ∃ k, (text x ++ xs.flatMap text).length = k + 1 :=
        ⟨_, (Nat.sub_add_cancel (List.length_pos_iff.2 hne)).symm⟩
      have hrest := ih (fun y hy => hread y (List.mem_cons_of_mem x hy)) hs'
      rw [hk, readAll_succ hne, hx]
      simp only [Option.bind_some]
      rw [readAll_budget hitem (by omega), hrest]
      rfl

/-- Two readers whose states stay related read the same. -/
theorem readAll_eq {τ : Type} {item' : τ → List UInt8 → Option (α × τ × List UInt8)}
    {R : σ → τ → Prop}
    (hitem : ∀ s t input, R s t →
      item s input = none ∧ item' t input = none ∨
      ∃ a s' t' rest, item s input = some (a, s', rest) ∧ item' t input = some (a, t', rest) ∧
        R s' t')
    (budget : ℕ) {s : σ} {t : τ} (hst : R s t) (input : List UInt8) :
    readAll item budget s input = readAll item' budget t input := by
  induction budget generalizing s t input with
  | zero => rfl
  | succ budget ih =>
      by_cases hinput : input = []
      · rw [hinput, readAll_nil, readAll_nil]
      · rw [readAll_succ hinput, readAll_succ hinput]
        rcases hitem s t input hst with ⟨hnone, hnone'⟩ | ⟨a, s', t', rest, hs, ht, hst'⟩
        · rw [hnone, hnone']
          rfl
        · rw [hs, ht, Option.bind_some, Option.bind_some, ih hst' rest]

/-- What holds of every item that is read in a state with `P`, where `P` stays, holds of
all items of an input. -/
theorem forall_of_readAll {P : σ → Prop} {Q : α → Prop}
    (hread : ∀ s input a s' rest, P s → item s input = some (a, s', rest) → Q a ∧ P s')
    {budget : ℕ} {s : σ} {input : List UInt8} {xs : List α} (hs : P s)
    (h : readAll item budget s input = some xs) : ∀ x ∈ xs, Q x := by
  induction budget generalizing s input xs with
  | zero =>
      rw [readAll] at h
      split at h <;> cases h
      exact List.forall_mem_nil _
  | succ budget ih =>
      rw [readAll] at h
      split at h
      · cases h
        exact List.forall_mem_nil _
      obtain ⟨r, hr, h⟩ := Option.bind_eq_some_iff.1 h
      obtain ⟨ys, hys, rfl⟩ := Option.map_eq_some_iff.1 h
      obtain ⟨hq, hp⟩ := hread s input r.1 r.2.1 r.2.2 hs hr
      exact List.forall_mem_cons.2 ⟨hq, ih hp hys⟩

/-- An input is long enough for its items. -/
theorem length_le_of_readAll {k : ℕ} (hitem : Takes k item) {budget : ℕ} {s : σ}
    {input : List UInt8} {xs : List α} (h : readAll item budget s input = some xs) :
    k * xs.length ≤ input.length := by
  induction budget generalizing s input xs with
  | zero =>
      rw [readAll] at h
      split at h <;> cases h
      simp
  | succ budget ih =>
      rw [readAll] at h
      split at h
      · cases h
        simp
      obtain ⟨r, hr, h⟩ := Option.bind_eq_some_iff.1 h
      obtain ⟨ys, hys, rfl⟩ := Option.map_eq_some_iff.1 h
      have htakes := hitem s input r.1 r.2.1 r.2.2 hr
      have := ih hys
      rw [List.length_cons, Nat.mul_add]
      omega

end Items

end EspHosted
