import Mathlib.Data.List.Perm.Basic
import Mathlib.Logic.Function.Basic

/-!
# Counting the tasks at a place of a program

The program counters of any number of tasks are a function `pc : ι → κ`, and a step
of a task is `Function.update` at that task. `Census P pc l` says that `l` lists the
tasks whose counter meets `P`, each once; its length is their number. A step adds the
task to the list, takes it out, or leaves the list as it is.
-/

namespace EspHosted

namespace Tasks

section Census

variable {ι κ : Type*} {P : κ → Prop} {pc : ι → κ} {l : List ι} {i : ι} {k : κ}

/-- `l` lists the tasks at a place that meets `P`, each once. -/
structure Census (P : κ → Prop) (pc : ι → κ) (l : List ι) : Prop where
  nodup : l.Nodup
  mem_iff : ∀ i, i ∈ l ↔ P (pc i)

theorem Census.nil (h : ∀ i, ¬ P (pc i)) : Census P pc [] := by
  constructor
  · exact List.nodup_nil
  · intro i
    exact iff_of_false List.not_mem_nil (h i)

theorem Census.eq_nil_iff (h : Census P pc l) : l = [] ↔ ∀ i, ¬ P (pc i) := by
  rw [List.eq_nil_iff_forall_not_mem]
  constructor
  · intro hl i hi
    exact hl i ((h.mem_iff i).2 hi)
  · intro hp i hi
    exact hp i ((h.mem_iff i).1 hi)

variable [DecidableEq ι]

/-- A task that stays on its side of `P` leaves the list as it is. -/
theorem Census.stay (h : Census P pc l) (hk : P k ↔ P (pc i)) :
    Census P (Function.update pc i k) l := by
  constructor
  · exact h.nodup
  · intro j
    rw [h.mem_iff j]
    by_cases hji : j = i
    · subst hji
      rw [Function.update_self]
      exact hk.symm
    · rw [Function.update_of_ne hji]

theorem Census.enter (h : Census P pc l) (hi : ¬ P (pc i)) (hk : P k) :
    Census P (Function.update pc i k) (i :: l) := by
  constructor
  · refine List.nodup_cons.2 ⟨?_, h.nodup⟩
    rw [h.mem_iff i]
    exact hi
  · intro j
    rw [List.mem_cons, h.mem_iff j]
    by_cases hji : j = i
    · subst hji
      rw [Function.update_self]
      exact iff_of_true (Or.inl rfl) hk
    · rw [Function.update_of_ne hji]
      exact or_iff_right hji

theorem Census.leave (h : Census P pc l) (hk : ¬ P k) :
    Census P (Function.update pc i k) (l.erase i) := by
  constructor
  · exact h.nodup.erase i
  · intro j
    rw [h.nodup.mem_erase_iff, h.mem_iff j]
    by_cases hji : j = i
    · subst hji
      rw [Function.update_self]
      exact iff_of_false (fun hj => hj.1 rfl) hk
    · rw [Function.update_of_ne hji]
      exact and_iff_right hji

/-- Leaving takes one task off the number. -/
theorem Census.length_leave (h : Census P pc l) (hi : P (pc i)) :
    (l.erase i).length + 1 = l.length := by
  have hmem : i ∈ l := (h.mem_iff i).2 hi
  rw [List.length_erase_of_mem hmem]
  exact Nat.sub_add_cancel (List.length_pos_of_mem hmem)

end Census

end Tasks

end EspHosted
