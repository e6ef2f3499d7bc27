import Mathlib.Data.List.Count
import Mathlib.Data.List.Perm.Basic
import Mathlib.Data.Fintype.Defs

/-!
# A ledger of heap blocks

Blocks are abstract tokens, and a program leaves a log of what it does with
them. A log is settled when every block in it was allocated once and freed once.
Only the number of the entries counts, so the order in which two programs write
to the same log does not matter.

A block may also live on with an owner that the program handed it to; then the log is
accounted for.
-/

namespace EspHosted

namespace Ledger

inductive HeapEvent (τ : Type*) where
  | alloc (b : τ)
  | handOver (b : τ)
  | free (b : τ)
  deriving DecidableEq

section Settled

variable {τ : Type*} [DecidableEq τ]

/-- Every block is freed as often as it is allocated, which is at most once. -/
def Settled (log : List (HeapEvent τ)) : Prop :=
  ∀ b, log.count (.free b) = log.count (.alloc b) ∧ log.count (.alloc b) ≤ 1

instance [Fintype τ] (log : List (HeapEvent τ)) : Decidable (Settled log) := by
  unfold Settled
  infer_instance

/-- One block whose numbers differ is enough. -/
theorem not_settled_of_count_ne {log : List (HeapEvent τ)} (b : τ)
    (h : log.count (.free b) ≠ log.count (.alloc b)) : ¬ Settled log := by
  intro hsettled
  exact h (hsettled b).1

theorem settled_of_perm {log log' : List (HeapEvent τ)} (h : log.Perm log') :
    Settled log ↔ Settled log' := by
  simp only [Settled, h.count_eq]

end Settled

section Accounted

variable {τ : Type*} [DecidableEq τ]

/-- Every block that is allocated, once, is freed or has one of `owners`. -/
def Accounted (log : List (HeapEvent τ)) (owners : τ → ℕ) : Prop :=
  ∀ b, log.count (.free b) + owners b = log.count (.alloc b) ∧ log.count (.alloc b) ≤ 1

instance [Fintype τ] (log : List (HeapEvent τ)) (owners : τ → ℕ) :
    Decidable (Accounted log owners) := by
  unfold Accounted
  infer_instance

end Accounted

end Ledger

end EspHosted
