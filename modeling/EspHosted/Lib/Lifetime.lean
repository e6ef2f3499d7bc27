import Mathlib.Data.List.Basic

/-!
# The lifetimes of blocks

A log of what a program does with the blocks of its heap. An orderly log does not come
back to a block that was freed. `Orderly.append` extends an orderly log by a step that
keeps to the live blocks.
-/

namespace EspHosted

namespace Lifetime

/-- A block is read, written or handed out, or it is freed. -/
inductive LifeEvent (β : Type*) where
  | use (p : β)
  | free (p : β)
  deriving DecidableEq

section Log

variable {β : Type*}

def LifeEvent.block : LifeEvent β → β
  | .use p => p
  | .free p => p

/-- After it was freed, a block occurs no more. -/
def Orderly (log : List (LifeEvent β)) : Prop :=
  log.Pairwise fun e e' => ∀ p, e = .free p → e'.block ≠ p

theorem Orderly.nil : Orderly ([] : List (LifeEvent β)) := List.Pairwise.nil

theorem Orderly.append {log es : List (LifeEvent β)} (h : Orderly log) (hes : Orderly es)
    (hlive : ∀ e ∈ es, .free e.block ∉ log) : Orderly (log ++ es) := by
  refine List.pairwise_append.2 ⟨h, hes, ?_⟩
  intro e he e' he' p hp hblock
  apply hlive e' he'
  rw [hblock, ← hp]
  exact he

/-- Uses alone are orderly. -/
theorem orderly_uses (ps : List β) : Orderly (ps.map LifeEvent.use) := by
  rw [Orderly, List.pairwise_map]
  apply List.pairwise_of_forall
  intro p q r hr
  cases hr

/-- A log that comes back to a freed block is not orderly. -/
theorem not_orderly {log es : List (LifeEvent β)} {p : β} (hfree : .free p ∈ log)
    {e : LifeEvent β} (he : e ∈ es) (hblock : e.block = p) : ¬ Orderly (log ++ es) := by
  intro h
  obtain ⟨-, -, hcross⟩ := List.pairwise_append.1 h
  exact hcross _ hfree e he p rfl hblock

end Log

end Lifetime

end EspHosted
