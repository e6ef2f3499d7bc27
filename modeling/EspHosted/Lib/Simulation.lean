import Mathlib.Data.List.Basic

/-!
# Traces, and simulation

An object whose operations return something: `step s i` is the state after the operation
`i`, and its result. `trace` are the results of a list of operations. Two objects that are
related by a simulation give the same results.
-/

namespace EspHosted

namespace Simulation

section Trace

variable {σ τ ι ω : Type*}

/-- The results of the operations, one after the other. -/
def trace (step : σ → ι → σ × ω) : σ → List ι → List ω
  | _, [] => []
  | s, i :: is => (step s i).2 :: trace step (step s i).1 is

/-- The state after the operations. -/
def final (step : σ → ι → σ × ω) : σ → List ι → σ
  | s, [] => s
  | s, i :: is => final step (step s i).1 is

theorem final_append (step : σ → ι → σ × ω) (s : σ) (is js : List ι) :
    final step s (is ++ js) = final step (final step s is) js := by
  induction is generalizing s with
  | nil => rfl
  | cons i is ih => exact ih (step s i).1

theorem final_concat (step : σ → ι → σ × ω) (s : σ) (is : List ι) (i : ι) :
    final step s (is ++ [i]) = (step (final step s is) i).1 := final_append step s is [i]

theorem trace_concat (step : σ → ι → σ × ω) (s : σ) (is : List ι) (i : ι) :
    trace step s (is ++ [i]) = trace step s is ++ [(step (final step s is) i).2] := by
  induction is generalizing s with
  | nil => rfl
  | cons j is ih => exact congrArg ((step s j).2 :: ·) (ih (step s j).1)

theorem final_invariant {step : σ → ι → σ × ω} {I : σ → Prop} (hI : ∀ s i, I s → I (step s i).1)
    {s : σ} (hs : I s) (is : List ι) : I (final step s is) := by
  induction is generalizing s with
  | nil => exact hs
  | cons i is ih => exact ih (hI s i hs)

/-- `R` is kept by every operation, and related states give the same results. -/
def Simulates (step : σ → ι → σ × ω) (step' : τ → ι → τ × ω) (R : σ → τ → Prop) : Prop :=
  ∀ s t i, R s t → (step s i).2 = (step' t i).2 ∧ R (step s i).1 (step' t i).1

variable {step : σ → ι → σ × ω} {step' : τ → ι → τ × ω} {R : σ → τ → Prop}

theorem Simulates.trace_eq (h : Simulates step step' R) {s : σ} {t : τ} (hst : R s t)
    (is : List ι) : trace step s is = trace step' t is := by
  induction is generalizing s t with
  | nil => rfl
  | cons i is ih =>
      obtain ⟨hresult, hnext⟩ := h s t i hst
      rw [trace, trace, hresult, ih hnext]

/-- `P` holds of every operation, in the state before it. -/
def Throughout (step : σ → ι → σ × ω) (P : σ → ι → Prop) : σ → List ι → Prop
  | _, [] => True
  | s, i :: is => P s i ∧ Throughout step P (step s i).1 is

theorem Throughout.of_invariant {P : σ → ι → Prop} {I : σ → Prop} (hP : ∀ s i, I s → P s i)
    {is : List ι} (hI : ∀ s, ∀ i ∈ is, I s → I (step s i).1) {s : σ} (hs : I s) :
    Throughout step P s is := by
  induction is generalizing s with
  | nil => trivial
  | cons i is ih =>
      refine ⟨hP s i hs, ih (fun s j hj => hI s j (List.mem_cons_of_mem i hj)) ?_⟩
      exact hI s i List.mem_cons_self hs

/-- Two objects whose states stay related give the same results exactly when every operation
does. -/
theorem trace_eq_iff {P : σ → ι → Prop} (hnext : ∀ s t i, R s t → R (step s i).1 (step' t i).1)
    (hresult : ∀ s t i, R s t → ((step s i).2 = (step' t i).2 ↔ P s i)) {s : σ} {t : τ}
    (hst : R s t) (is : List ι) :
    trace step s is = trace step' t is ↔ Throughout step P s is := by
  induction is generalizing s t with
  | nil => exact iff_of_true rfl trivial
  | cons i is ih =>
      rw [trace, trace, List.cons.injEq, hresult s t i hst, ih (hnext s t i hst)]
      exact Iff.rfl

theorem final_of_invariant (hnext : ∀ s t i, R s t → R (step s i).1 (step' t i).1) {s : σ} {t : τ}
    (hst : R s t) (is : List ι) : R (final step s is) (final step' t is) := by
  induction is generalizing s t with
  | nil => exact hst
  | cons i is ih => exact ih (hnext s t i hst)

theorem Simulates.final (h : Simulates step step' R) {s : σ} {t : τ} (hst : R s t)
    (is : List ι) : R (final step s is) (final step' t is) :=
  final_of_invariant (fun s t i hst => (h s t i hst).2) hst is

end Trace

end Simulation

end EspHosted
