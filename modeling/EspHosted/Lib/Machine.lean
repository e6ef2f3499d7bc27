import Mathlib.Data.List.Induction

/-!
# Runs of a deterministic labelled machine

A machine is a partial step function `step : σ → α → Option σ`; `none` says
that the action is not enabled. `run step s as` carries out a list of actions.
Interleaved threads are machines whose actions name the thread that moves, so
a list of actions is a schedule and `run` is the state it leads to.

Two predicates speak about a whole run. `Along step P s as` asks `P` of every
step, read in the state before it; `Always step I s as` asks `I` of every state
the run passes through. The rules `run_invariant`, `always_of_along` and
`always_iff_along` reduce statements about runs to statements about one step.
-/

namespace EspHosted

namespace Machine

section Run

variable {σ α : Type*} (step : σ → α → Option σ)

/-- The state a schedule leads to, `none` when one of its actions is not
enabled. -/
def run : σ → List α → Option σ
  | s, [] => some s
  | s, a :: as => (step s a).bind fun s' => run s' as

theorem run_cons (s : σ) (a : α) (as : List α) :
    run step s (a :: as) = (step s a).bind fun s' => run step s' as := rfl

theorem run_append (s : σ) (as bs : List α) :
    run step s (as ++ bs) = (run step s as).bind fun s' => run step s' bs := by
  induction as generalizing s with
  | nil => rfl
  | cons a as ih =>
      rw [List.cons_append, run_cons, run_cons]
      cases step s a with
      | none => rfl
      | some s' => exact ih s'

theorem run_concat (s : σ) (as : List α) (a : α) :
    run step s (as ++ [a]) = (run step s as).bind fun s' => step s' a := by
  rw [run_append]
  cases run step s as with
  | none => rfl
  | some s' =>
      change (step s' a).bind some = step s' a
      exact Option.bind_fun_some (step s' a)

/-- A run that ends with the action `a` passes through the state before it. -/
theorem run_concat_eq_some {s t : σ} {as : List α} {a : α}
    (h : run step s (as ++ [a]) = some t) :
    ∃ s', run step s as = some s' ∧ step s' a = some t := by
  rw [run_concat] at h
  exact Option.bind_eq_some_iff.1 h

/-- A prefix of a run is a run. -/
theorem run_prefix {s t : σ} {as bs : List α}
    (h : run step s (as ++ bs) = some t) :
    ∃ s', run step s as = some s' ∧ run step s' bs = some t := by
  rw [run_append] at h
  exact Option.bind_eq_some_iff.1 h

/-- What holds at the start and is kept by every step holds at the end of every
run. -/
theorem run_invariant {I : σ → Prop}
    (hstep : ∀ s a s', I s → step s a = some s' → I s')
    {s t : σ} {as : List α} (hs : I s) (h : run step s as = some t) : I t := by
  induction as generalizing s with
  | nil =>
      cases h
      exact hs
  | cons a as ih =>
      rw [run_cons] at h
      obtain ⟨s', ha, h'⟩ := Option.bind_eq_some_iff.1 h
      exact ih (hstep s a s' hs ha) h'

/-- The same rule for an invariant that also speaks about the actions carried
out so far. -/
theorem run_history_invariant {I : List α → σ → Prop} {s : σ} (hs : I [] s)
    (hstep : ∀ as s' a t, I as s' → step s' a = some t → I (as ++ [a]) t)
    {as : List α} {t : σ} (h : run step s as = some t) : I as t := by
  induction as using List.reverseRecOn generalizing t with
  | nil =>
      cases h
      exact hs
  | append_singleton as a ih =>
      obtain ⟨s', h', ha⟩ := run_concat_eq_some step h
      exact hstep as s' a t (ih h') ha

end Run

section Along

variable {σ α : Type*} (step : σ → α → Option σ)

/-- Every step of the run meets `P`, read in the state before the step. -/
def Along (P : σ → α → Prop) : σ → List α → Prop
  | _, [] => True
  | s, a :: as => P s a ∧ ∀ s', step s a = some s' → Along P s' as

/-- Every state the run passes through, the first one included, meets `I`. -/
def Always (I : σ → Prop) : σ → List α → Prop
  | s, [] => I s
  | s, a :: as => I s ∧ ∀ s', step s a = some s' → Always I s' as

theorem along_cons {P : σ → α → Prop} {s s' : σ} {a : α} {as : List α}
    (ha : step s a = some s') :
    Along step P s (a :: as) ↔ P s a ∧ Along step P s' as := by
  constructor
  · rintro ⟨hp, hrest⟩
    exact ⟨hp, hrest s' ha⟩
  · rintro ⟨hp, hrest⟩
    refine ⟨hp, fun t ht => ?_⟩
    rw [ha] at ht
    cases ht
    exact hrest

theorem always_cons {I : σ → Prop} {s s' : σ} {a : α} {as : List α}
    (ha : step s a = some s') :
    Always step I s (a :: as) ↔ I s ∧ Always step I s' as := by
  constructor
  · rintro ⟨hi, hrest⟩
    exact ⟨hi, hrest s' ha⟩
  · rintro ⟨hi, hrest⟩
    refine ⟨hi, fun t ht => ?_⟩
    rw [ha] at ht
    cases ht
    exact hrest

theorem Always.head {I : σ → Prop} {s : σ} {as : List α}
    (h : Always step I s as) : I s := by
  cases as with
  | nil => exact h
  | cons a as => exact h.1

theorem Always.last {I : σ → Prop} {s t : σ} {as : List α} (h : Always step I s as)
    (hrun : run step s as = some t) : I t := by
  induction as generalizing s with
  | nil =>
      cases hrun
      exact h
  | cons a as ih =>
      rw [run_cons] at hrun
      obtain ⟨s', ha, h'⟩ := Option.bind_eq_some_iff.1 hrun
      exact ih (h.2 s' ha) h'

theorem Always.mono {I J : σ → Prop} (hij : ∀ s, I s → J s) {s : σ} {as : List α}
    (h : Always step I s as) : Always step J s as := by
  induction as generalizing s with
  | nil => exact hij s h
  | cons a as ih => exact ⟨hij s h.1, fun s' ha => ih (h.2 s' ha)⟩

/-- `Along` asks `P` wherever an initial part of the run leads to. -/
theorem along_iff_forall {P : σ → α → Prop} {s t : σ} {as : List α}
    (hrun : run step s as = some t) :
    Along step P s as ↔
      ∀ bs a cs s', as = bs ++ a :: cs → run step s bs = some s' → P s' a := by
  induction as generalizing s with
  | nil =>
      refine iff_of_true trivial ?_
      intro bs a cs s' h
      exact absurd h (by simp)
  | cons b as ih =>
      rw [run_cons] at hrun
      obtain ⟨s₁, hb, hrest⟩ := Option.bind_eq_some_iff.1 hrun
      rw [along_cons step hb, ih hrest]
      constructor
      · intro h bs a cs s' heq hbs
        cases bs with
        | nil =>
            cases heq
            cases hbs
            exact h.1
        | cons b' bs =>
            cases heq
            rw [run_cons, hb] at hbs
            exact h.2 bs a cs s' rfl hbs
      · intro h
        refine ⟨h [] b as s rfl rfl, ?_⟩
        intro bs a cs s' heq hbs
        refine h (b :: bs) a cs s' (by rw [heq, List.cons_append]) ?_
        rw [run_cons, hb]
        exact hbs

/-- A condition that can be decided at every step can be decided along a run. -/
instance decidableAlong {P : σ → α → Prop} [∀ s a, Decidable (P s a)] :
    ∀ (s : σ) (as : List α), Decidable (Along step P s as)
  | _, [] => isTrue trivial
  | s, a :: as =>
      match ha : step s a with
      | some s' =>
          have : Decidable (Along step P s' as) := decidableAlong s' as
          decidable_of_iff (P s a ∧ Along step P s' as) (along_cons step ha).symm
      | none =>
          decidable_of_iff (P s a)
            ⟨fun hp => ⟨hp, fun _ hs => nomatch ha.symm.trans hs⟩, fun h => h.1⟩

/-- A property that can be decided of a state can be decided of a whole run. -/
instance decidableAlways {I : σ → Prop} [DecidablePred I] :
    ∀ (s : σ) (as : List α), Decidable (Always step I s as)
  | s, [] => inferInstanceAs (Decidable (I s))
  | s, a :: as =>
      match ha : step s a with
      | some s' =>
          have : Decidable (Always step I s' as) := decidableAlways s' as
          decidable_of_iff (I s ∧ Always step I s' as) (always_cons step ha).symm
      | none =>
          decidable_of_iff (I s)
            ⟨fun hi => ⟨hi, fun _ hs => nomatch ha.symm.trans hs⟩, fun h => h.1⟩

/-- A property of the actions alone holds along a run when all its actions have it. -/
theorem along_iff_forall_mem {P : α → Prop} {s t : σ} {as : List α}
    (hrun : run step s as = some t) :
    Along step (fun _ a => P a) s as ↔ ∀ a ∈ as, P a := by
  induction as generalizing s with
  | nil => exact iff_of_true trivial fun _ ha => nomatch ha
  | cons a as ih =>
      rw [run_cons] at hrun
      obtain ⟨s', ha, h'⟩ := Option.bind_eq_some_iff.1 hrun
      rw [along_cons step ha, ih h', List.forall_mem_cons]

/-- If every step that meets `P` keeps `I`, a run whose steps all meet `P` stays
in `I`. -/
theorem always_of_along {I : σ → Prop} {P : σ → α → Prop}
    (hstep : ∀ s a s', I s → P s a → step s a = some s' → I s')
    {s : σ} {as : List α} (hs : I s) (h : Along step P s as) :
    Always step I s as := by
  induction as generalizing s with
  | nil => exact hs
  | cons a as ih =>
      refine ⟨hs, fun s' ha => ?_⟩
      exact ih (hstep s a s' hs h.1 ha) (h.2 s' ha)

/-- A run from an invariant stays in it. -/
theorem always_of_invariant {I : σ → Prop} (hstep : ∀ s a s', I s → step s a = some s' → I s')
    {s : σ} (hs : I s) (as : List α) : Always step I s as := by
  induction as generalizing s with
  | nil => exact hs
  | cons a as ih => exact ⟨hs, fun s' ha => ih (hstep s a s' hs ha)⟩

theorem Along.and {P Q : σ → α → Prop} {s : σ} {as : List α} (hP : Along step P s as)
    (hQ : Along step Q s as) : Along step (fun s a => P s a ∧ Q s a) s as := by
  induction as generalizing s with
  | nil => trivial
  | cons a as ih => exact ⟨⟨hP.1, hQ.1⟩, fun s' ha => ih (hP.2 s' ha) (hQ.2 s' ha)⟩

/-- In a run that stays in `I`, every step leads into `I`. -/
theorem Always.along_next {I : σ → Prop} {s : σ} {as : List α} (h : Always step I s as) :
    Along step (fun s a => ∀ s', step s a = some s' → I s') s as := by
  induction as generalizing s with
  | nil => trivial
  | cons a as ih => exact ⟨fun s' ha => (h.2 s' ha).head, fun s' ha => ih (h.2 s' ha)⟩

/-- What an invariant says of every step holds along a run that stays in it. -/
theorem along_of_always {I : σ → Prop} {P : σ → α → Prop} (hP : ∀ s a, I s → P s a)
    {s : σ} {as : List α} (h : Always step I s as) : Along step P s as := by
  induction as generalizing s with
  | nil => trivial
  | cons a as ih => exact ⟨hP s a h.1, fun s' ha => ih (h.2 s' ha)⟩

/-- If, under an invariant `J` of all runs, a step from a state of `I` stays in
`I` exactly when it meets `P`, then a run stays in `I` exactly when all its steps
meet `P`. -/
theorem always_iff_along {I J : σ → Prop} {P : σ → α → Prop}
    (hJ : ∀ s a s', J s → step s a = some s' → J s')
    (hstep : ∀ s a s', J s → I s → step s a = some s' → (I s' ↔ P s a))
    {s t : σ} {as : List α} (hj : J s) (hs : I s)
    (hrun : run step s as = some t) :
    Always step I s as ↔ Along step P s as := by
  induction as generalizing s with
  | nil => exact ⟨fun _ => trivial, fun _ => hs⟩
  | cons a as ih =>
      rw [run_cons] at hrun
      obtain ⟨s', ha, h'⟩ := Option.bind_eq_some_iff.1 hrun
      rw [always_cons step ha, along_cons step ha]
      have hiff : I s' ↔ P s a := hstep s a s' hj hs ha
      constructor
      · rintro ⟨-, hrest⟩
        have hi' : I s' := hrest.head
        exact ⟨hiff.1 hi', (ih (hJ s a s' hj ha) hi' h').1 hrest⟩
      · rintro ⟨hp, hrest⟩
        have hi' : I s' := hiff.2 hp
        exact ⟨hs, (ih (hJ s a s' hj ha) hi' h').2 hrest⟩

/-- If, under an invariant `J`, a step meets `P` exactly when it meets `Q`, the same
holds of runs. -/
theorem along_congr {J : σ → Prop} {P Q : σ → α → Prop}
    (hJ : ∀ s a s', J s → step s a = some s' → J s')
    (hstep : ∀ s a s', J s → step s a = some s' → (P s a ↔ Q s a))
    {s t : σ} {as : List α} (hj : J s) (hrun : run step s as = some t) :
    Along step P s as ↔ Along step Q s as := by
  induction as generalizing s with
  | nil => exact Iff.rfl
  | cons a as ih =>
      rw [run_cons] at hrun
      obtain ⟨s', ha, h'⟩ := Option.bind_eq_some_iff.1 hrun
      rw [along_cons step ha, along_cons step ha, hstep s a s' hj ha, ih (hJ s a s' hj ha) h']

/-- Let `K` be an invariant under which `I` holds. If a step from a state of `K`
keeps `K` when it meets `P`, and leaves `I` when it does not, then a run stays in `I`
exactly when all its steps meet `P`. -/
theorem always_iff_along_of_core {I K : σ → Prop} {P : σ → α → Prop}
    (hcore : ∀ s, K s → I s)
    (hkeep : ∀ s a s', K s → P s a → step s a = some s' → K s')
    (hleave : ∀ s a s', K s → step s a = some s' → I s' → P s a)
    {s t : σ} {as : List α} (hs : K s) (hrun : run step s as = some t) :
    Always step I s as ↔ Along step P s as := by
  constructor
  · intro h
    induction as generalizing s with
    | nil => trivial
    | cons a as ih =>
        rw [run_cons] at hrun
        obtain ⟨s', ha, h'⟩ := Option.bind_eq_some_iff.1 hrun
        have hrest : Always step I s' as := h.2 s' ha
        have hp : P s a := hleave s a s' hs ha hrest.head
        exact (along_cons step ha).2 ⟨hp, ih (hkeep s a s' hs hp ha) h' hrest⟩
  · intro h
    exact (always_of_along step hkeep hs h).mono step hcore

/-- The same rule for a property `Q` of steps: while `K` holds, a step has `Q` exactly when
it meets `P`, and then it keeps `K`. -/
theorem along_iff_along_of_core {K : σ → Prop} {P Q : σ → α → Prop}
    (hkeep : ∀ s a s', K s → P s a → step s a = some s' → K s')
    (hiff : ∀ s a s', K s → step s a = some s' → (Q s a ↔ P s a))
    {s t : σ} {as : List α} (hs : K s) (hrun : run step s as = some t) :
    Along step Q s as ↔ Along step P s as := by
  induction as generalizing s with
  | nil => exact Iff.rfl
  | cons a as ih =>
      rw [run_cons] at hrun
      obtain ⟨s', ha, h'⟩ := Option.bind_eq_some_iff.1 hrun
      rw [along_cons step ha, along_cons step ha, hiff s a s' hs ha]
      exact and_congr_right fun hp => ih (hkeep s a s' hs hp ha) h'

end Along

section Total

variable {σ α : Type*} (step : σ → α → Option σ)

/-- What the steps of a run cost together. -/
def total (cost : σ → α → ℕ) : σ → List α → ℕ
  | _, [] => 0
  | s, a :: as => cost s a + ((step s a).map fun s' => total cost s' as).getD 0

theorem total_cons {cost : σ → α → ℕ} {s s' : σ} {a : α} {as : List α}
    (ha : step s a = some s') :
    total step cost s (a :: as) = cost s a + total step cost s' as := by
  rw [total, ha]
  rfl

/-- An invariant that counts the cost of every step counts the cost of the run. -/
theorem run_total {I : σ → ℕ → Prop} {cost : σ → α → ℕ}
    (hstep : ∀ s n a s', I s n → step s a = some s' → I s' (n + cost s a))
    {s t : σ} {n : ℕ} {as : List α} (hs : I s n) (h : run step s as = some t) :
    I t (n + total step cost s as) := by
  induction as generalizing s n with
  | nil =>
      cases h
      exact hs
  | cons a as ih =>
      rw [run_cons] at h
      obtain ⟨s', ha, h'⟩ := Option.bind_eq_some_iff.1 h
      rw [total_cons step ha, ← Nat.add_assoc]
      exact ih (hstep s n a s' hs ha) h'

end Total

end Machine

end EspHosted
