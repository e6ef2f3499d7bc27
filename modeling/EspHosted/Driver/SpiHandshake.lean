import EspHosted.Driver.SpiSchedule

/-!
# The handshake line at the start of a transfer

A task samples the handshake line at the head of
`check_and_execute_spi_transaction` and transfers later, under
`mutex_spi_trans`, without looking again. A transfer therefore starts on an armed
slave exactly when no transfer since the sample has used the arming up.
-/

namespace EspHosted

namespace Spi

open Machine

/-- The task has read the handshake line high and goes on to its transfer. -/
def Pc.sampledHigh : Pc → Bool
  | .readDataReady gpioHandshake => gpioHandshake
  | .getTxBuffer _ => true
  | .takeMutex _ => true
  | .spiTransFunc _ => true
  | _ => false

section Handshake

variable {ι : Type}

/-- A transfer is started with the handshake line high. -/
def StartsArmed (s : State ι) : Action ι → Prop
  | .spiTransFunc _ _ => s.handshake = true
  | _ => True

variable [DecidableEq ι]

def overtakenStep (t : Task ι) (b : Bool) : Action ι → Bool
  | .spiTransFunc _ _ => true
  | .raiseHandshake => false
  | .readHandshake u => if u = t then false else b
  | _ => b

/-- Since `t` last read the handshake line, there was a transfer after which the
slave has not raised the line again. -/
def overtaken (as : List (Action ι)) (t : Task ι) : Bool :=
  as.foldl (overtakenStep t) false

/-- No task is overtaken between its reading of the handshake line and its
transfer. -/
def Undisturbed (as : List (Action ι)) : Prop :=
  ∀ bs t retval cs, as = bs ++ .spiTransFunc t retval :: cs → overtaken bs t = false

theorem overtaken_concat (as : List (Action ι)) (a : Action ι) (t : Task ι) :
    overtaken (as ++ [a]) t = overtakenStep t (overtaken as t) a := by
  rw [overtaken, List.foldl_append]
  rfl

/-- The line is as the sample of a task says, unless the task is overtaken. -/
def SampleInv (as : List (Action ι)) (s : State ι) : Prop :=
  ∀ t, (s.pc t).sampledHigh = true → s.handshake = !overtaken as t

namespace SampleInv

/-- A step that neither touches the line nor samples it keeps the invariant. -/
theorem congr {as : List (Action ι)} {s s' : State ι} {a : Action ι}
    (h : SampleInv as s) (hline : s'.handshake = s.handshake)
    (hover : ∀ t, overtakenStep t (overtaken as t) a = overtaken as t)
    (hpc : ∀ t, (s'.pc t).sampledHigh = true → (s.pc t).sampledHigh = true) :
    SampleInv (as ++ [a]) s' := by
  intro t ht
  rw [overtaken_concat, hover, hline]
  exact h t (hpc t ht)

theorem sampledHigh_setPc {s : State ι} {t : Task ι} {pc : Pc}
    (h : pc.sampledHigh = true → (s.pc t).sampledHigh = true) (u : Task ι) :
    ((s.setPc t pc).pc u).sampledHigh = true → (s.pc u).sampledHigh = true := by
  by_cases hu : u = t
  · subst hu
    rw [State.setPc_pc_self]
    exact h
  · rw [State.setPc_pc_of_ne s hu]
    exact id

theorem step {as : List (Action ι)} {s s' : State ι} {a : Action ι}
    (h : SampleInv as s) (hs : Step s a s') : SampleInv (as ++ [a]) s' := by
  cases hs with
  | @xQueueSend i _ _ _ _ q hpc =>
      refine h.congr rfl (fun _ => rfl) ?_
      exact sampledHigh_setPc (s := s) (t := .sender i) (by simp [Pc.sampledHigh])
  | osSemaphoreWait hpc =>
      refine h.congr rfl (fun _ => rfl) ?_
      exact sampledHigh_setPc (s := s) (by simp [Pc.sampledHigh])
  | @readHandshake t hpc =>
      intro u hu
      rw [overtaken_concat, overtakenStep]
      by_cases hut : u = t
      · subst hut
        rw [State.setPc_pc_self] at hu
        rw [if_pos rfl]
        exact hu
      · rw [if_neg (Ne.symm hut)]
        rw [State.setPc_pc_of_ne s hut] at hu
        exact h u hu
  | handshakeSet hpc | validTxBuf hpc | onlyDataReady hpc | takeMutex hpc =>
      refine h.congr rfl (fun _ => rfl) ?_
      exact sampledHigh_setPc (s := s) (by simp [hpc, Pc.sampledHigh])
  | handshakeReset hpc | nothingToDo hpc | giveMutex hpc =>
      refine h.congr rfl (fun _ => rfl) ?_
      exact sampledHigh_setPc (s := s) (by simp [Pc.sampledHigh])
  | spiTransFunc hpc =>
      intro u hu
      rw [overtaken_concat]
      rfl
  | raiseHandshake hlow =>
      intro u hu
      rw [overtaken_concat]
      rfl
  | raiseDataReady hlow =>
      exact h.congr rfl (fun _ => rfl) fun _ => id
  | lowerDataReady =>
      exact h.congr rfl (fun _ => rfl) fun _ => id

theorem of_run {handshake dataReady : Bool} {s : State ι} {as : List (Action ι)}
    (hrun : run Spi.step (init handshake dataReady) as = some s) : SampleInv as s := by
  refine run_history_invariant Spi.step (I := SampleInv) ?_ ?_ hrun
  · intro t ht
    cases ht
  · intro as s a s' h hs
    exact h.step (.of_step hs)

end SampleInv

/-- In a run of any number of tasks, every transfer starts with the handshake
line high exactly when no task is overtaken. -/
theorem handshake_discipline_iff {handshake dataReady : Bool} {s : State ι}
    {as : List (Action ι)} (hrun : run step (init handshake dataReady) as = some s) :
    Along step StartsArmed (init handshake dataReady) as ↔ Undisturbed as := by
  -- A task about to transfer has sampled the line, so `SampleInv` speaks about it.
  have hline : ∀ bs t retval cs, as = bs ++ .spiTransFunc t retval :: cs →
      ∃ s', run step (init handshake dataReady) bs = some s' ∧
        s'.handshake = !overtaken bs t := by
    intro bs t retval cs heq
    rw [heq] at hrun
    obtain ⟨s', hbs, hrest⟩ := run_prefix step hrun
    rw [run_cons] at hrest
    obtain ⟨s'', ha, -⟩ := Option.bind_eq_some_iff.1 hrest
    refine ⟨s', hbs, SampleInv.of_run hbs t ?_⟩
    cases Step.of_step ha with
    | spiTransFunc hpc =>
        rw [hpc]
        rfl
  rw [along_iff_forall step hrun]
  constructor
  · intro h bs t retval cs heq
    obtain ⟨s', hbs, hs'⟩ := hline bs t retval cs heq
    have hhigh : s'.handshake = true := h bs _ cs s' heq hbs
    rw [hhigh] at hs'
    simpa using hs'
  · intro h bs a cs s' heq hbs
    cases a with
    | spiTransFunc t retval =>
        obtain ⟨s'', hbs', hs''⟩ := hline bs t retval cs heq
        rw [hbs] at hbs'
        cases hbs'
        rw [StartsArmed, hs'', h bs t retval cs heq]
        rfl
    | _ => trivial

end Handshake

/-- A sender and the transaction task both read the line high; the transaction
task transfers, and the sender reaches its own transfer. -/
def doubleUseSchedule : List (Action Unit) :=
  [ .osSemaphoreWait, .readHandshake .transactionTask,
    .xQueueSend () 2 0 1 (.single 65), .readHandshake (.sender ()),
    .readDataReady .transactionTask, .getTxBuffer .transactionTask,
    .takeMutex .transactionTask, .spiTransFunc .transactionTask .HAL_OK,
    .giveMutex .transactionTask, .readDataReady (.sender ()), .getTxBuffer (.sender ()),
    .takeMutex (.sender ()) ]

theorem run_doubleUseSchedule :
    ∃ s, run step (init true true) (doubleUseSchedule ++
        [.spiTransFunc (.sender ()) .HAL_OK]) = some s := by
  have hrun : (run step (init true true) (doubleUseSchedule ++
      [.spiTransFunc (.sender ()) .HAL_OK])).isSome := by decide
  exact Option.isSome_iff_exists.1 hrun

/-- The sender's transfer starts with the line low. -/
theorem handshake_used_twice :
    ¬ Along step StartsArmed (init true true) (doubleUseSchedule ++
        [.spiTransFunc (.sender ()) .HAL_OK]) := by
  have hline : (run step (init true true) doubleUseSchedule).map State.handshake =
      some false := by decide
  obtain ⟨s, hrun, hlow⟩ := Option.map_eq_some_iff.1 hline
  obtain ⟨s', hrun'⟩ := run_doubleUseSchedule
  intro h
  have hhigh : s.handshake = true :=
    (along_iff_forall step hrun').1 h doubleUseSchedule _ [] s rfl hrun
  rw [hlow] at hhigh
  cases hhigh

theorem handshake_discipline_iff_used_twice :
    ∃ s, run step (init true true) (doubleUseSchedule ++
        [.spiTransFunc (.sender ()) .HAL_OK]) = some s ∧
      (Along step StartsArmed (init true true) (doubleUseSchedule ++
          [.spiTransFunc (.sender ()) .HAL_OK]) ↔
        Undisturbed (doubleUseSchedule ++ [.spiTransFunc (.sender ()) .HAL_OK])) := by
  obtain ⟨s, hrun⟩ := run_doubleUseSchedule
  exact ⟨s, hrun, handshake_discipline_iff hrun⟩

end Spi

end EspHosted
