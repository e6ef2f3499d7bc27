import EspHosted.Driver.SpiSchedule

/-!
# No wake-up of the transaction task is lost

`osSemaphore` is binary, so rising edges coalesce, and an edge can fall between
any two steps of the tasks. `WakeInv` says who is still going to look at what the
slave or a sender has left, as long as the semaphore is taken.
-/

namespace EspHosted

namespace Spi

open Machine

/-- The task goes on to a transfer whatever it finds. -/
def Pc.committed : Pc → Bool
  | .takeMutex _ => true
  | .spiTransFunc _ => true
  | _ => false

/-- The task still looks at the data ready line, or has seen it high. -/
def Pc.seesDataReady : Pc → Bool
  | .readHandshake => true
  | .readDataReady gpioHandshake => gpioHandshake
  | .getTxBuffer gpioRxDataReady => gpioRxDataReady
  | _ => false

/-- The task still receives from `to_slave_queue`. -/
def Pc.seesQueue : Pc → Bool
  | .readHandshake => true
  | .readDataReady gpioHandshake => gpioHandshake
  | .getTxBuffer _ => true
  | _ => false

section Wakeup

variable {ι : Type}

/-- While the slave is armed and the semaphore is taken, some task is on its way
to the pending data. -/
structure WakeInv (s : State ι) : Prop where
  dataReady : s.handshake = true → s.osSemaphore = false → s.dataReady = true →
    (∃ t, (s.pc t).committed = true) ∨ (s.pc .transactionTask).seesDataReady = true
  queue : s.handshake = true → s.osSemaphore = false → s.toSlaveQueue ≠ [] →
    ∃ t, (s.pc t).committed = true ∨ (s.pc t).seesQueue = true

namespace WakeInv

theorem of_osSemaphore {s : State ι} (h : s.osSemaphore = true) : WakeInv s := by
  constructor
  · intro _ hsem
    rw [h] at hsem
    cases hsem
  · intro _ hsem
    rw [h] at hsem
    cases hsem

theorem of_handshake {s : State ι} (h : s.handshake = false) : WakeInv s := by
  constructor
  · intro hline
    rw [h] at hline
    cases hline
  · intro hline
    rw [h] at hline
    cases hline

theorem of_committed {s : State ι} {t : Task ι} (h : (s.pc t).committed = true) :
    WakeInv s where
  dataReady := fun _ _ _ => Or.inl ⟨t, h⟩
  queue := fun _ _ _ => ⟨t, Or.inl h⟩

variable [DecidableEq ι]

/-- A task that moves to `pc` keeps the invariant if it goes on watching what it
watched before. -/
theorem setPc {s : State ι} (h : WakeInv s) {t : Task ι} {pc : Pc}
    (hcommitted : (s.pc t).committed = true → pc.committed = true)
    (hdataReady : s.handshake = true → s.dataReady = true →
      (s.pc t).seesDataReady = true → pc.seesDataReady = true)
    (hqueue : s.handshake = true → s.toSlaveQueue ≠ [] →
      (s.pc t).seesQueue = true → pc.seesQueue = true) :
    WakeInv (s.setPc t pc) := by
  have keep : ∀ (f : Pc → Bool) (u : Task ι), (f (s.pc t) = true → f pc = true) →
      f (s.pc u) = true → f ((s.setPc t pc).pc u) = true := by
    intro f u hf hu
    by_cases hut : u = t
    · subst hut
      rw [State.setPc_pc_self]
      exact hf hu
    · rw [State.setPc_pc_of_ne s hut]
      exact hu
  constructor
  · intro hline hsem hready
    rcases h.dataReady hline hsem hready with ⟨u, hu⟩ | htask
    · exact Or.inl ⟨u, keep _ u hcommitted hu⟩
    · exact Or.inr (keep _ _ (hdataReady hline hready) htask)
  · intro hline hsem hne
    obtain ⟨u, hu | hu⟩ := h.queue hline hsem hne
    · exact ⟨u, Or.inl (keep _ u hcommitted hu)⟩
    · exact ⟨u, Or.inr (keep _ u (hqueue hline hne) hu)⟩

theorem step {s s' : State ι} {a : Action ι} (h : WakeInv s) (hs : Step s a s') :
    WakeInv s' := by
  cases hs with
  | @xQueueSend i _ _ _ _ q hpc hseq =>
      have hidle : WakeInv (s.setPc (.sender i) .readHandshake) := by
        refine h.setPc ?_ ?_ ?_ <;> simp [hpc, Pc.committed, Pc.seesDataReady, Pc.seesQueue]
      refine ⟨hidle.dataReady, fun _ _ _ => ⟨.sender i, Or.inr ?_⟩⟩
      change ((s.setPc (.sender i) .readHandshake).pc (.sender i)).seesQueue = true
      rw [State.setPc_pc_self]
      rfl
  | osSemaphoreWait hpc hsem =>
      constructor
      · intro _ _ _
        rw [State.setPc_pc_self]
        exact Or.inr rfl
      · intro _ _ _
        refine ⟨.transactionTask, Or.inr ?_⟩
        rw [State.setPc_pc_self]
        rfl
  | readHandshake hpc =>
      refine h.setPc ?_ ?_ ?_ <;> simp_all [Pc.committed, Pc.seesDataReady, Pc.seesQueue]
  | handshakeSet hpc =>
      refine h.setPc ?_ ?_ ?_ <;> simp_all [Pc.committed, Pc.seesDataReady, Pc.seesQueue]
  | handshakeReset hpc =>
      refine h.setPc ?_ ?_ ?_ <;> simp [hpc, Pc.committed, Pc.seesDataReady, Pc.seesQueue]
  | @validTxBuf t _ q rest hpc hqueue =>
      refine of_committed (t := t) ?_
      rw [State.setPc_pc_self]
      rfl
  | @onlyDataReady t hpc hqueue =>
      refine of_committed (t := t) ?_
      rw [State.setPc_pc_self]
      rfl
  | nothingToDo hpc hqueue =>
      refine h.setPc ?_ ?_ ?_ <;>
        simp [hpc, hqueue, Pc.committed, Pc.seesDataReady]
  | @takeMutex t txbuff hpc hfree =>
      refine of_committed (t := t) ?_
      rw [State.setPc_pc_self]
      rfl
  | spiTransFunc hpc => exact of_handshake rfl
  | @giveMutex t hpc =>
      have hidle : WakeInv (s.setPc t .idle) := by
        refine h.setPc ?_ ?_ ?_ <;> simp [hpc, Pc.committed, Pc.seesDataReady, Pc.seesQueue]
      exact ⟨hidle.dataReady, hidle.queue⟩
  | raiseHandshake hlow => exact of_osSemaphore rfl
  | raiseDataReady hlow => exact of_osSemaphore rfl
  | lowerDataReady =>
      refine ⟨?_, h.queue⟩
      intro _ _ hready
      cases hready

end WakeInv

variable [DecidableEq ι]

/-- When the transaction task waits, no sender is on its way, the slave is armed,
and a frame or slave data is pending, the transaction task can go on. -/
theorem no_lost_wakeup {handshake dataReady : Bool} {s : State ι} {as : List (Action ι)}
    (hrun : run step (init handshake dataReady) as = some s)
    (hwait : s.pc .transactionTask = .idle) (hsenders : ∀ i, s.pc (.sender i) = .idle)
    (harmed : s.handshake = true)
    (hpending : s.toSlaveQueue ≠ [] ∨ s.dataReady = true) : s.osSemaphore = true := by
  have hinv : WakeInv s :=
    run_invariant step (fun s a s' h hs => h.step (.of_step hs)) (.of_osSemaphore rfl) hrun
  have hidle : ∀ t, s.pc t = .idle := by
    intro t
    cases t with
    | transactionTask => exact hwait
    | sender i => exact hsenders i
  by_contra hsem
  rw [Bool.not_eq_true] at hsem
  rcases hpending with hne | hready
  · obtain ⟨t, ht | ht⟩ := hinv.queue harmed hsem hne
    · rw [hidle] at ht
      cases ht
    · rw [hidle] at ht
      cases ht
  · rcases hinv.dataReady harmed hsem hready with ⟨t, ht⟩ | ht
    · rw [hidle] at ht
      cases ht
    · rw [hwait] at ht
      cases ht

end Wakeup

/-- The sender and the transaction task both find the line low; the slave then
arms, and the frame is still queued. -/
def lateHandshakeSchedule : List (Action Unit) :=
  [ .osSemaphoreWait, .readHandshake .transactionTask,
    .xQueueSend () 2 0 1 (.single 65), .readHandshake (.sender ()),
    .readDataReady .transactionTask, .readDataReady (.sender ()), .raiseHandshake ]

theorem run_lateHandshakeSchedule :
    ∃ s, run step (init false false) lateHandshakeSchedule = some s ∧
      (∀ t, s.pc t = .idle) ∧ s.handshake = true ∧ s.toSlaveQueue ≠ [] := by
  refine ⟨_, rfl, ?_, rfl, List.cons_ne_nil _ _⟩
  intro t
  cases t <;> rfl

theorem no_lost_wakeup_late_handshake :
    ∃ s, run step (init false false) lateHandshakeSchedule = some s ∧
      s.toSlaveQueue ≠ [] ∧ s.osSemaphore = true := by
  obtain ⟨s, hrun, hidle, harmed, hne⟩ := run_lateHandshakeSchedule
  exact ⟨s, hrun, hne,
    no_lost_wakeup hrun (hidle _) (fun i => hidle (.sender i)) harmed (Or.inl hne)⟩

end Spi

end EspHosted
