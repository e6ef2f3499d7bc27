import EspHosted.Driver.SpiSchedule
import Mathlib.Data.List.Basic

/-!
# The order of the frames on the bus

A task takes its frame out of `to_slave_queue` before it takes
`mutex_spi_trans`, so the frames leave in the order in which the tasks get the
mutex. `OrderInv` keeps the books of every run: nothing is lost and nothing is
transferred twice. The order is kept exactly in the runs in which every transfer
is `InTurn`.
-/

namespace EspHosted

namespace Spi

open Machine

/-- The frame a task has taken from the queue and not transferred yet. -/
def Pc.held : Pc → Option Queued
  | .takeMutex txbuff => txbuff
  | .spiTransFunc txbuff => txbuff
  | _ => none

section Order

variable {ι : Type}

def State.held (s : State ι) (t : Task ι) : Option Queued := (s.pc t).held

/-- The non-empty frames in the order of their transfers. -/
def State.frames (s : State ι) : List Queued := s.transferred.map Prod.fst

/-- The frames transferred so far are the first ones put on `to_slave_queue`, in
the same order, each once; every other one is still queued or held by a task. -/
structure InOrder (s : State ι) : Prop where
  order : s.frames <+: s.enqueued
  once : s.frames.Nodup
  notLost : ∀ q ∈ s.enqueued, q ∈ s.frames ∨ q ∈ s.toSlaveQueue ∨ ∃ t, s.held t = some q

/-- The task that transfers holds the oldest of the frames taken from the queue. -/
def InTurn (s : State ι) : Action ι → Prop
  | .spiTransFunc t _ =>
      ∀ q, s.held t = some q → ∀ u q', s.held u = some q' → q.seq ≤ q'.seq
  | _ => True

/-- The books of `to_slave_queue`, kept by every step. -/
structure OrderInv (s : State ι) : Prop where
  enqueued_eq : s.enqueued = s.dequeued ++ s.toSlaveQueue
  sorted : s.enqueued.Pairwise fun p q => p.seq < q.seq
  seq_lt : ∀ q ∈ s.enqueued, q.seq < s.enqueued.length
  mem_dequeued_iff : ∀ q, q ∈ s.dequeued ↔ q ∈ s.frames ∨ ∃ t, s.held t = some q
  nodup : s.frames.Nodup
  notMem_of_held : ∀ t q, s.held t = some q → q ∉ s.frames
  held_unique : ∀ t u q, s.held t = some q → s.held u = some q → t = u

namespace OrderInv

theorem init (handshake dataReady : Bool) :
    OrderInv (init handshake dataReady : State ι) where
  enqueued_eq := rfl
  sorted := List.Pairwise.nil
  seq_lt := by
    intro q hq
    cases hq
  mem_dequeued_iff := by
    intro q
    simp [Spi.init, State.frames, State.held, Pc.held]
  nodup := List.nodup_nil
  notMem_of_held := by
    intro t q ht
    cases ht
  held_unique := by
    intro t u q ht
    cases ht

/-- A step that moves no frame keeps the books. -/
theorem congr {s s' : State ι} (h : OrderInv s)
    (henqueued : s'.enqueued = s.enqueued) (hdequeued : s'.dequeued = s.dequeued)
    (hqueue : s'.toSlaveQueue = s.toSlaveQueue)
    (htransferred : s'.transferred = s.transferred)
    (hheld : ∀ t, s'.held t = s.held t) : OrderInv s' := by
  have hframes : s'.frames = s.frames := by rw [State.frames, htransferred, State.frames]
  constructor
  · rw [henqueued, hdequeued, hqueue]
    exact h.enqueued_eq
  · rw [henqueued]
    exact h.sorted
  · rw [henqueued]
    exact h.seq_lt
  · simp only [hdequeued, hframes, hheld]
    exact h.mem_dequeued_iff
  · rw [hframes]
    exact h.nodup
  · simp only [hframes, hheld]
    exact h.notMem_of_held
  · simp only [hheld]
    exact h.held_unique

theorem mem_enqueued_of_held {s : State ι} (h : OrderInv s) {t : Task ι} {q : Queued}
    (ht : s.held t = some q) : q ∈ s.enqueued := by
  rw [h.enqueued_eq]
  exact List.mem_append_left _ ((h.mem_dequeued_iff q).2 (Or.inr ⟨t, ht⟩))

theorem notLost {s : State ι} (h : OrderInv s) :
    ∀ q ∈ s.enqueued, q ∈ s.frames ∨ q ∈ s.toSlaveQueue ∨ ∃ t, s.held t = some q := by
  intro q hq
  rw [h.enqueued_eq, List.mem_append] at hq
  rcases hq with hq | hq
  · rcases (h.mem_dequeued_iff q).1 hq with hframe | hheld
    · exact Or.inl hframe
    · exact Or.inr (Or.inr hheld)
  · exact Or.inr (Or.inl hq)

theorem inOrder_iff {s : State ι} (h : OrderInv s) :
    InOrder s ↔ s.frames <+: s.enqueued := by
  constructor
  · intro ho
    exact ho.order
  · intro ho
    exact ⟨ho, h.nodup, h.notLost⟩

/-- A transfer out of order breaks the order, and a transfer in turn keeps it. -/
theorem concat_prefix_iff {s : State ι} (h : OrderInv s) (ho : s.frames <+: s.enqueued)
    {t : Task ι} {q : Queued} (ht : s.held t = some q) :
    s.frames ++ [q] <+: s.enqueued ↔
      ∀ u q', s.held u = some q' → q.seq ≤ q'.seq := by
  obtain ⟨rest, hrest⟩ := ho
  have hsorted : (s.frames ++ rest).Pairwise fun p q => p.seq < q.seq := by
    rw [hrest]
    exact h.sorted
  -- What a task holds lies behind the frames already transferred.
  have mem_rest : ∀ u q', s.held u = some q' → q' ∈ rest := by
    intro u q' hu
    have hq' : q' ∈ s.frames ++ rest := by
      rw [hrest]
      exact h.mem_enqueued_of_held hu
    exact (List.mem_append.1 hq').resolve_left (h.notMem_of_held u q' hu)
  cases rest with
  | nil => exact absurd (mem_rest t q ht) List.not_mem_nil
  | cons next rest =>
      have hnext : ∀ p ∈ rest, next.seq < p.seq :=
        (List.pairwise_cons.1 (List.pairwise_append.1 hsorted).2.1).1
      rw [← hrest, List.prefix_append_right_inj, List.cons_prefix_cons]
      constructor
      · intro heq u q' hu
        rw [heq.1]
        rcases List.mem_cons.1 (mem_rest u q' hu) with rfl | hmem
        · exact le_rfl
        · exact (hnext q' hmem).le
      · intro hturn
        have hold : next ∈ s.dequeued := by
          have hmem : next ∈ s.dequeued ++ s.toSlaveQueue := by
            rw [← h.enqueued_eq, ← hrest]
            exact List.mem_append_right _ List.mem_cons_self
          rcases List.mem_append.1 hmem with hdeq | hqueue
          · exact hdeq
          · have hlt : q.seq < next.seq := by
              have hpair := h.sorted
              rw [h.enqueued_eq] at hpair
              exact (List.pairwise_append.1 hpair).2.2 q
                ((h.mem_dequeued_iff q).2 (Or.inr ⟨t, ht⟩)) next hqueue
            rcases List.mem_cons.1 (mem_rest t q ht) with rfl | hmem
            · exact absurd hlt (lt_irrefl _)
            · exact absurd hlt (hnext q hmem).le.not_gt
        have hfresh : next ∉ s.frames := by
          intro hmem
          exact lt_irrefl _ ((List.pairwise_append.1 hsorted).2.2 next hmem next
            List.mem_cons_self)
        obtain ⟨u, hu⟩ := ((h.mem_dequeued_iff next).1 hold).resolve_left hfresh
        rcases List.mem_cons.1 (mem_rest t q ht) with rfl | hmem
        · exact ⟨rfl, List.nil_prefix⟩
        · exact absurd (hnext q hmem) (hturn u next hu).not_gt

/-- `xQueueSend` numbers the new entry behind all others. -/
theorem xQueueSend {s s' : State ι} (h : OrderInv s) {q : Queued}
    (hseq : q.seq = s.enqueued.length) (henqueued : s'.enqueued = s.enqueued ++ [q])
    (hdequeued : s'.dequeued = s.dequeued)
    (hqueue : s'.toSlaveQueue = s.toSlaveQueue ++ [q])
    (htransferred : s'.transferred = s.transferred)
    (hheld : ∀ t, s'.held t = s.held t) : OrderInv s' := by
  have hframes : s'.frames = s.frames := by rw [State.frames, htransferred, State.frames]
  constructor
  · rw [henqueued, hdequeued, hqueue, h.enqueued_eq, List.append_assoc]
  · rw [henqueued]
    refine List.pairwise_append.2 ⟨h.sorted, List.pairwise_singleton _ _, ?_⟩
    intro p hp p' hp'
    rw [List.mem_singleton.1 hp', hseq]
    exact h.seq_lt p hp
  · rw [henqueued]
    intro p hp
    rw [List.length_append, List.length_singleton]
    rcases List.mem_append.1 hp with hp | hp
    · exact Nat.lt_succ_of_lt (h.seq_lt p hp)
    · rw [List.mem_singleton.1 hp, hseq]
      exact Nat.lt_succ_self _
  · simp only [hdequeued, hframes, hheld]
    exact h.mem_dequeued_iff
  · rw [hframes]
    exact h.nodup
  · simp only [hframes, hheld]
    exact h.notMem_of_held
  · simp only [hheld]
    exact h.held_unique

end OrderInv

end Order

section Steps

variable {ι : Type} [DecidableEq ι]

theorem State.held_setPc (s : State ι) {t : Task ι} {pc : Pc} (h : pc.held = s.held t)
    (u : Task ι) : (s.setPc t pc).held u = s.held u := by
  by_cases hu : u = t
  · subst hu
    rw [State.held, setPc_pc_self, h]
  · rw [State.held, setPc_pc_of_ne s hu, State.held]

namespace OrderInv

/-- `xQueueReceive` hands the head of the queue to the task. -/
theorem xQueueReceive {s s' : State ι} (h : OrderInv s) {t : Task ι} {q : Queued}
    (ht : s.held t = none) (hqueue : s.toSlaveQueue = q :: s'.toSlaveQueue)
    (henqueued : s'.enqueued = s.enqueued) (hdequeued : s'.dequeued = s.dequeued ++ [q])
    (htransferred : s'.transferred = s.transferred) (hself : s'.held t = some q)
    (hother : ∀ u, u ≠ t → s'.held u = s.held u) : OrderInv s' := by
  have hframes : s'.frames = s.frames := by rw [State.frames, htransferred, State.frames]
  have hfresh : q ∉ s.dequeued := by
    intro hmem
    have hpair := h.sorted
    rw [h.enqueued_eq, hqueue] at hpair
    exact lt_irrefl _ ((List.pairwise_append.1 hpair).2.2 q hmem q List.mem_cons_self)
  have hheld : ∀ u p, s'.held u = some p ↔ s.held u = some p ∨ u = t ∧ p = q := by
    intro u p
    by_cases hu : u = t
    · subst hu
      rw [hself, ht, Option.some.injEq]
      simp [eq_comm]
    · rw [hother u hu]
      simp [hu]
  constructor
  · rw [henqueued, hdequeued, h.enqueued_eq, hqueue, List.append_assoc, List.singleton_append]
  · rw [henqueued]
    exact h.sorted
  · rw [henqueued]
    exact h.seq_lt
  · intro p
    rw [hdequeued, List.mem_append, List.mem_singleton, h.mem_dequeued_iff, hframes]
    simp only [hheld]
    constructor
    · rintro ((hp | ⟨u, hu⟩) | rfl)
      · exact Or.inl hp
      · exact Or.inr ⟨u, Or.inl hu⟩
      · exact Or.inr ⟨t, Or.inr ⟨rfl, rfl⟩⟩
    · rintro (hp | ⟨u, hu | ⟨-, hu⟩⟩)
      · exact Or.inl (Or.inl hp)
      · exact Or.inl (Or.inr ⟨u, hu⟩)
      · exact Or.inr hu
  · rw [hframes]
    exact h.nodup
  · intro u p hu
    rw [hframes]
    rcases (hheld u p).1 hu with hold | ⟨-, rfl⟩
    · exact h.notMem_of_held u p hold
    · intro hmem
      exact hfresh ((h.mem_dequeued_iff p).2 (Or.inl hmem))
  · intro u v p hu hv
    rcases (hheld u p).1 hu with hu | ⟨rfl, rfl⟩
    · rcases (hheld v p).1 hv with hv | ⟨-, rfl⟩
      · exact h.held_unique u v p hu hv
      · exact absurd ((h.mem_dequeued_iff p).2 (Or.inr ⟨u, hu⟩)) hfresh
    · rcases (hheld v p).1 hv with hv | ⟨rfl, -⟩
      · exact absurd ((h.mem_dequeued_iff p).2 (Or.inr ⟨v, hv⟩)) hfresh
      · rfl

/-- A transfer moves the frame from the task to the log. -/
theorem transfer {s s' : State ι} (h : OrderInv s) {t : Task ι}
    (henqueued : s'.enqueued = s.enqueued) (hdequeued : s'.dequeued = s.dequeued)
    (hqueue : s'.toSlaveQueue = s.toSlaveQueue)
    (hframes : s'.frames = s.frames ++ (s.held t).toList) (hself : s'.held t = none)
    (hother : ∀ u, u ≠ t → s'.held u = s.held u) : OrderInv s' := by
  have hheld : ∀ u p, s'.held u = some p ↔ u ≠ t ∧ s.held u = some p := by
    intro u p
    by_cases hu : u = t
    · subst hu
      simp [hself]
    · simp [hu, hother u hu]
  have hlog : ∀ p, p ∈ s'.frames ↔ p ∈ s.frames ∨ s.held t = some p := by
    intro p
    rw [hframes, List.mem_append, Option.mem_toList]
  constructor
  · rw [henqueued, hdequeued, hqueue]
    exact h.enqueued_eq
  · rw [henqueued]
    exact h.sorted
  · rw [henqueued]
    exact h.seq_lt
  · intro p
    rw [hdequeued, h.mem_dequeued_iff, hlog]
    simp only [hheld]
    constructor
    · rintro (hp | ⟨u, hu⟩)
      · exact Or.inl (Or.inl hp)
      · by_cases hut : u = t
        · exact Or.inl (Or.inr (hut ▸ hu))
        · exact Or.inr ⟨u, hut, hu⟩
    · rintro ((hp | hp) | ⟨u, -, hu⟩)
      · exact Or.inl hp
      · exact Or.inr ⟨t, hp⟩
      · exact Or.inr ⟨u, hu⟩
  · rw [hframes, List.nodup_append]
    refine ⟨h.nodup, ?_, ?_⟩
    · cases s.held t with
      | none => exact List.nodup_nil
      | some q => exact List.pairwise_singleton _ q
    · intro p hp p' hp' heq
      rw [Option.mem_toList] at hp'
      exact h.notMem_of_held t p' hp' (heq ▸ hp)
  · intro u p hu hp
    obtain ⟨hut, hu⟩ := (hheld u p).1 hu
    rcases (hlog p).1 hp with hp | hp
    · exact h.notMem_of_held u p hu hp
    · exact hut (h.held_unique u t p hu hp)
  · intro u v p hu hv
    exact h.held_unique u v p ((hheld u p).1 hu).2 ((hheld v p).1 hv).2

theorem step {s s' : State ι} {a : Action ι} (h : OrderInv s) (hs : Step s a s') :
    OrderInv s' := by
  cases hs with
  | @xQueueSend i _ _ _ _ q hpc hseq =>
      refine h.xQueueSend hseq rfl rfl rfl rfl ?_
      exact s.held_setPc (by rw [State.held, hpc]; rfl)
  | osSemaphoreWait hpc =>
      refine h.congr rfl rfl rfl rfl ?_
      exact s.held_setPc (by rw [State.held, hpc]; rfl)
  | readHandshake hpc | handshakeSet hpc | handshakeReset hpc | onlyDataReady hpc
  | nothingToDo hpc | takeMutex hpc | giveMutex hpc =>
      refine h.congr rfl rfl rfl rfl ?_
      exact s.held_setPc (by rw [State.held, hpc]; rfl)
  | @validTxBuf t _ q rest hpc hqueue =>
      refine h.xQueueReceive (t := t) ?_ hqueue rfl rfl rfl ?_ ?_
      · rw [State.held, hpc]
        rfl
      · rw [State.held, State.setPc_pc_self]
        rfl
      · intro u hu
        rw [State.held, State.setPc_pc_of_ne _ hu, State.held]
  | @spiTransFunc t txbuff retval hpc =>
      refine h.transfer (t := t) rfl rfl rfl ?_ ?_ ?_
      · rw [State.held, hpc]
        cases txbuff <;> simp [State.frames, State.setPc, Pc.held]
      · rw [State.held, State.setPc_pc_self]
        rfl
      · intro u hu
        rw [State.held, State.setPc_pc_of_ne _ hu, State.held]
  | raiseHandshake | raiseDataReady | lowerDataReady =>
      exact h.congr rfl rfl rfl rfl fun _ => rfl

/-- A step keeps the order of the frames exactly when it is in turn. -/
theorem inOrder_step_iff {s s' : State ι} {a : Action ι} (h : OrderInv s) (ho : InOrder s)
    (hs : Step s a s') : InOrder s' ↔ InTurn s a := by
  rw [(h.step hs).inOrder_iff]
  cases hs with
  | xQueueSend =>
      exact iff_of_true (ho.order.trans (List.prefix_append _ _)) trivial
  | @spiTransFunc t txbuff retval hpc =>
      have ht : s.held t = txbuff := by
        rw [State.held, hpc]
        rfl
      cases txbuff with
      | none =>
          refine iff_of_true ?_ ?_
          · simpa [State.frames, State.setPc] using ho.order
          · intro q hq
            rw [ht] at hq
            cases hq
      | some q =>
          have hiff := h.concat_prefix_iff ho.order ht
          have hframes : State.frames (State.setPc { s with
              handshake := false
              transferred := s.transferred ++ ((some q).toList.map fun p => (p, retval)) }
                t .giveMutex) = s.frames ++ [q] := by
            simp [State.frames, State.setPc]
          rw [hframes]
          simp only [InTurn, ht, Option.some.injEq, forall_eq']
          exact hiff
  | osSemaphoreWait | readHandshake | handshakeSet | handshakeReset | validTxBuf
  | onlyDataReady | nothingToDo | takeMutex | giveMutex | raiseHandshake | raiseDataReady
  | lowerDataReady =>
      exact iff_of_true ho.order trivial

end OrderInv

namespace OrderInv

theorem of_run {handshake dataReady : Bool} {s : State ι} {as : List (Action ι)}
    (hrun : run Spi.step (Spi.init handshake dataReady) as = some s) : OrderInv s :=
  run_invariant Spi.step (fun _ _ _ h hs => h.step (.of_step hs))
    (.init handshake dataReady) hrun

end OrderInv

/-- No frame is lost or transferred twice, whatever the order. -/
theorem frames_kept {handshake dataReady : Bool} {s : State ι} {as : List (Action ι)}
    (hrun : run step (init handshake dataReady) as = some s) :
    s.frames.Nodup ∧
      ∀ q ∈ s.enqueued, q ∈ s.frames ∨ q ∈ s.toSlaveQueue ∨ ∃ t, s.held t = some q :=
  ⟨(OrderInv.of_run hrun).nodup, (OrderInv.of_run hrun).notLost⟩

/-- When no task holds a frame, `InOrder` says that the frames were transferred in the
order of the queue. -/
theorem inOrder_iff_sublist {handshake dataReady : Bool} {s : State ι}
    {as : List (Action ι)} (hrun : run step (init handshake dataReady) as = some s)
    (hidle : ∀ t, s.held t = none) : InOrder s ↔ s.frames.Sublist s.enqueued := by
  have h : OrderInv s := .of_run hrun
  rw [h.inOrder_iff]
  constructor
  · exact List.IsPrefix.sublist
  · intro hsub
    have hsorted : s.dequeued.Pairwise fun p q => p.seq < q.seq := by
      have hpair := h.sorted
      rw [h.enqueued_eq] at hpair
      exact (List.pairwise_append.1 hpair).1
    have hnodup : s.dequeued.Nodup := by
      refine hsorted.imp ?_
      intro p q hlt heq
      rw [heq] at hlt
      exact lt_irrefl _ hlt
    have hmem : ∀ q, q ∈ s.frames ↔ q ∈ s.dequeued := by
      intro q
      rw [h.mem_dequeued_iff]
      simp [hidle]
    have hperm : s.frames.Perm s.dequeued :=
      (List.perm_ext_iff_of_nodup h.nodup hnodup).2 hmem
    -- Two sorted lists with the same entries are equal.
    have heq : s.frames = s.dequeued :=
      hperm.eq_of_pairwise (fun _ _ _ _ hpq hqp => absurd hpq hqp.not_gt)
        (h.sorted.sublist hsub) hsorted
    rw [heq, h.enqueued_eq]
    exact List.prefix_append _ _

/-- In a run of any number of tasks, the frames leave in the order of
`to_slave_queue` up to every moment exactly when each transfer is in turn. -/
theorem transmit_order_iff {handshake dataReady : Bool} {s : State ι} {as : List (Action ι)}
    (hrun : run step (init handshake dataReady) as = some s) :
    Always step InOrder (init handshake dataReady) as ↔
      Along step InTurn (init handshake dataReady) as := by
  have hinv : OrderInv (init handshake dataReady : State ι) := .init handshake dataReady
  refine always_iff_along step (J := OrderInv) ?_ ?_ hinv (hinv.inOrder_iff.2 ?_) hrun
  · intro s a s' h hs
    exact h.step (.of_step hs)
  · intro s a s' h ho hs
    exact h.inOrder_step_iff ho (.of_step hs)
  · exact List.nil_prefix

end Steps

/-- Both senders read the handshake line high and take their frames; the second
one gets the mutex first. The slave arms a transaction before each transfer. -/
def overtakingSchedule : List (Action Bool) :=
  [ .xQueueSend false 2 0 1 (.single 65), .readHandshake (.sender false),
    .readDataReady (.sender false), .getTxBuffer (.sender false),
    .xQueueSend true 2 0 1 (.single 66), .readHandshake (.sender true),
    .readDataReady (.sender true), .getTxBuffer (.sender true),
    .takeMutex (.sender true), .spiTransFunc (.sender true) .HAL_OK, .giveMutex (.sender true),
    .raiseHandshake, .takeMutex (.sender false), .spiTransFunc (.sender false) .HAL_OK,
    .giveMutex (.sender false) ]

theorem run_overtakingSchedule :
    ∃ s, run step (init true false) overtakingSchedule = some s ∧
      s.enqueued.map Queued.seq = [0, 1] ∧ s.frames.map Queued.seq = [1, 0] := by
  have hlogs : (run step (init true false) overtakingSchedule).map
      (fun s => (s.enqueued.map Queued.seq, s.frames.map Queued.seq)) =
        some ([0, 1], [1, 0]) := by decide
  obtain ⟨s, hrun, hs⟩ := Option.map_eq_some_iff.1 hlogs
  exact ⟨s, hrun, congrArg Prod.fst hs, congrArg Prod.snd hs⟩

/-- The frame put on the queue second is transferred first. -/
theorem frames_overtaken :
    ∃ s, run step (init true false) overtakingSchedule = some s ∧
      ¬ s.frames.Sublist s.enqueued := by
  obtain ⟨s, hrun, henqueued, hframes⟩ := run_overtakingSchedule
  refine ⟨s, hrun, ?_⟩
  intro hsub
  have hseq := hsub.map Queued.seq
  rw [henqueued, hframes] at hseq
  revert hseq
  decide

theorem transmit_order_iff_overtaking :
    (run step (init true false) overtakingSchedule).isSome ∧
      (Always step InOrder (init true false) overtakingSchedule ↔
        Along step InTurn (init true false) overtakingSchedule) := by
  obtain ⟨s, hrun, -⟩ := run_overtakingSchedule
  exact ⟨Option.isSome_of_eq_some hrun, transmit_order_iff hrun⟩

end Spi

end EspHosted
