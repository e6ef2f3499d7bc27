import EspHosted.Control.Correlation
import EspHosted.Lib.Tasks

/-!
# The serial queue and the read semaphore

`readSemaphore` is binary, the serial queue holds up to `toSerialInftQueueSize`
messages, and `control_path_rx_indication` releases the semaphore once for each
message. A release that finds the semaphore still available is lost, and from then on
one message more is in the queue than reads will be let through.

The runs are those of `Correlation`. `Accounts` is the balance they keep: every
message in the queue is announced by the semaphore, by a task that took it, by an
indication still to come, or was stranded by a lost release.
-/

namespace EspHosted

namespace Control

namespace ReadSignal

open Machine Tasks Correlation

/-- A task between `osSemaphoreWait` and the end of `serial_read`. -/
def Reading : Pc → Prop
  | .reading _ => True
  | _ => False

instance : DecidablePred Reading
  | .idle => isFalse id
  | .waiting _ => isFalse id
  | .reading _ => isTrue trivial

section Accounts

variable {ι : Type}

/-- No arrival and no read is in progress. -/
def Quiescent (s : State ι) : Prop :=
  s.rxIndication = false ∧ ∀ i, ¬ Reading (s.pc i)

/-- Semaphore and queue agree between arrivals and reads, and a read that obtained
the semaphore finds a message. -/
structure Agrees (s : State ι) : Prop where
  available_iff : Quiescent s → (s.readSemaphore = true ↔ s.queue ≠ [])
  ne_nil : ∀ i, Reading (s.pc i) → s.queue ≠ []

/-- The message is announced while the semaphore is taken. -/
def NotCoalesced (s : State ι) : Action ι → Prop
  | .controlPathRxIndication => s.readSemaphore = false
  | _ => True

/-- The releases that a step loses. -/
def coalesced (s : State ι) : Action ι → ℕ
  | .controlPathRxIndication => s.readSemaphore.toNat
  | _ => 0

theorem coalesced_eq_zero_iff (s : State ι) (a : Action ι) :
    coalesced s a = 0 ↔ NotCoalesced s a := by
  cases a with
  | controlPathRxIndication =>
      cases h : s.readSemaphore with
      | false => simp [coalesced, NotCoalesced, h]
      | true => simp [coalesced, NotCoalesced, h]
  | _ => exact iff_of_true rfl trivial

/-- Who announces the messages of the queue. -/
structure Accounts (s : State ι) (readers : List ι) (stranded : ℕ) : Prop where
  census : Census Reading s.pc readers
  length_queue : s.queue.length =
    s.readSemaphore.toNat + readers.length + s.rxIndication.toNat + stranded

namespace Accounts

theorem init : Accounts (Correlation.init : State ι) [] 0 := by
  constructor
  · exact Census.nil fun _ hi => hi
  · rfl

/-- With nothing stranded the semaphore and the queue agree. -/
theorem agrees {s : State ι} {readers : List ι} (h : Accounts s readers 0) : Agrees s := by
  have hlength := h.length_queue
  constructor
  · rintro ⟨hindication, hidle⟩
    have hreaders : readers = [] := h.census.eq_nil_iff.2 hidle
    rw [hindication, hreaders] at hlength
    rw [← List.length_pos_iff]
    cases hsem : s.readSemaphore with
    | false => simp [hlength, hsem]
    | true => simp [hlength, hsem]
  · intro i hi hqueue
    have hmem : i ∈ readers := (h.census.mem_iff i).2 hi
    have hpos := List.length_pos_of_mem hmem
    rw [hqueue, List.length_nil] at hlength
    omega

end Accounts

end Accounts

section Steps

variable {ι : Type} [DecidableEq ι]

namespace Accounts

/-- Every step keeps the balance; a lost release strands one message. -/
theorem step {s s' : State ι} {readers : List ι} {stranded : ℕ} {a : Action ι}
    (h : Accounts s readers stranded) (hs : Correlation.step s a = some s') :
    ∃ readers', Accounts s' readers' (stranded + coalesced s a) := by
  obtain ⟨hcensus, hlength⟩ := h
  cases a with
  | espHostedDriverWrite i =>
      simp only [Correlation.step] at hs
      split at hs
      · rename_i hpc
        cases hs
        refine ⟨readers, hcensus.stay ?_, hlength⟩
        rw [hpc]
        exact Iff.rfl
      · cases hs
  | osSemaphoreWait i =>
      simp only [Correlation.step] at hs
      split at hs
      · rename_i k hpc
        split at hs
        · rename_i hsem
          cases hs
          refine ⟨i :: readers, hcensus.enter ?_ trivial, ?_⟩
          · rw [hpc]
            exact id
          · rw [hlength, hsem, List.length_cons]
            simp only [Bool.toNat_true, Bool.toNat_false, coalesced]
            omega
        · cases hs
      · cases hs
  | timeout i =>
      simp only [Correlation.step] at hs
      split at hs
      · rename_i k hpc
        split at hs
        · cases hs
        · cases hs
          refine ⟨readers, hcensus.stay ?_, hlength⟩
          rw [hpc]
          exact Iff.rfl
      · cases hs
  | serialRead i =>
      simp only [Correlation.step] at hs
      split at hs
      · rename_i k hpc
        have hreading : Reading (s.pc i) := by
          rw [hpc]
          trivial
        have hleave := hcensus.length_leave hreading
        split at hs
        · -- the reader itself stands for a message, so the queue is not empty
          rename_i hqueue
          rw [hqueue, List.length_nil] at hlength
          omega
        · rename_i m queue hqueue
          cases hs
          refine ⟨readers.erase i, hcensus.leave (fun hidle => hidle), ?_⟩
          rw [hqueue, List.length_cons] at hlength
          simp only [coalesced]
          omega
      · cases hs
  | serialRxHandler msg replyTo =>
      simp only [Correlation.step] at hs
      split at hs
      · rename_i henabled
        cases hs
        refine ⟨readers, hcensus, ?_⟩
        rw [List.length_append, hlength, henabled.1]
        simp only [Bool.toNat_true, Bool.toNat_false, coalesced, List.length_singleton]
        omega
      · cases hs
  | controlPathRxIndication =>
      simp only [Correlation.step] at hs
      split at hs
      · rename_i hindication
        cases hs
        refine ⟨readers, hcensus, ?_⟩
        rw [hlength, hindication]
        simp only [Bool.toNat_true, Bool.toNat_false, coalesced]
        omega
      · cases hs

end Accounts

/-- A message is stranded for every release that was lost, and for no other reason:
between arrivals and reads, with the semaphore taken, the queue holds just these. -/
theorem length_queue_of_unavailable {as : List (Action ι)} {t : State ι}
    (hrun : run Correlation.step init as = some t) (hquiet : Quiescent t)
    (htaken : t.readSemaphore = false) :
    t.queue.length = total Correlation.step coalesced init as := by
  have haccounts := run_total Correlation.step (I := fun s n => ∃ readers, Accounts s readers n)
    (fun s n a s' ⟨_, h⟩ hs => h.step hs) ⟨[], .init⟩ hrun
  obtain ⟨readers, hcensus, hlength⟩ := haccounts
  rw [htaken, hquiet.1, hcensus.eq_nil_iff.2 hquiet.2] at hlength
  rw [hlength]
  simp

/-- In every run in which no message is announced while the semaphore is still
available, semaphore and queue agree. -/
theorem agrees_of_not_coalesced {as : List (Action ι)}
    (h : Along Correlation.step NotCoalesced (init : State ι) as) :
    Always Correlation.step Agrees (init : State ι) as := by
  have hinv : Always Correlation.step (fun s => ∃ readers, Accounts s readers 0)
      (init : State ι) as := by
    refine always_of_along Correlation.step ?_ ⟨[], .init⟩ h
    rintro s a s' ⟨readers, hi⟩ ha hs
    have hstep := hi.step hs
    rw [(coalesced_eq_zero_iff s a).2 ha] at hstep
    exact hstep
  exact hinv.mono Correlation.step fun _ ⟨_, hi⟩ => hi.agrees

end Steps

/-- Two messages come before the first is read, so the second release finds the
semaphore available. -/
def burstSchedule : List (Action Unit) :=
  [ .espHostedDriverWrite (), .serialRxHandler oneByteMessage (some 0),
    .controlPathRxIndication, .serialRxHandler oneByteMessage none,
    .controlPathRxIndication, .osSemaphoreWait (), .serialRead () ]

theorem burst_message_stranded :
    ∃ s, run Correlation.step init burstSchedule = some s ∧ ¬ Agrees s := by
  have hend : (run Correlation.step init burstSchedule).map
      (fun s => (s.readSemaphore, s.rxIndication, s.queue.length, decide (Reading (s.pc ())))) =
      some (false, false, 1, false) := by decide
  obtain ⟨s, hrun, heq⟩ := Option.map_eq_some_iff.1 hend
  simp only [Prod.mk.injEq, decide_eq_false_iff_not] at heq
  obtain ⟨hsem, hindication, hlength, hreading⟩ := heq
  refine ⟨s, hrun, ?_⟩
  intro h
  have havailable := (h.available_iff ⟨hindication, fun _ => hreading⟩).2
    (List.length_pos_iff.1 (by rw [hlength]; exact Nat.one_pos))
  rw [hsem] at havailable
  cases havailable

theorem agrees_answered : Always Correlation.step Agrees init answeredSchedule := by
  refine agrees_of_not_coalesced ?_
  refine ⟨trivial, fun s hs => ?_⟩
  cases hs
  refine ⟨trivial, fun s hs => ?_⟩
  cases hs
  refine ⟨rfl, fun s hs => ?_⟩
  cases hs
  refine ⟨trivial, fun s hs => ?_⟩
  cases hs
  refine ⟨trivial, fun s hs => ?_⟩
  cases hs
  refine ⟨trivial, fun s hs => ?_⟩
  cases hs
  refine ⟨trivial, fun s hs => ?_⟩
  cases hs
  refine ⟨rfl, fun s hs => ?_⟩
  cases hs
  refine ⟨trivial, fun s hs => ?_⟩
  cases hs
  exact ⟨trivial, fun s hs => trivial⟩

end ReadSignal

end Control

end EspHosted
