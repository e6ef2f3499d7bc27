import EspHosted.Control.ReadSound
import EspHosted.Control.Transport
import EspHosted.Lib.Machine
import Mathlib.Logic.Function.Basic

/-!
# Requests and the messages their commands read

Commands in any number of tasks write a request, wait on `readSemaphore`, and read
one message of the serial queue; the receive task queues a message and then
releases the semaphore. Nothing ties a message to a request: neither a number nor a
drain of the queue before a write. `Correlated` says that every command got its own
answer.

The fields `written` and `delivered` and the annotations of `Arrived` are logs that
no branch reads.
-/

namespace EspHosted

namespace Control

namespace Correlation

open Machine

/-- `TO_SERIAL_INFT_QUEUE_SIZE` -/
def toSerialInftQueueSize : ℕ := 100

/-- A message in the serial queue, the request it answers, and the number of requests
written before it arrived. -/
structure Arrived where
  msg : Message
  replyTo : Option ℕ
  arrivedAt : ℕ
  deriving DecidableEq

/-- Where a task stands in `transport_pserial_data_handler`, with the number of its
request. -/
inductive Pc where
  | idle
  | waiting (k : ℕ)
  | reading (k : ℕ)

/-- The request a command has written and got no message for. -/
def Pc.inFlight : Pc → Option ℕ
  | .idle => none
  | .waiting k => some k
  | .reading k => some k

structure State (ι : Type) where
  readSemaphore : Bool
  queue : List Arrived
  rxIndication : Bool
  pc : ι → Pc
  written : ℕ
  delivered : List (ℕ × Arrived)

inductive Action (ι : Type) where
  | espHostedDriverWrite (i : ι)
  | osSemaphoreWait (i : ι)
  | timeout (i : ι)
  | serialRead (i : ι)
  | serialRxHandler (msg : Message) (replyTo : Option ℕ)
  | controlPathRxIndication

/-- The read of the message returns a buffer to the command. -/
def returnsBuffer (m : Message) : Bool :=
  (espHostedDriverRead (envWith m) tlvHeaderLength timeoutPserialResp).buf.isSome

section Correlated

variable {ι : Type}

/-- After `control_path_platform_init`, which grabs the semaphore. -/
def init : State ι where
  readSemaphore := false
  queue := []
  rxIndication := false
  pc := fun _ => .idle
  written := 0
  delivered := []

/-- Every command that returned a buffer got its own answer, which came after its
request was written. -/
def Correlated (s : State ι) : Prop :=
  ∀ k m, (k, m) ∈ s.delivered → m.replyTo = some k ∧ k < m.arrivedAt

/-- A request is written when no other command is in flight and no control message is
next in the serial queue, and a control message that comes into the empty queue while
a command is in flight answers it. -/
def Exclusive (s : State ι) : Action ι → Prop
  | .espHostedDriverWrite _ =>
      (∀ j, (s.pc j).inFlight = none) ∧
        ∀ m, s.queue.head? = some m → returnsBuffer m.msg = false
  | .serialRxHandler msg replyTo =>
      s.queue = [] → returnsBuffer msg = true →
        ∀ i k, (s.pc i).inFlight = some k → replyTo = some k
  | _ => True

/-- What an exclusive run keeps: one command in flight, and its answer next in the
queue if a control message is. -/
structure CorrelationInv (s : State ι) : Prop where
  single : ∀ i j k l, (s.pc i).inFlight = some k → (s.pc j).inFlight = some l → i = j
  answers : ∀ i k, (s.pc i).inFlight = some k →
    ∀ m, s.queue.head? = some m → returnsBuffer m.msg = true → m.replyTo = some k
  replied : ∀ m ∈ s.queue, ∀ k, m.replyTo = some k → k < m.arrivedAt
  correlated : Correlated s

theorem CorrelationInv.init : CorrelationInv (Correlation.init : State ι) := by
  constructor
  · intro i j k l hi
    cases hi
  · intro i k hi
    cases hi
  · intro m hm
    cases hm
  · intro k m hm
    cases hm

end Correlated

section Steps

variable {ι : Type} [DecidableEq ι]

/-- The semaphore is binary, and a wait ends without it only when it is not
available. The receive task blocks while the queue is full. -/
def step (s : State ι) : Action ι → Option (State ι)
  | .espHostedDriverWrite i =>
      match s.pc i with
      | .idle =>
          some
            { s with
              pc := Function.update s.pc i (.waiting s.written)
              written := s.written + 1 }
      | _ => none
  | .osSemaphoreWait i =>
      match s.pc i with
      | .waiting k =>
          if s.readSemaphore then
            some { s with readSemaphore := false, pc := Function.update s.pc i (.reading k) }
          else
            none
      | _ => none
  | .timeout i =>
      match s.pc i with
      | .waiting _ =>
          if s.readSemaphore then none
          else some { s with pc := Function.update s.pc i .idle }
      | _ => none
  | .serialRead i =>
      match s.pc i with
      | .reading k =>
          match s.queue with
          | [] => some { s with pc := Function.update s.pc i .idle }
          | m :: queue =>
              some
                { s with
                  queue := queue
                  pc := Function.update s.pc i .idle
                  delivered :=
                    s.delivered ++ if returnsBuffer m.msg then [(k, m)] else [] }
      | _ => none
  | .serialRxHandler msg replyTo =>
      if s.rxIndication = false ∧ s.queue.length < toSerialInftQueueSize ∧
          replyTo.all (· < s.written) then
        some
          { s with
            queue := s.queue ++ [⟨msg, replyTo, s.written⟩]
            rxIndication := true }
      else
        none
  | .controlPathRxIndication =>
      if s.rxIndication then some { s with rxIndication := false, readSemaphore := true }
      else none

namespace CorrelationInv

/-- A command that goes on waiting or gives up keeps the invariant. -/
theorem update {s s' : State ι} (h : CorrelationInv s) {i : ι} {pc : Pc}
    (hpc : s'.pc = Function.update s.pc i pc)
    (hflight : pc.inFlight = none ∨ pc.inFlight = (s.pc i).inFlight)
    (hqueue : s'.queue = s.queue) (hcorrelated : Correlated s') :
    CorrelationInv s' := by
  have hold : ∀ j k, (s'.pc j).inFlight = some k → (s.pc j).inFlight = some k := by
    intro j k hj
    rw [hpc] at hj
    by_cases hji : j = i
    · subst hji
      rw [Function.update_self] at hj
      rcases hflight with hnone | hsame
      · rw [hnone] at hj
        cases hj
      · rw [← hsame]
        exact hj
    · rw [Function.update_of_ne hji] at hj
      exact hj
  constructor
  · intro j j' k l hj hj'
    exact h.single j j' k l (hold j k hj) (hold j' l hj')
  · rw [hqueue]
    intro j k hj
    exact h.answers j k (hold j k hj)
  · rw [hqueue]
    exact h.replied
  · exact hcorrelated

/-- After the only command in flight has read, none is in flight. -/
theorem read {s s' : State ι} (h : CorrelationInv s) {i : ι} {k : ℕ}
    (hi : (s.pc i).inFlight = some k) (hpc : s'.pc = Function.update s.pc i .idle)
    (hqueue : ∀ m ∈ s'.queue, m ∈ s.queue) (hcorrelated : Correlated s') :
    CorrelationInv s' := by
  have hidle : ∀ j l, (s'.pc j).inFlight ≠ some l := by
    intro j l hj
    rw [hpc] at hj
    by_cases hji : j = i
    · subst hji
      rw [Function.update_self] at hj
      cases hj
    · rw [Function.update_of_ne hji] at hj
      exact hji (h.single j i l k hj hi)
  constructor
  · intro j j' l l' hj
    exact absurd hj (hidle j l)
  · intro j l hj
    exact absurd hj (hidle j l)
  · intro m hm
    exact h.replied m (hqueue m hm)
  · exact hcorrelated

/-- The only command in flight is the one whose request is written. -/
theorem write {s : State ι} (h : CorrelationInv s) {i : ι}
    (hidle : ∀ j, (s.pc j).inFlight = none)
    (hdrained : ∀ m, s.queue.head? = some m → returnsBuffer m.msg = false) :
    CorrelationInv
      { s with pc := Function.update s.pc i (.waiting s.written), written := s.written + 1 } := by
  have honly : ∀ j k,
      (Function.update s.pc i (.waiting s.written) j).inFlight = some k → j = i := by
    intro j k hj
    by_contra hji
    rw [Function.update_of_ne hji, hidle] at hj
    cases hj
  constructor
  · intro j j' k l hj hj'
    rw [honly j k hj, honly j' l hj']
  · intro j k _ m hm hbuffer
    rw [hdrained m hm] at hbuffer
    cases hbuffer
  · exact h.replied
  · exact h.correlated

omit [DecidableEq ι] in
/-- The message that the command in flight reads is its answer, if it returns one. -/
theorem deliver {s : State ι} (h : CorrelationInv s) {i : ι} {k : ℕ} {m : Arrived}
    {queue : List Arrived} (hi : (s.pc i).inFlight = some k) (hqueue : s.queue = m :: queue) :
    ∀ l p, (l, p) ∈ s.delivered ++ (if returnsBuffer m.msg then [(k, m)] else []) →
      p.replyTo = some l ∧ l < p.arrivedAt := by
  intro l p hp
  rcases List.mem_append.1 hp with hold | hnew
  · exact h.correlated l p hold
  · by_cases hbuffer : returnsBuffer m.msg = true
    · rw [if_pos hbuffer] at hnew
      cases List.mem_singleton.1 hnew
      have hhead : s.queue.head? = some m := by
        rw [hqueue]
        rfl
      have hmem : m ∈ s.queue := by
        rw [hqueue]
        exact List.mem_cons_self
      have hreply := h.answers i k hi m hhead hbuffer
      exact ⟨hreply, h.replied m hmem k hreply⟩
    · rw [if_neg hbuffer] at hnew
      cases hnew

omit [DecidableEq ι] in
/-- A message that answers the command in flight, or comes behind another one. -/
theorem receive {s s' : State ι} (h : CorrelationInv s) {m : Arrived} (hpc : s'.pc = s.pc)
    (hqueue : s'.queue = s.queue ++ [m]) (hdelivered : s'.delivered = s.delivered)
    (hanswers : s.queue = [] → returnsBuffer m.msg = true →
      ∀ i k, (s.pc i).inFlight = some k → m.replyTo = some k)
    (hreplied : ∀ k, m.replyTo = some k → k < m.arrivedAt) : CorrelationInv s' := by
  constructor
  · rw [hpc]
    exact h.single
  · rw [hpc, hqueue]
    intro i k hi p hp hbuffer
    cases hold : s.queue with
    | nil =>
        rw [hold] at hp
        cases hp
        exact hanswers hold hbuffer i k hi
    | cons first rest =>
        rw [hold] at hp
        refine h.answers i k hi p ?_ hbuffer
        rw [hold]
        exact hp
  · rw [hqueue]
    intro p hp k hk
    rcases List.mem_append.1 hp with hold | hnew
    · exact h.replied p hold k hk
    · cases List.mem_singleton.1 hnew
      exact hreplied k hk
  · rw [Correlated, hdelivered]
    exact h.correlated

theorem step {s s' : State ι} {a : Action ι} (h : CorrelationInv s) (ha : Exclusive s a)
    (hs : Correlation.step s a = some s') : CorrelationInv s' := by
  cases a with
  | espHostedDriverWrite i =>
      simp only [Correlation.step] at hs
      split at hs
      · cases hs
        exact h.write ha.1 ha.2
      · cases hs
  | osSemaphoreWait i =>
      simp only [Correlation.step] at hs
      split at hs
      · rename_i k hpc
        split at hs
        · cases hs
          refine h.update rfl (Or.inr ?_) rfl h.correlated
          rw [hpc]
          rfl
        · cases hs
      · cases hs
  | timeout i =>
      simp only [Correlation.step] at hs
      split at hs
      · split at hs
        · cases hs
        · cases hs
          exact h.update rfl (Or.inl rfl) rfl h.correlated
      · cases hs
  | serialRead i =>
      simp only [Correlation.step] at hs
      split at hs
      · rename_i k hpc
        have hflight : (s.pc i).inFlight = some k := by
          rw [hpc]
          rfl
        split at hs
        · cases hs
          exact h.read hflight rfl (fun _ => id) h.correlated
        · rename_i m queue hqueue
          have hmem : ∀ p ∈ queue, p ∈ s.queue := by
            intro p hp
            rw [hqueue]
            exact List.mem_cons_of_mem m hp
          cases hs
          exact h.read hflight rfl hmem (h.deliver hflight hqueue)
      · cases hs
  | serialRxHandler msg replyTo =>
      simp only [Correlation.step] at hs
      split at hs
      · rename_i henabled
        cases hs
        refine h.receive rfl rfl rfl ha ?_
        intro k hk
        have hall := henabled.2.2
        rw [show replyTo = some k from hk] at hall
        simpa using hall
      · cases hs
  | controlPathRxIndication =>
      simp only [Correlation.step] at hs
      split at hs
      · cases hs
        exact ⟨h.single, h.answers, h.replied, h.correlated⟩
      · cases hs

end CorrelationInv

/-- In every run whose steps are exclusive, every command gets its own answer. -/
theorem correlated_of_exclusive {as : List (Action ι)}
    (h : Along step Exclusive (init : State ι) as) :
    Always step Correlated (init : State ι) as := by
  have hinv : Always step CorrelationInv (init : State ι) as :=
    always_of_along step (fun _ _ _ hi ha hs => hi.step ha hs) .init h
  exact hinv.mono step (fun _ hi => hi.correlated)

end Steps

/-- A command times out, its answer comes late, and the next command reads it. -/
def lateReplySchedule : List (Action Unit) :=
  [ .espHostedDriverWrite (), .timeout (), .serialRxHandler oneByteMessage (some 0),
    .controlPathRxIndication, .espHostedDriverWrite (), .osSemaphoreWait (),
    .serialRead () ]

theorem late_reply_delivered :
    ∃ s, run step init lateReplySchedule = some s ∧ ¬ Correlated s := by
  have hlog : (run step init lateReplySchedule).map State.delivered =
      some [(1, ⟨oneByteMessage, some 0, 1⟩)] := by decide
  obtain ⟨s, hrun, hdelivered⟩ := Option.map_eq_some_iff.1 hlog
  refine ⟨s, hrun, ?_⟩
  intro h
  have hwrong := h 1 ⟨oneByteMessage, some 0, 1⟩ (by rw [hdelivered]; exact List.mem_cons_self)
  cases hwrong.1

/-- Two tasks, whose commands are answered in time, one after the other. -/
def answeredSchedule : List (Action Bool) :=
  [ .espHostedDriverWrite false, .serialRxHandler threeByteMessage (some 0),
    .controlPathRxIndication, .osSemaphoreWait false, .serialRead false,
    .espHostedDriverWrite true, .serialRxHandler oneByteMessage (some 1),
    .controlPathRxIndication, .osSemaphoreWait true, .serialRead true ]

theorem correlated_answered : Always step Correlated init answeredSchedule := by
  refine correlated_of_exclusive ?_
  refine ⟨⟨fun _ => rfl, fun _ hm => nomatch hm⟩, fun s hs => ?_⟩
  cases hs
  refine ⟨fun _ _ i k hk => ?_, fun s hs => ?_⟩
  · cases i with
    | false => exact hk
    | true => cases hk
  cases hs
  refine ⟨trivial, fun s hs => ?_⟩
  cases hs
  refine ⟨trivial, fun s hs => ?_⟩
  cases hs
  refine ⟨trivial, fun s hs => ?_⟩
  cases hs
  refine ⟨⟨fun i => ?_, fun _ hm => nomatch hm⟩, fun s hs => ?_⟩
  · cases i <;> rfl
  cases hs
  refine ⟨fun _ _ i k hk => ?_, fun s hs => ?_⟩
  · cases i with
    | false => cases hk
    | true => exact hk
  cases hs
  refine ⟨trivial, fun s hs => ?_⟩
  cases hs
  refine ⟨trivial, fun s hs => ?_⟩
  cases hs
  exact ⟨trivial, fun s hs => trivial⟩

end Correlation

end Control

end EspHosted
