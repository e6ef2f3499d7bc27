import EspHosted.Driver.SpiSchedule

/-!
# Who waits for whom in the driver

A transfer that receives a frame puts it into `from_slave_queue` while it holds
`mutex_spi_trans`, and blocks there while the queue is full. Only `process_rx_task` takes
frames out, and its receive callback may call `network_write`, which blocks on
`to_slave_queue` and on the mutex. `Deadlocked` is the state in which each waits for the
other; `RxBlocked` is the one in which `process_rx_task` has received the frame itself. Both
are avoided while frames come in time for `process_rx_task` to take them out.

The tasks are those of `SpiSchedule` and `process_rx_task`; of the queues only the lengths
matter here. The slave sets the two lines and answers a transfer as it likes, so the
values that are read are part of the action.
-/

namespace EspHosted

namespace Spi

namespace Deadlock

open Machine

/-- `FROM_SLAVE_QUEUE_SIZE` -/
def fromSlaveQueueSize : ℕ := 10

/-- `none` is `process_rx_task`. -/
abbrev Agent (ι : Type) := Option (Task ι)

/-- The next call of a task. `idle` is the wait for work; `callback` is `process_rx_task`
with a frame at hand. -/
inductive Pc where
  | idle
  | callback
  | sendToSlave
  | readHandshake
  | readDataReady
  | getTxBuffer (gpioRxDataReady : Bool)
  | takeMutex
  | spiTransFunc
  | sendFromSlave
  | giveMutex
  deriving DecidableEq

structure State (ι : Type) where
  toSlaveQueue : ℕ
  fromSlaveQueue : ℕ
  mutexSpiTrans : Option (Agent ι)
  pc : Agent ι → Pc

/-- `networkWrite` is the call of `send_to_slave`, from a task or from the callback;
`received` says that a transfer has brought a frame. -/
inductive Action (ι : Type) where
  | osSemaphoreWait
  | networkWrite (a : Option ι)
  | xQueueSendToSlave (a : Agent ι)
  | readHandshake (a : Agent ι) (gpioHandshake : Bool)
  | readDataReady (a : Agent ι) (gpioRxDataReady : Bool)
  | getTxBuffer (a : Agent ι)
  | takeMutex (a : Agent ι)
  | spiTransFunc (a : Agent ι) (received : Bool)
  | xQueueSendFromSlave (a : Agent ι)
  | giveMutex (a : Agent ι)
  | xQueueReceive
  | callbackDone

section Wait

variable {ι : Type}

def init : State ι where
  toSlaveQueue := 0
  fromSlaveQueue := 0
  mutexSpiTrans := none
  pc := fun _ => .idle

/-- Where a task goes after `check_and_execute_spi_transaction`. -/
def afterCheck : Agent ι → Pc
  | none => .callback
  | some _ => .idle

/-- The task that calls `send_to_slave`. -/
def caller : Option ι → Agent ι
  | none => none
  | some i => some (.sender i)

/-- The task holds the mutex and waits for space in `from_slave_queue`. -/
def HolderBlocked (s : State ι) : Prop :=
  match s.mutexSpiTrans with
  | none => False
  | some a => s.pc a = .sendFromSlave ∧ s.fromSlaveQueue = fromSlaveQueueSize

/-- `process_rx_task` waits for the mutex or for space in `to_slave_queue`. -/
def RxWaits (s : State ι) : Prop :=
  s.pc none = .takeMutex ∨ s.pc none = .sendToSlave ∧ s.toSlaveQueue = toSlaveQueueSize

/-- The holder of the mutex waits for `process_rx_task`, and that for the holder. -/
def Deadlocked (s : State ι) : Prop := HolderBlocked s ∧ RxWaits s

/-- `process_rx_task` waits for space in the queue that only it empties. -/
def RxBlocked (s : State ι) : Prop :=
  s.pc none = .sendFromSlave ∧ s.fromSlaveQueue = fromSlaveQueueSize

/-- The callback of `process_rx_task` has called `network_write`. -/
def Answering (s : State ι) : Prop := s.pc none ≠ .idle ∧ s.pc none ≠ .callback

instance : DecidablePred (HolderBlocked : State ι → Prop) := fun s =>
  match h : s.mutexSpiTrans with
  | none => isFalse fun hb => by rw [HolderBlocked, h] at hb; exact hb
  | some a =>
      decidable_of_iff (s.pc a = .sendFromSlave ∧ s.fromSlaveQueue = fromSlaveQueueSize)
        (by rw [HolderBlocked, h])

instance : DecidablePred (RxWaits : State ι → Prop) := fun _ =>
  inferInstanceAs (Decidable (_ ∨ _ ∧ _))

instance : DecidablePred (Deadlocked : State ι → Prop) := fun _ =>
  inferInstanceAs (Decidable (_ ∧ _))

variable [DecidableEq ι]

def State.goto (s : State ι) (a : Agent ι) (pc : Pc) : State ι :=
  { s with pc := Function.update s.pc a pc }

def step (s : State ι) : Action ι → Option (State ι)
  | .osSemaphoreWait =>
      if s.pc (some .transactionTask) = .idle then
        some (s.goto (some .transactionTask) .readHandshake)
      else
        none
  | .networkWrite a =>
      if s.pc (caller a) = afterCheck (caller a) then some (s.goto (caller a) .sendToSlave)
      else none
  | .xQueueSendToSlave a =>
      if s.pc a = .sendToSlave ∧ s.toSlaveQueue < toSlaveQueueSize then
        some ({ s with toSlaveQueue := s.toSlaveQueue + 1 }.goto a .readHandshake)
      else
        none
  | .readHandshake a gpioHandshake =>
      if s.pc a = .readHandshake then
        some (s.goto a (if gpioHandshake then .readDataReady else afterCheck a))
      else
        none
  | .readDataReady a gpioRxDataReady =>
      if s.pc a = .readDataReady then some (s.goto a (.getTxBuffer gpioRxDataReady)) else none
  | .getTxBuffer a =>
      match s.pc a with
      | .getTxBuffer gpioRxDataReady =>
          some
            ({ s with toSlaveQueue := s.toSlaveQueue - 1 }.goto a
              (if 0 < s.toSlaveQueue ∨ gpioRxDataReady = true then .takeMutex else afterCheck a))
      | _ => none
  | .takeMutex a =>
      if s.pc a = .takeMutex ∧ s.mutexSpiTrans = none then
        some ({ s with mutexSpiTrans := some a }.goto a .spiTransFunc)
      else
        none
  | .spiTransFunc a received =>
      if s.pc a = .spiTransFunc then
        some (s.goto a (if received then .sendFromSlave else .giveMutex))
      else
        none
  | .xQueueSendFromSlave a =>
      if s.pc a = .sendFromSlave ∧ s.fromSlaveQueue < fromSlaveQueueSize then
        some ({ s with fromSlaveQueue := s.fromSlaveQueue + 1 }.goto a .giveMutex)
      else
        none
  | .giveMutex a =>
      if s.pc a = .giveMutex then
        some ({ s with mutexSpiTrans := none }.goto a (afterCheck a))
      else
        none
  | .xQueueReceive =>
      if s.pc none = .idle ∧ 0 < s.fromSlaveQueue then
        some ({ s with fromSlaveQueue := s.fromSlaveQueue - 1 }.goto none .callback)
      else
        none
  | .callbackDone => if s.pc none = .callback then some (s.goto none .idle) else none

/-- What a step can do: one rule for each action. -/
inductive Step (s : State ι) : Action ι → State ι → Prop where
  | osSemaphoreWait (hpc : s.pc (some .transactionTask) = .idle) :
      Step s .osSemaphoreWait (s.goto (some .transactionTask) .readHandshake)
  | networkWrite {a : Option ι} (hpc : s.pc (caller a) = afterCheck (caller a)) :
      Step s (.networkWrite a) (s.goto (caller a) .sendToSlave)
  | xQueueSendToSlave {a : Agent ι} (hpc : s.pc a = .sendToSlave)
      (hspace : s.toSlaveQueue < toSlaveQueueSize) :
      Step s (.xQueueSendToSlave a)
        ({ s with toSlaveQueue := s.toSlaveQueue + 1 }.goto a .readHandshake)
  | readHandshake {a : Agent ι} {gpioHandshake : Bool} (hpc : s.pc a = .readHandshake) :
      Step s (.readHandshake a gpioHandshake)
        (s.goto a (if gpioHandshake then .readDataReady else afterCheck a))
  | readDataReady {a : Agent ι} {gpioRxDataReady : Bool} (hpc : s.pc a = .readDataReady) :
      Step s (.readDataReady a gpioRxDataReady) (s.goto a (.getTxBuffer gpioRxDataReady))
  | getTxBuffer {a : Agent ι} {gpioRxDataReady : Bool}
      (hpc : s.pc a = .getTxBuffer gpioRxDataReady) :
      Step s (.getTxBuffer a)
        ({ s with toSlaveQueue := s.toSlaveQueue - 1 }.goto a
          (if 0 < s.toSlaveQueue ∨ gpioRxDataReady = true then .takeMutex else afterCheck a))
  | takeMutex {a : Agent ι} (hpc : s.pc a = .takeMutex) (hfree : s.mutexSpiTrans = none) :
      Step s (.takeMutex a) ({ s with mutexSpiTrans := some a }.goto a .spiTransFunc)
  | spiTransFunc {a : Agent ι} {received : Bool} (hpc : s.pc a = .spiTransFunc) :
      Step s (.spiTransFunc a received)
        (s.goto a (if received then .sendFromSlave else .giveMutex))
  | xQueueSendFromSlave {a : Agent ι} (hpc : s.pc a = .sendFromSlave)
      (hspace : s.fromSlaveQueue < fromSlaveQueueSize) :
      Step s (.xQueueSendFromSlave a)
        ({ s with fromSlaveQueue := s.fromSlaveQueue + 1 }.goto a .giveMutex)
  | giveMutex {a : Agent ι} (hpc : s.pc a = .giveMutex) :
      Step s (.giveMutex a) ({ s with mutexSpiTrans := none }.goto a (afterCheck a))
  | xQueueReceive (hpc : s.pc none = .idle) (hpos : 0 < s.fromSlaveQueue) :
      Step s .xQueueReceive
        ({ s with fromSlaveQueue := s.fromSlaveQueue - 1 }.goto none .callback)
  | callbackDone (hpc : s.pc none = .callback) : Step s .callbackDone (s.goto none .idle)

theorem Step.of_step {s s' : State ι} {a : Action ι} (h : step s a = some s') :
    Step s a s' := by
  cases a with
  | getTxBuffer a =>
      simp only [step] at h
      split at h
      · rename_i gpioRxDataReady hpc
        cases h
        exact .getTxBuffer hpc
      · cases h
  | osSemaphoreWait =>
      obtain ⟨hpc, heq⟩ := Option.ite_none_right_eq_some.1 h
      cases heq
      exact .osSemaphoreWait hpc
  | networkWrite a =>
      obtain ⟨hpc, heq⟩ := Option.ite_none_right_eq_some.1 h
      cases heq
      exact .networkWrite hpc
  | xQueueSendToSlave a =>
      obtain ⟨⟨hpc, hspace⟩, heq⟩ := Option.ite_none_right_eq_some.1 h
      cases heq
      exact .xQueueSendToSlave hpc hspace
  | readHandshake a gpioHandshake =>
      obtain ⟨hpc, heq⟩ := Option.ite_none_right_eq_some.1 h
      cases heq
      exact .readHandshake hpc
  | readDataReady a gpioRxDataReady =>
      obtain ⟨hpc, heq⟩ := Option.ite_none_right_eq_some.1 h
      cases heq
      exact .readDataReady hpc
  | takeMutex a =>
      obtain ⟨⟨hpc, hfree⟩, heq⟩ := Option.ite_none_right_eq_some.1 h
      cases heq
      exact .takeMutex hpc hfree
  | spiTransFunc a received =>
      obtain ⟨hpc, heq⟩ := Option.ite_none_right_eq_some.1 h
      cases heq
      exact .spiTransFunc hpc
  | xQueueSendFromSlave a =>
      obtain ⟨⟨hpc, hspace⟩, heq⟩ := Option.ite_none_right_eq_some.1 h
      cases heq
      exact .xQueueSendFromSlave hpc hspace
  | giveMutex a =>
      obtain ⟨hpc, heq⟩ := Option.ite_none_right_eq_some.1 h
      cases heq
      exact .giveMutex hpc
  | xQueueReceive =>
      obtain ⟨⟨hpc, hpos⟩, heq⟩ := Option.ite_none_right_eq_some.1 h
      cases heq
      exact .xQueueReceive hpc hpos
  | callbackDone =>
      obtain ⟨hpc, heq⟩ := Option.ite_none_right_eq_some.1 h
      cases heq
      exact .callbackDone hpc

end Wait

/-! ## The mutex -/

section Mutex

variable {ι : Type}

/-- The task is between `xSemaphoreTake` and `xSemaphoreGive`. -/
def Pc.insideMutex : Pc → Bool
  | .spiTransFunc | .sendFromSlave | .giveMutex => true
  | _ => false

theorem insideMutex_afterCheck (a : Agent ι) : (afterCheck a).insideMutex = false := by
  cases a <;> rfl

/-- What every run keeps: the queues stay within their sizes, and only the holder of the
mutex is inside. -/
structure Invariant (s : State ι) : Prop where
  toSlaveQueue : s.toSlaveQueue ≤ toSlaveQueueSize
  fromSlaveQueue : s.fromSlaveQueue ≤ fromSlaveQueueSize
  holder : ∀ a, (s.pc a).insideMutex = true → s.mutexSpiTrans = some a

theorem not_holderBlocked_of_free {s : State ι} (h : s.mutexSpiTrans = none) :
    ¬ HolderBlocked s := by
  intro hblocked
  rw [HolderBlocked, h] at hblocked
  exact hblocked

theorem HolderBlocked.full {s : State ι} (h : HolderBlocked s) :
    s.fromSlaveQueue = fromSlaveQueueSize := by
  unfold HolderBlocked at h
  split at h
  · exact h.elim
  · exact h.2

theorem HolderBlocked.pc_of_holder {s : State ι} (h : HolderBlocked s) {a : Agent ι}
    (ha : s.mutexSpiTrans = some a) : s.pc a = .sendFromSlave := by
  rw [HolderBlocked, ha] at h
  exact h.1

theorem Invariant.init : Invariant (init : State ι) where
  toSlaveQueue := Nat.zero_le _
  fromSlaveQueue := Nat.zero_le _
  holder := fun _ h => nomatch h

/-- Nobody is blocked by the full queue while `process_rx_task` is inside `network_write`. -/
def Draining (s : State ι) : Prop := Answering s → ¬ HolderBlocked s

theorem answering_of_rxWaits {s : State ι} (h : RxWaits s) : Answering s := by
  rcases h with htake | ⟨hsend, -⟩
  · rw [Answering, htake]
    exact ⟨by decide, by decide⟩
  · rw [Answering, hsend]
    exact ⟨by decide, by decide⟩

theorem Draining.not_deadlocked {s : State ι} (h : Draining s) : ¬ Deadlocked s :=
  fun hd => h (answering_of_rxWaits hd.2) hd.1

theorem Draining.not_rxBlocked {s : State ι} (h : Draining s) (hinv : Invariant s) :
    ¬ RxBlocked s := by
  rintro ⟨hsend, hfull⟩
  have hholder : s.mutexSpiTrans = some none := hinv.holder none (by rw [hsend]; rfl)
  refine h ?_ ?_
  · rw [Answering, hsend]
    exact ⟨by decide, by decide⟩
  · rw [HolderBlocked, hholder]
    exact ⟨hsend, hfull⟩

theorem draining_init : Draining (init : State ι) := fun h => absurd rfl h.1

variable [DecidableEq ι]

@[simp] theorem State.goto_pc_self (s : State ι) (a : Agent ι) (pc : Pc) :
    (s.goto a pc).pc a = pc := by
  simp [goto]

theorem State.goto_pc_of_ne (s : State ι) {a b : Agent ι} (h : b ≠ a) (pc : Pc) :
    (s.goto a pc).pc b = s.pc b := by
  simp [goto, h]

/-- A task that enters the code under the mutex holds it; the others stay where they are. -/
theorem Invariant.goto {s : State ι} (h : Invariant s) {a : Agent ι} {pc : Pc}
    (ha : pc.insideMutex = true → s.mutexSpiTrans = some a) : Invariant (s.goto a pc) where
  toSlaveQueue := h.toSlaveQueue
  fromSlaveQueue := h.fromSlaveQueue
  holder := by
    intro b hb
    by_cases hba : b = a
    · rw [hba, State.goto_pc_self] at hb
      rw [hba]
      exact ha hb
    · rw [State.goto_pc_of_ne s hba] at hb
      exact h.holder b hb

theorem Invariant.step {s s' : State ι} {a : Action ι} (h : Invariant s)
    (hs : Step s a s') : Invariant s' := by
  cases hs with
  | osSemaphoreWait hpc => exact h.goto fun hk => nomatch hk
  | networkWrite hpc => exact h.goto fun hk => nomatch hk
  | @xQueueSendToSlave b hpc hspace =>
      have hmore : Invariant { s with toSlaveQueue := s.toSlaveQueue + 1 } :=
        { h with toSlaveQueue := hspace }
      exact hmore.goto fun hk => nomatch hk
  | @readHandshake b gpioHandshake hpc =>
      refine h.goto fun hk => ?_
      cases gpioHandshake with
      | false =>
          rw [if_neg Bool.false_ne_true, insideMutex_afterCheck] at hk
          cases hk
      | true => cases hk
  | readDataReady hpc => exact h.goto fun hk => nomatch hk
  | @getTxBuffer b gpioRxDataReady hpc =>
      have hless : Invariant { s with toSlaveQueue := s.toSlaveQueue - 1 } :=
        { h with toSlaveQueue := (Nat.sub_le _ _).trans h.toSlaveQueue }
      refine hless.goto fun hk => ?_
      split at hk
      · cases hk
      · rw [insideMutex_afterCheck] at hk
        cases hk
  | @takeMutex b hpc hfree =>
      have hnone : ∀ c, (s.pc c).insideMutex = true → False := by
        intro c hc
        have hsome := h.holder c hc
        rw [hfree] at hsome
        cases hsome
      have htaken : Invariant { s with mutexSpiTrans := some b } :=
        { h with holder := fun c hc => (hnone c hc).elim }
      exact htaken.goto fun _ => rfl
  | @spiTransFunc b received hpc =>
      exact h.goto fun _ => h.holder b (by rw [hpc]; rfl)
  | @xQueueSendFromSlave b hpc hspace =>
      have hmore : Invariant { s with fromSlaveQueue := s.fromSlaveQueue + 1 } :=
        { h with fromSlaveQueue := hspace }
      exact hmore.goto fun _ => h.holder b (by rw [hpc]; rfl)
  | @giveMutex b hpc =>
      have hb : s.mutexSpiTrans = some b := h.holder b (by rw [hpc]; rfl)
      refine ⟨h.toSlaveQueue, h.fromSlaveQueue, fun c hc => ?_⟩
      by_cases hcb : c = b
      · rw [hcb, State.goto_pc_self, insideMutex_afterCheck] at hc
        cases hc
      · rw [State.goto_pc_of_ne _ hcb] at hc
        have hc' : s.mutexSpiTrans = some c := h.holder c hc
        rw [hb] at hc'
        exact absurd (Option.some.inj hc').symm hcb
  | xQueueReceive hpc hpos =>
      have hless : Invariant { s with fromSlaveQueue := s.fromSlaveQueue - 1 } :=
        { h with fromSlaveQueue := (Nat.sub_le _ _).trans h.fromSlaveQueue }
      exact hless.goto fun hk => nomatch hk
  | callbackDone hpc => exact h.goto fun hk => nomatch hk

end Mutex

/-! ## How the cycle closes -/

section Cycle

variable {ι : Type} [DecidableEq ι]

/-- A step of another task than the blocked holder does not change who is blocked. -/
theorem holderBlocked_goto {s : State ι} {a : Agent ι} {pc : Pc}
    (hold : s.pc a ≠ .sendFromSlave) (hnew : pc ≠ .sendFromSlave) :
    HolderBlocked (s.goto a pc) ↔ HolderBlocked s := by
  have hmutex : (s.goto a pc).mutexSpiTrans = s.mutexSpiTrans := rfl
  unfold HolderBlocked
  rw [hmutex]
  cases s.mutexSpiTrans with
  | none => exact Iff.rfl
  | some b =>
      by_cases hba : b = a
      · subst hba
        refine iff_of_false (fun h => hnew ?_) fun h => hold h.1
        rw [← State.goto_pc_self s b pc]
        exact h.1
      · change _ = _ ∧ s.fromSlaveQueue = _ ↔ _
        rw [State.goto_pc_of_ne s hba]

/-- What has to be so while `from_slave_queue` is full: no transfer brings a frame to a
`process_rx_task` inside `network_write`, and its callback does not call `network_write`
while a transfer that has brought a frame is under way. -/
def DrainsInTime (s : State ι) : Action ι → Prop
  | .spiTransFunc _ received =>
      received = true → s.fromSlaveQueue < fromSlaveQueueSize ∨ ¬ Answering s
  | .networkWrite none =>
      s.fromSlaveQueue < fromSlaveQueueSize ∨ ∀ a ∈ s.mutexSpiTrans, s.pc a ≠ .sendFromSlave
  | _ => True

instance : ∀ (s : State ι) (a : Action ι), Decidable (DrainsInTime s a)
  | _, .spiTransFunc _ _ => inferInstanceAs (Decidable (_ → _ ∨ ¬ (_ ∧ _)))
  | _, .networkWrite none => inferInstanceAs (Decidable (_ ∨ _))
  | _, .networkWrite (some _) | _, .osSemaphoreWait | _, .xQueueSendToSlave _
  | _, .readHandshake _ _ | _, .readDataReady _ _ | _, .getTxBuffer _ | _, .takeMutex _
  | _, .xQueueSendFromSlave _ | _, .giveMutex _ | _, .xQueueReceive | _, .callbackDone =>
      isTrue trivial

/-- The holder of the mutex is blocked when it has a frame and the queue is full. -/
theorem holderBlocked_goto_holder {s : State ι} {a : Agent ι} {pc : Pc}
    (ha : s.mutexSpiTrans = some a) :
    HolderBlocked (s.goto a pc) ↔
      pc = .sendFromSlave ∧ s.fromSlaveQueue = fromSlaveQueueSize := by
  have hmutex : (s.goto a pc).mutexSpiTrans = some a := ha
  unfold HolderBlocked
  rw [hmutex]
  change (s.goto a pc).pc a = _ ∧ _ ↔ _
  rw [State.goto_pc_self]
  exact Iff.rfl

/-- A task that neither leaves nor enters its `xQueueSend`, and does not enter
`network_write` if it is `process_rx_task`. -/
theorem Draining.goto {s : State ι} (h : Draining s) {a : Agent ι} {old pc : Pc}
    (hpc : s.pc a = old) (hold : old ≠ .sendFromSlave) (hnew : pc ≠ .sendFromSlave)
    (ha : a = none → old ≠ .idle ∧ old ≠ .callback) : Draining (s.goto a pc) := by
  subst hpc
  intro hanswering
  rw [holderBlocked_goto hold hnew]
  cases a with
  | none => exact h (ha rfl)
  | some t =>
      rw [Answering, State.goto_pc_of_ne s (Option.some_ne_none t).symm] at hanswering
      exact h hanswering

/-- The holder of the mutex goes on, and is not before a full queue. -/
theorem draining_goto_holder {s : State ι} {a : Agent ι} {pc : Pc}
    (ha : s.mutexSpiTrans = some a)
    (hpc : ¬ (pc = .sendFromSlave ∧ s.fromSlaveQueue = fromSlaveQueueSize)) :
    Draining (s.goto a pc) := by
  intro _
  rw [holderBlocked_goto_holder ha]
  exact hpc

theorem draining_spiTransFunc {s : State ι} (hinv : Invariant s) {a : Agent ι}
    {received : Bool} (hpc : s.pc a = .spiTransFunc)
    (hdrains : DrainsInTime s (.spiTransFunc a received)) :
    Draining (s.goto a (if received then .sendFromSlave else .giveMutex)) := by
  have ha : s.mutexSpiTrans = some a := hinv.holder a (by rw [hpc]; rfl)
  cases received with
  | false => exact draining_goto_holder ha fun h => nomatch h.1
  | true =>
      rcases hdrains rfl with hspace | hnot
      · exact draining_goto_holder ha fun hfull => Nat.ne_of_lt hspace hfull.2
      · cases a with
        | none =>
            refine absurd ?_ hnot
            rw [Answering, hpc]
            exact ⟨by decide, by decide⟩
        | some t =>
            intro hanswering
            rw [Answering, State.goto_pc_of_ne s (Option.some_ne_none t).symm] at hanswering
            exact absurd hanswering hnot

theorem draining_networkWrite {s : State ι} (hpc : s.pc none = .callback)
    (hdrains : DrainsInTime s (.networkWrite none)) : Draining (s.goto none .sendToSlave) := by
  have hold : s.pc none ≠ .sendFromSlave := by
    rw [hpc]
    decide
  intro _
  rw [holderBlocked_goto hold (by decide)]
  intro hblocked
  rcases hdrains with hspace | hfree
  · exact Nat.ne_of_lt hspace hblocked.full
  · cases hmutex : s.mutexSpiTrans with
    | none => exact not_holderBlocked_of_free hmutex hblocked
    | some a => exact hfree a hmutex (hblocked.pc_of_holder hmutex)

/-- One step that drains in time. -/
theorem Draining.step {s s' : State ι} {a : Action ι} (h : Draining s) (hinv : Invariant s)
    (hdrains : DrainsInTime s a) (hs : Step s a s') : Draining s' := by
  cases hs with
  | osSemaphoreWait hpc => exact h.goto hpc (by decide) (by decide) fun h => nomatch h
  | @networkWrite b hpc =>
      cases b with
      | none => exact draining_networkWrite hpc hdrains
      | some i => exact h.goto hpc (fun h => nomatch h) (by decide) fun h => nomatch h
  | @xQueueSendToSlave b hpc hspace =>
      have hmore : Draining { s with toSlaveQueue := s.toSlaveQueue + 1 } := h
      exact hmore.goto hpc (by decide) (by decide) fun _ => ⟨by decide, by decide⟩
  | @readHandshake b gpioHandshake hpc =>
      refine h.goto hpc (by decide) ?_ fun _ => ⟨by decide, by decide⟩
      cases gpioHandshake <;> cases b <;> exact fun h => nomatch h
  | readDataReady hpc =>
      exact h.goto hpc (by decide) (fun h => nomatch h) fun _ => ⟨by decide, by decide⟩
  | @getTxBuffer b gpioRxDataReady hpc =>
      have hless : Draining { s with toSlaveQueue := s.toSlaveQueue - 1 } := h
      refine hless.goto hpc (fun h => nomatch h) ?_ fun _ =>
        ⟨(fun h => nomatch h), fun h => nomatch h⟩
      split
      · exact fun h => nomatch h
      · cases b <;> exact fun h => nomatch h
  | @takeMutex b hpc hfree => exact draining_goto_holder rfl fun h => nomatch h.1
  | spiTransFunc hpc => exact draining_spiTransFunc hinv hpc hdrains
  | @xQueueSendFromSlave b hpc hspace =>
      have hb : s.mutexSpiTrans = some b := hinv.holder b (by rw [hpc]; rfl)
      exact draining_goto_holder hb fun h => nomatch h.1
  | giveMutex hpc => exact fun _ => not_holderBlocked_of_free rfl
  | xQueueReceive hpc hpos => exact fun h => absurd (State.goto_pc_self _ none _) h.2
  | callbackDone hpc => exact fun h => absurd (State.goto_pc_self s none _) h.1

/-- A step that does not drain in time lets a transfer block while `process_rx_task` is
inside `network_write`. -/
theorem not_draining_of_step {s s' : State ι} {a : Action ι} (hinv : Invariant s)
    (hdrains : ¬ DrainsInTime s a) (hs : Step s a s') : Answering s' ∧ HolderBlocked s' := by
  cases hs with
  | @networkWrite b hpc =>
      cases b with
      | some i => exact absurd trivial hdrains
      | none =>
          obtain ⟨hfull, hbusy⟩ := not_or.1 hdrains
          simp only [not_forall, not_not] at hbusy
          obtain ⟨a, ha, hsend⟩ := hbusy
          have hold : s.pc none ≠ .sendFromSlave := by
            intro hsend
            exact nomatch hpc.symm.trans hsend
          refine ⟨?_, ?_⟩
          · rw [Answering, caller, State.goto_pc_self]
            exact ⟨by decide, by decide⟩
          · rw [caller, holderBlocked_goto hold (by decide), HolderBlocked, Option.mem_def.1 ha]
            exact ⟨hsend, Nat.le_antisymm hinv.fromSlaveQueue (Nat.le_of_not_lt hfull)⟩
  | @spiTransFunc b received hpc =>
      have hb : s.mutexSpiTrans = some b := hinv.holder b (by rw [hpc]; rfl)
      cases received with
      | false => exact absurd (fun h => nomatch h) hdrains
      | true =>
          have hdrains' : ¬ (s.fromSlaveQueue < fromSlaveQueueSize ∨ ¬ Answering s) :=
            fun h => hdrains fun _ => h
          obtain ⟨hfull, hanswering⟩ := not_or.1 hdrains'
          rw [not_not] at hanswering
          refine ⟨?_, ?_⟩
          · cases b with
            | none =>
                rw [Answering, State.goto_pc_self]
                exact ⟨by decide, by decide⟩
            | some t =>
                rw [Answering, State.goto_pc_of_ne s (Option.some_ne_none t).symm]
                exact hanswering
          · rw [holderBlocked_goto_holder hb]
            exact ⟨rfl, Nat.le_antisymm hinv.fromSlaveQueue (Nat.le_of_not_lt hfull)⟩
  | _ => exact absurd trivial hdrains

/-- Some continuation ends in a deadlock, of the two tasks or of `process_rx_task` alone. -/
def Doomed (s : State ι) : Prop :=
  ∃ as t, run step s as = some t ∧ (Deadlocked t ∨ RxBlocked t)

theorem doomed_of_step {s s' : State ι} {a : Action ι} (h : step s a = some s')
    (hs' : Doomed s') : Doomed s := by
  obtain ⟨as, t, hrun, hend⟩ := hs'
  exact ⟨a :: as, t, by rw [run_cons, h]; exact hrun, hend⟩

section Doomed

variable {s : State ι} (hblocked : HolderBlocked s)

include hblocked

theorem doomed_of_deadlocked (hwaits : RxWaits s) : Doomed s :=
  ⟨[], s, rfl, Or.inl ⟨hblocked, hwaits⟩⟩

/-- `process_rx_task` goes on, and leaves the holder blocked. -/
theorem doomed_goto {a : Action ι} {n : ℕ} {old pc : Pc} (hpc : s.pc none = old)
    (hold : old ≠ .sendFromSlave) (hnew : pc ≠ .sendFromSlave)
    (hstep : step s a = some ({ s with toSlaveQueue := n }.goto none pc))
    (h : ∀ s' : State ι, HolderBlocked s' → s'.toSlaveQueue = n → s'.pc none = pc → Doomed s') :
    Doomed s := by
  subst hpc
  have hblocked' : HolderBlocked { s with toSlaveQueue := n } := hblocked
  refine doomed_of_step hstep (h _ ?_ rfl (State.goto_pc_self _ _ _))
  exact (holderBlocked_goto hold hnew).2 hblocked'

theorem doomed_getTxBuffer_work {gpioRxDataReady : Bool}
    (hpc : s.pc none = .getTxBuffer gpioRxDataReady)
    (hwork : 0 < s.toSlaveQueue ∨ gpioRxDataReady = true) : Doomed s := by
  have hstep : step s (.getTxBuffer none) =
      some ({ s with toSlaveQueue := s.toSlaveQueue - 1 }.goto none .takeMutex) := by
    simp only [step, hpc, if_pos hwork]
  refine doomed_goto hblocked hpc (fun h => nomatch h) (by decide) hstep ?_
  exact fun s' hblocked' _ hpc' => doomed_of_deadlocked hblocked' (Or.inl hpc')

theorem doomed_readDataReady (hpc : s.pc none = .readDataReady) : Doomed s := by
  have hstep : step s (.readDataReady none true) = some (s.goto none (.getTxBuffer true)) := by
    simp only [step, hpc, if_true]
  refine doomed_goto hblocked hpc (by decide) (by decide) hstep ?_
  exact fun s' hblocked' _ hpc' => doomed_getTxBuffer_work hblocked' hpc' (Or.inr rfl)

theorem doomed_readHandshake (hpc : s.pc none = .readHandshake) : Doomed s := by
  have hstep : step s (.readHandshake none true) = some (s.goto none .readDataReady) := by
    simp only [step, hpc, if_true]
  refine doomed_goto hblocked hpc (by decide) (by decide) hstep ?_
  exact fun s' hblocked' _ hpc' => doomed_readDataReady hblocked' hpc'

theorem doomed_sendToSlave (hle : s.toSlaveQueue ≤ toSlaveQueueSize)
    (hpc : s.pc none = .sendToSlave) : Doomed s := by
  by_cases hfull : s.toSlaveQueue = toSlaveQueueSize
  · exact doomed_of_deadlocked hblocked (Or.inr ⟨hpc, hfull⟩)
  · have hspace := Nat.lt_of_le_of_ne hle hfull
    have hstep : step s (.xQueueSendToSlave none) =
        some ({ s with toSlaveQueue := s.toSlaveQueue + 1 }.goto none .readHandshake) := by
      simp only [step, hpc, hspace, and_self, if_true]
    refine doomed_goto hblocked hpc (by decide) (by decide) hstep ?_
    exact fun s' hblocked' _ hpc' => doomed_readHandshake hblocked' hpc'

/-- The callback calls `network_write` once more. -/
theorem doomed_callback (hle : s.toSlaveQueue ≤ toSlaveQueueSize)
    (hpc : s.pc none = .callback) : Doomed s := by
  have hstep : step s (.networkWrite none) = some (s.goto none .sendToSlave) := by
    simp only [step, caller, afterCheck, hpc, if_true]
  refine doomed_goto hblocked hpc (by decide) (by decide) hstep ?_
  exact fun s' hblocked' hsame hpc' => doomed_sendToSlave hblocked' (hsame ▸ hle) hpc'

theorem doomed_getTxBuffer (hle : s.toSlaveQueue ≤ toSlaveQueueSize) {gpioRxDataReady : Bool}
    (hpc : s.pc none = .getTxBuffer gpioRxDataReady) : Doomed s := by
  by_cases hwork : 0 < s.toSlaveQueue ∨ gpioRxDataReady = true
  · exact doomed_getTxBuffer_work hblocked hpc hwork
  · have hstep : step s (.getTxBuffer none) =
        some ({ s with toSlaveQueue := s.toSlaveQueue - 1 }.goto none .callback) := by
      simp only [step, hpc, if_neg hwork, afterCheck]
    have hless : s.toSlaveQueue - 1 ≤ toSlaveQueueSize := (Nat.sub_le _ _).trans hle
    refine doomed_goto hblocked hpc (fun h => nomatch h) (by decide) hstep ?_
    exact fun s' hblocked' hsame hpc' => doomed_callback hblocked' (hsame ▸ hless) hpc'

/-- A blocked holder and a `process_rx_task` inside `network_write` can close the cycle. -/
theorem doomed_of_answering (hinv : Invariant s) (h : Answering s) : Doomed s := by
  have hinside : (s.pc none).insideMutex = true → Doomed s := fun hin =>
    ⟨[], s, rfl, Or.inr ⟨hblocked.pc_of_holder (hinv.holder none hin), hblocked.full⟩⟩
  cases hpc : s.pc none with
  | idle => exact absurd hpc h.1
  | callback => exact absurd hpc h.2
  | sendToSlave => exact doomed_sendToSlave hblocked hinv.toSlaveQueue hpc
  | readHandshake => exact doomed_readHandshake hblocked hpc
  | readDataReady => exact doomed_readDataReady hblocked hpc
  | getTxBuffer gpioRxDataReady => exact doomed_getTxBuffer hblocked hinv.toSlaveQueue hpc
  | takeMutex => exact doomed_of_deadlocked hblocked (Or.inl hpc)
  | spiTransFunc => exact hinside (by rw [hpc]; rfl)
  | sendFromSlave => exact hinside (by rw [hpc]; rfl)
  | giveMutex => exact hinside (by rw [hpc]; rfl)

end Doomed

/-- A run whose steps all drain `from_slave_queue` in time passes through no deadlock, and
any other run has begun so that it can go on to one. -/
theorem deadlock_free {as : List (Action ι)} {t : State ι}
    (hrun : run step init as = some t) :
    (Along step DrainsInTime (init : State ι) as →
      Always step (fun s => ¬ Deadlocked s ∧ ¬ RxBlocked s) (init : State ι) as) ∧
    (¬ Along step DrainsInTime (init : State ι) as →
      ∃ bs cs, bs <+: as ∧ ∃ u, run step (init : State ι) (bs ++ cs) = some u ∧
        (Deadlocked u ∨ RxBlocked u)) := by
  constructor
  · intro h
    have hdraining : Always step (fun s => Invariant s ∧ Draining s) (init : State ι) as := by
      refine always_of_along step ?_ ⟨.init, draining_init⟩ h
      intro s a s' hs hdrains hstep
      exact ⟨hs.1.step (.of_step hstep), hs.2.step hs.1 hdrains (.of_step hstep)⟩
    exact hdraining.mono step fun s hs => ⟨hs.2.not_deadlocked, hs.2.not_rxBlocked hs.1⟩
  · intro h
    rw [along_iff_forall step hrun] at h
    simp only [not_forall] at h
    obtain ⟨bs, a, cs, s, rfl, hbs, hdrains⟩ := h
    obtain ⟨s₁, hs₁, hrest⟩ := run_prefix step hrun
    rw [hbs] at hs₁
    cases hs₁
    rw [run_cons] at hrest
    obtain ⟨s', hstep, -⟩ := Option.bind_eq_some_iff.1 hrest
    have hinv : Invariant s :=
      run_invariant step (fun _ _ _ hi hs => hi.step (.of_step hs)) .init hbs
    obtain ⟨hanswering, hblocked⟩ := not_draining_of_step hinv hdrains (.of_step hstep)
    obtain ⟨ds, u, hds, hend⟩ :=
      doomed_of_answering hblocked (hinv.step (.of_step hstep)) hanswering
    refine ⟨bs ++ [a], ds, ⟨cs, by simp⟩, u, ?_, hend⟩
    rw [run_append, run_concat, hbs, Option.bind_some, hstep]
    exact hds

end Cycle

/-! ## The cycle through the mutex is final -/

section Stuck

variable {ι : Type}

/-- The deadlock in which `process_rx_task` waits for the mutex. -/
def Stuck (s : State ι) : Prop := HolderBlocked s ∧ s.pc none = .takeMutex

theorem Stuck.deadlocked {s : State ι} (h : Stuck s) : Deadlocked s :=
  ⟨h.1, Or.inl h.2⟩

variable [DecidableEq ι]

/-- The tasks that are not part of the cycle do not break it. -/
theorem Stuck.goto {s : State ι} (h : Stuck s) {a : Agent ι} {old pc : Pc} (hpc : s.pc a = old)
    (hsend : old ≠ .sendFromSlave) (hmutex : old ≠ .takeMutex) (hnew : pc ≠ .sendFromSlave) :
    Stuck (s.goto a pc) := by
  subst hpc
  refine ⟨(holderBlocked_goto hsend hnew).2 h.1, ?_⟩
  have ha : none ≠ a := by
    intro ha
    subst ha
    exact hmutex h.2
  rw [State.goto_pc_of_ne s ha]
  exact h.2

theorem Stuck.step {s s' : State ι} {a : Action ι} (hinv : Invariant s) (h : Stuck s)
    (hs : Step s a s') : Stuck s' := by
  obtain ⟨hblocked, hrx⟩ := h
  have hstuck : Stuck s := ⟨hblocked, hrx⟩
  -- the holder stands before its `xQueueSend`
  have hholder : ∀ {b pc}, s.pc b = pc → pc.insideMutex = true → pc = .sendFromSlave := by
    intro b pc hb hin
    subst hb
    exact hblocked.pc_of_holder (hinv.holder b hin)
  cases hs with
  | osSemaphoreWait hpc =>
      refine hstuck.goto hpc ?_ ?_ ?_
      all_goals exact fun h => nomatch h
  | @networkWrite b hpc =>
      refine hstuck.goto hpc ?_ ?_ ?_
      · cases b <;> exact fun h => nomatch h
      · cases b <;> exact fun h => nomatch h
      · exact fun h => nomatch h
  | @xQueueSendToSlave b hpc hspace =>
      have hmore : Stuck { s with toSlaveQueue := s.toSlaveQueue + 1 } := hstuck
      refine hmore.goto hpc ?_ ?_ ?_
      all_goals exact fun h => nomatch h
  | @readHandshake b gpioHandshake hpc =>
      refine hstuck.goto hpc (fun h => nomatch h) (fun h => nomatch h) ?_
      cases gpioHandshake <;> cases b <;> exact fun h => nomatch h
  | readDataReady hpc =>
      refine hstuck.goto hpc ?_ ?_ ?_
      all_goals exact fun h => nomatch h
  | @getTxBuffer b gpioRxDataReady hpc =>
      have hless : Stuck { s with toSlaveQueue := s.toSlaveQueue - 1 } := hstuck
      refine hless.goto hpc (fun h => nomatch h) (fun h => nomatch h) ?_
      split
      · exact fun h => nomatch h
      · cases b <;> exact fun h => nomatch h
  | takeMutex hpc hfree => exact (not_holderBlocked_of_free hfree hblocked).elim
  | spiTransFunc hpc => cases hholder hpc rfl
  | xQueueSendFromSlave hpc hspace => exact absurd hblocked.full (Nat.ne_of_lt hspace)
  | giveMutex hpc => cases hholder hpc rfl
  | xQueueReceive hpc hpos => cases hpc.symm.trans hrx
  | callbackDone hpc => cases hpc.symm.trans hrx

/-- Once `process_rx_task` waits for a holder that waits for it, it waits in every
continuation of the run. -/
theorem run_stuck {as bs : List (Action ι)} {s t : State ι} (hrun : run step init as = some s)
    (h : Stuck s) (hrest : run step s bs = some t) : Deadlocked t := by
  have hinv : Invariant s :=
    run_invariant step (fun _ _ _ hi hs => hi.step (.of_step hs)) .init hrun
  have hboth : Invariant t ∧ Stuck t :=
    run_invariant step (I := fun s => Invariant s ∧ Stuck s)
      (fun _ _ _ hi hs => ⟨hi.1.step (.of_step hs), hi.2.step hi.1 (.of_step hs)⟩)
      ⟨hinv, h⟩ hrest
  exact hboth.2.deadlocked

end Stuck

/-- `transaction_task` receives one frame. -/
def receiveFrame : List (Action Unit) :=
  let a := some .transactionTask
  [ .osSemaphoreWait, .readHandshake a true, .readDataReady a true, .getTxBuffer a, .takeMutex a,
    .spiTransFunc a true, .xQueueSendFromSlave a, .giveMutex a ]

/-- A burst fills the queue behind the frame that `process_rx_task` answers; the answer and
the next frame come at the same time. -/
def answerInBurst : List (Action Unit) :=
  let a := some .transactionTask
  receiveFrame ++ [.xQueueReceive] ++ (List.replicate 10 receiveFrame).flatten ++
    [ .networkWrite none, .xQueueSendToSlave none, .readHandshake none true,
      .readDataReady none true, .osSemaphoreWait, .readHandshake a true, .readDataReady a true,
      .getTxBuffer none, .getTxBuffer a, .takeMutex a, .spiTransFunc a true ]

theorem answer_in_burst_deadlocks :
    ∃ s, run step init answerInBurst = some s ∧ Deadlocked s := by
  have hend : (run step init answerInBurst).map (fun s => decide (Deadlocked s)) = some true := by
    decide +kernel
  obtain ⟨s, hrun, hdead⟩ := Option.map_eq_some_iff.1 hend
  exact ⟨s, hrun, of_decide_eq_true hdead⟩

/-- The answer goes out while `from_slave_queue` has space. -/
def answerAlone : List (Action Unit) :=
  receiveFrame ++
    [ .xQueueReceive, .networkWrite none, .xQueueSendToSlave none, .readHandshake none true,
      .readDataReady none true, .getTxBuffer none, .takeMutex none, .spiTransFunc none true,
      .xQueueSendFromSlave none, .giveMutex none, .callbackDone ]

theorem deadlock_free_answer_alone :
    Always step (fun s => ¬ Deadlocked s ∧ ¬ RxBlocked s) (init : State Unit) answerAlone := by
  have hsome : (run step (init : State Unit) answerAlone).isSome = true := by decide
  obtain ⟨s, hrun⟩ := Option.isSome_iff_exists.1 hsome
  exact (deadlock_free hrun).1 (by decide)

end Deadlock

end Spi

end EspHosted
