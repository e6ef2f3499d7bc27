import EspHosted.Lib.Machine
import EspHosted.Driver.SpiFrame
import Mathlib.Logic.Function.Basic

/-!
# The tasks that drive the SPI bus

`transaction_task` and any number of tasks inside `send_to_slave` run
`check_and_execute_spi_transaction` next to each other. Their atomic steps are the
`xQueueSend` to `to_slave_queue`, the two pin reads, the `xQueueReceive` inside
`get_tx_buffer`, taking the mutex, the transfer, and giving the mutex. The slave
lowers the handshake line in every transfer and raises both lines when it likes;
a rising edge releases `osSemaphore` in `HAL_GPIO_EXTI_Callback`.

`step` is the executable machine, `Step` lists what a step can do, one rule a
branch. The fields `enqueued`, `dequeued` and `transferred` are logs that no
branch reads.
-/

namespace EspHosted

namespace Spi

/-- `TO_SLAVE_QUEUE_SIZE` -/
def toSlaveQueueSize : ℕ := 10

inductive Task (ι : Type) where
  | transactionTask
  | sender (i : ι)
  deriving DecidableEq

/-- An entry of `to_slave_queue`, numbered in the order of the `xQueueSend` calls. -/
structure Queued where
  seq : ℕ
  handle : InterfaceBufferHandle
  sendable : Sendable handle

/-- Where a task stands. `idle` is the wait on `osSemaphore` for the transaction
task, and being outside `send_to_slave` for a sender. -/
inductive Pc where
  | idle
  | readHandshake
  | readDataReady (gpioHandshake : Bool)
  | getTxBuffer (gpioRxDataReady : Bool)
  | takeMutex (txbuff : Option Queued)
  | spiTransFunc (txbuff : Option Queued)
  | giveMutex

structure State (ι : Type) where
  osSemaphore : Bool
  handshake : Bool
  dataReady : Bool
  toSlaveQueue : List Queued
  mutexSpiTrans : Option (Task ι)
  pc : Task ι → Pc
  enqueued : List Queued
  dequeued : List Queued
  transferred : List (Queued × HalStatus)

inductive Action (ι : Type) where
  | xQueueSend (i : ι) (ifaceType ifaceNum : UInt8) (wlen : UInt16) (wbuffer : WBuffer wlen)
  | osSemaphoreWait
  | readHandshake (t : Task ι)
  | readDataReady (t : Task ι)
  | getTxBuffer (t : Task ι)
  | takeMutex (t : Task ι)
  | spiTransFunc (t : Task ι) (retval : HalStatus)
  | giveMutex (t : Task ι)
  | raiseHandshake
  | raiseDataReady
  | lowerDataReady

section Steps

variable {ι : Type} [DecidableEq ι]

/-- After `stm_spi_init`: the binary semaphore is created available, the queue is
empty, and the lines are as the slave has them. -/
def init (handshake dataReady : Bool) : State ι where
  osSemaphore := true
  handshake := handshake
  dataReady := dataReady
  toSlaveQueue := []
  mutexSpiTrans := none
  pc := fun _ => .idle
  enqueued := []
  dequeued := []
  transferred := []

def State.setPc (s : State ι) (t : Task ι) (pc : Pc) : State ι :=
  { s with pc := Function.update s.pc t pc }

/-- `HAL_GPIO_EXTI_Callback` -/
def State.halGpioExtiCallback (s : State ι) : State ι := { s with osSemaphore := true }

/-- The frame `get_tx_buffer` makes of the head of the queue, named by its entry. -/
def txbuffOf (q : Option Queued) : Option Queued :=
  if (Spi.getTxBuffer (q.map Queued.handle)).isValidTxBuf then q else none

def step (s : State ι) : Action ι → Option (State ι)
  | .xQueueSend i ifaceType ifaceNum wlen wbuffer =>
      match s.pc (.sender i) with
      | .idle =>
          match hq : (sendToSlave ifaceType ifaceNum wlen (some wbuffer) true).queued with
          | none => none
          | some h =>
              if s.toSlaveQueue.length < toSlaveQueueSize then
                let q : Queued := ⟨s.enqueued.length, h, sendable_of_sendToSlave hq⟩
                some
                  { s with
                    toSlaveQueue := s.toSlaveQueue ++ [q]
                    enqueued := s.enqueued ++ [q]
                    pc := Function.update s.pc (.sender i) .readHandshake }
              else
                none
      | _ => none
  | .osSemaphoreWait =>
      match s.pc .transactionTask with
      | .idle =>
          if s.osSemaphore then
            some ({ s with osSemaphore := false }.setPc .transactionTask .readHandshake)
          else
            none
      | _ => none
  | .readHandshake t =>
      match s.pc t with
      | .readHandshake => some (s.setPc t (.readDataReady s.handshake))
      | _ => none
  | .readDataReady t =>
      match s.pc t with
      | .readDataReady gpioHandshake =>
          if gpioHandshake then
            some (s.setPc t (.getTxBuffer s.dataReady))
          else
            some (s.setPc t .idle)
      | _ => none
  | .getTxBuffer t =>
      match s.pc t with
      | .getTxBuffer gpioRxDataReady =>
          let txbuff := txbuffOf s.toSlaveQueue.head?
          let s' :=
            { s with
              toSlaveQueue := s.toSlaveQueue.tail
              dequeued := s.dequeued ++ s.toSlaveQueue.head?.toList }
          if gpioRxDataReady || txbuff.isSome then
            some (s'.setPc t (.takeMutex txbuff))
          else
            some (s'.setPc t .idle)
      | _ => none
  | .takeMutex t =>
      match s.pc t, s.mutexSpiTrans with
      | .takeMutex txbuff, none =>
          some ({ s with mutexSpiTrans := some t }.setPc t (.spiTransFunc txbuff))
      | _, _ => none
  | .spiTransFunc t retval =>
      match s.pc t with
      | .spiTransFunc txbuff =>
          some
            ({ s with
                handshake := false
                transferred := s.transferred ++ (txbuff.toList.map fun q => (q, retval)) }.setPc
              t .giveMutex)
      | _ => none
  | .giveMutex t =>
      match s.pc t with
      | .giveMutex => some ({ s with mutexSpiTrans := none }.setPc t .idle)
      | _ => none
  | .raiseHandshake =>
      if s.handshake then none else some { s with handshake := true }.halGpioExtiCallback
  | .raiseDataReady =>
      if s.dataReady then none else some { s with dataReady := true }.halGpioExtiCallback
  | .lowerDataReady => some { s with dataReady := false }

/-- What a step can do: one rule for each branch of the source. -/
inductive Step (s : State ι) : Action ι → State ι → Prop where
  | xQueueSend {i : ι} {ifaceType ifaceNum : UInt8} {wlen : UInt16} {wbuffer : WBuffer wlen}
      (q : Queued) (hpc : s.pc (.sender i) = .idle) (hseq : q.seq = s.enqueued.length) :
      Step s (.xQueueSend i ifaceType ifaceNum wlen wbuffer)
        { s with
          toSlaveQueue := s.toSlaveQueue ++ [q]
          enqueued := s.enqueued ++ [q]
          pc := Function.update s.pc (.sender i) .readHandshake }
  | osSemaphoreWait (hpc : s.pc .transactionTask = .idle) (hsem : s.osSemaphore = true) :
      Step s .osSemaphoreWait
        ({ s with osSemaphore := false }.setPc .transactionTask .readHandshake)
  | readHandshake {t : Task ι} (hpc : s.pc t = .readHandshake) :
      Step s (.readHandshake t) (s.setPc t (.readDataReady s.handshake))
  | handshakeSet {t : Task ι} (hpc : s.pc t = .readDataReady true) :
      Step s (.readDataReady t) (s.setPc t (.getTxBuffer s.dataReady))
  | handshakeReset {t : Task ι} (hpc : s.pc t = .readDataReady false) :
      Step s (.readDataReady t) (s.setPc t .idle)
  | validTxBuf {t : Task ι} {gpioRxDataReady : Bool} {q : Queued} {rest : List Queued}
      (hpc : s.pc t = .getTxBuffer gpioRxDataReady) (hqueue : s.toSlaveQueue = q :: rest) :
      Step s (.getTxBuffer t)
        ({ s with toSlaveQueue := rest, dequeued := s.dequeued ++ [q] }.setPc t
          (.takeMutex (some q)))
  | onlyDataReady {t : Task ι} (hpc : s.pc t = .getTxBuffer true)
      (hqueue : s.toSlaveQueue = []) :
      Step s (.getTxBuffer t) (s.setPc t (.takeMutex none))
  | nothingToDo {t : Task ι} (hpc : s.pc t = .getTxBuffer false)
      (hqueue : s.toSlaveQueue = []) :
      Step s (.getTxBuffer t) (s.setPc t .idle)
  | takeMutex {t : Task ι} {txbuff : Option Queued} (hpc : s.pc t = .takeMutex txbuff)
      (hfree : s.mutexSpiTrans = none) :
      Step s (.takeMutex t)
        ({ s with mutexSpiTrans := some t }.setPc t (.spiTransFunc txbuff))
  | spiTransFunc {t : Task ι} {txbuff : Option Queued} {retval : HalStatus}
      (hpc : s.pc t = .spiTransFunc txbuff) :
      Step s (.spiTransFunc t retval)
        ({ s with
            handshake := false
            transferred := s.transferred ++ (txbuff.toList.map fun q => (q, retval)) }.setPc
          t .giveMutex)
  | giveMutex {t : Task ι} (hpc : s.pc t = .giveMutex) :
      Step s (.giveMutex t) ({ s with mutexSpiTrans := none }.setPc t .idle)
  | raiseHandshake (hlow : s.handshake = false) :
      Step s .raiseHandshake { s with handshake := true }.halGpioExtiCallback
  | raiseDataReady (hlow : s.dataReady = false) :
      Step s .raiseDataReady { s with dataReady := true }.halGpioExtiCallback
  | lowerDataReady : Step s .lowerDataReady { s with dataReady := false }

/-- Every entry of the queue makes a valid frame. -/
@[simp] theorem txbuffOf_some (q : Queued) : txbuffOf (some q) = some q := by
  rw [txbuffOf, Option.map_some, q.sendable.getTxBuffer_eq]
  rfl

@[simp] theorem txbuffOf_none : txbuffOf none = none := rfl

theorem Step.of_step {s s' : State ι} {a : Action ι} (h : step s a = some s') :
    Step s a s' := by
  cases a with
  | xQueueSend i ifaceType ifaceNum wlen wbuffer =>
      simp only [step] at h
      split at h
      · rename_i hpc
        split at h
        · cases h
        · split at h
          · cases h
            exact .xQueueSend _ hpc rfl
          · cases h
      · cases h
  | osSemaphoreWait =>
      simp only [step] at h
      split at h
      · rename_i hpc
        split at h
        · rename_i hsem
          cases h
          exact .osSemaphoreWait hpc hsem
        · cases h
      · cases h
  | readHandshake t =>
      simp only [step] at h
      split at h
      · rename_i hpc
        cases h
        exact .readHandshake hpc
      · cases h
  | readDataReady t =>
      simp only [step] at h
      split at h
      · rename_i gpioHandshake hpc
        cases gpioHandshake <;> cases h
        · exact .handshakeReset hpc
        · exact .handshakeSet hpc
      · cases h
  | getTxBuffer t =>
      simp only [step] at h
      split at h
      · rename_i gpioRxDataReady hpc
        cases hqueue : s.toSlaveQueue with
        | nil =>
            rw [hqueue] at h
            have hs : { s with toSlaveQueue := [], dequeued := s.dequeued ++ [] } = s := by
              rw [List.append_nil, ← hqueue]
            cases gpioRxDataReady
            · simp only [List.head?_nil, txbuffOf_none, List.tail_nil, Option.toList_none,
                hs, Bool.false_or, Option.isSome_none, Bool.false_eq_true, if_false,
                Option.some.injEq] at h
              subst h
              exact .nothingToDo hpc hqueue
            · simp only [List.head?_nil, txbuffOf_none, List.tail_nil, Option.toList_none,
                hs, Bool.true_or, if_true, Option.some.injEq] at h
              subst h
              exact .onlyDataReady hpc hqueue
        | cons q rest =>
            simp only [hqueue, List.head?_cons, txbuffOf_some, List.tail_cons,
              Option.toList_some, Option.isSome_some, Bool.or_true, if_true,
              Option.some.injEq] at h
            subst h
            exact .validTxBuf hpc hqueue
      · cases h
  | takeMutex t =>
      simp only [step] at h
      split at h
      · rename_i hpc hfree
        cases h
        exact .takeMutex hpc hfree
      · cases h
  | spiTransFunc t retval =>
      simp only [step] at h
      split at h
      · rename_i hpc
        cases h
        exact .spiTransFunc hpc
      · cases h
  | giveMutex t =>
      simp only [step] at h
      split at h
      · rename_i hpc
        cases h
        exact .giveMutex hpc
      · cases h
  | raiseHandshake =>
      simp only [step] at h
      split at h
      · cases h
      · rename_i hlow
        cases h
        exact .raiseHandshake (Bool.not_eq_true _ ▸ hlow)
  | raiseDataReady =>
      simp only [step] at h
      split at h
      · cases h
      · rename_i hlow
        cases h
        exact .raiseDataReady (Bool.not_eq_true _ ▸ hlow)
  | lowerDataReady =>
      cases h
      exact .lowerDataReady

@[simp] theorem State.setPc_pc_self (s : State ι) (t : Task ι) (pc : Pc) :
    (s.setPc t pc).pc t = pc := by
  simp [setPc]

theorem State.setPc_pc_of_ne (s : State ι) {t u : Task ι} (h : u ≠ t) (pc : Pc) :
    (s.setPc t pc).pc u = s.pc u := by
  simp [setPc, h]

end Steps

end Spi

end EspHosted
