import EspHosted.Control.SerialIf
import EspHosted.Control.Transport
import EspHosted.Lib.Machine

/-!
# A restart of the slave

A private frame with the `INIT` event makes `process_rx_task` run
`control_path_platform_init`, which creates `readSemaphore`, grabs it, takes a handle
from `serial_init`, and opens it. Other frames and the commands of any number of tasks
go on around these steps.

`serial_init` counts its handles and hands out one only, and nothing closes it
before the second event, so the control path survives one event and no more. After a
failed assertion the program has stopped. `handled` is a log that no branch reads.
-/

namespace EspHosted

namespace Control

namespace Restart

open Machine SerialIf
open Spi (WBuffer RxHandle rxPath)

/-- Where `process_rx_task` stands. -/
inductive RxPc where
  | receive
  | osSemaphoreCreate
  | osSemaphoreWait
  | serialInit
  | serialOpen (serialHdl : ℕ)
  | indication
  deriving DecidableEq

/-- Where a command stands, with the semaphore it waits on. -/
inductive CmdPc where
  | idle
  | waiting (semaphore : ℕ)
  | reading

/-- `semaphores` are those created so far; `readSemaphore` is one of them. -/
structure State (ι : Type) where
  serial : Statics
  semaphores : List Bool
  readSemaphore : Option ℕ
  serialIfG : Option ℕ
  rx : RxPc
  cmd : ι → CmdPc
  handled : Bool
  assertFailed : Bool

inductive Action (ι : Type) where
  | xQueueReceive (h : RxHandle)
  | osSemaphoreCreate (created : Bool)
  | grabSemaphore
  | serialInit (malloc : Bool)
  | serialOpen (queueCreate : Bool)
  | controlPathRxIndication
  | espHostedDriverWrite (i : ι) (inCount : ℕ) (buf : WBuffer (UInt16.ofNat inCount))
      (queueSend : Bool)
  | osSemaphoreWait (i : ι)
  | timeout (i : ι)
  | serialRead (i : ι)

/-- The copy of a serial frame that `process_rx_task` makes. -/
def serialBuf (h : RxHandle) : Message :=
  ⟨h.1.data, by
    have hle : h.1.payloadLen ≤ maxPayloadSize := h.2
    have hmax : maxPayloadSize = 1588 := rfl
    rw [InterfaceBufferHandle.length_data]
    omega⟩

/-- The queue of the handle takes one message more; without a handle nothing is sent. -/
def hasRoom (s : Statics) (ifNum : UInt8) : Bool :=
  match getSerialHandle s ifNum with
  | none => true
  | some (_, h) => decide ((h.queue.getD []).length < queueSize)

section Usable

variable {ι : Type}

/-- Before the first event. -/
def init : State ι where
  serial := .init
  semaphores := []
  readSemaphore := none
  serialIfG := none
  rx := .receive
  cmd := fun _ => .idle
  handled := false
  assertFailed := false

/-- The handle behind `serial_if_g`: `some none` for `NULL`, `none` for a pointer to a
freed block, which the program must not follow. -/
def pointee (s : State ι) : Option (Option SerialHandle) :=
  match s.serialIfG with
  | none => some none
  | some serialHdl => (s.serial.heap serialHdl).map fun h => some h.view

/-- `serial_if_g` is a registered handle; requests are accepted, and a message for its
interface comes into its queue. -/
structure Serves (s : State ι) (p : ℕ) (h : Handle) : Prop where
  serialIfG : s.serialIfG = some p
  registered : s.serial.Registered p h
  writes : ∀ inCount (buf : WBuffer (UInt16.ofNat inCount)), inCount ≠ 0 →
    Accepted (UInt16.ofNat inCount) true →
      (espHostedDriverWrite (some h.view) inCount buf true).ret = .STM_OK
  replies : ∀ msg, ∃ queue, h.queue = some queue ∧
    (serialRxHandler s.serial h.ifNum msg true).2.heap p =
      some { h with queue := some (queue ++ [msg]) }

theorem serves_of_registered {s : State ι} {p : ℕ} {h : Handle}
    (hptr : s.serialIfG = some p) (hr : s.serial.Registered p h) : Serves s p h := by
  constructor
  · exact hptr
  · exact hr
  · intro inCount buf hcount haccepted
    have hstate : h.view.state = .ACTIVE := hr.active
    rw [espHostedDriverWrite_of_accepted hstate hcount buf haccepted]
  · intro msg
    obtain ⟨queue, hqueue⟩ := Option.isSome_iff_exists.1 hr.queue
    refine ⟨queue, hqueue, ?_⟩
    rw [serialRxHandler_of_registered hr, (hr.mapQueue_self _).live, hqueue]
    rfl

/-- `serial_open` comes next. -/
def RxPc.isSerialOpen : RxPc → Bool
  | .serialOpen _ => true
  | _ => false

/-- `control_path_platform_init` is running. -/
def RxPc.Initializing : RxPc → Prop
  | .receive => False
  | .indication => False
  | _ => True

/-- No assertion has failed, and once an event was handled the control path can be used.
Nothing more is asked of the states in which an event is being handled: a second one may
wait for ever in `osSemaphoreWait`, when a command takes its new semaphore. -/
structure Good (s : State ι) : Prop where
  assertFailed : s.assertFailed = false
  usable : s.handled = true → ¬ s.rx.Initializing → ∃ p h, Serves s p h

/-- The allocations of an event succeed, and its `serial_init` is the first. -/
def Permitted (s : State ι) : Action ι → Prop
  | .osSemaphoreCreate created => created = true
  | .serialInit malloc => malloc = true ∧ s.serial.connNum = 0
  | .serialOpen queueCreate => queueCreate = true
  | _ => True

/-- The allocations of the step succeed. -/
def Action.succeeds : Action ι → Bool
  | .osSemaphoreCreate created => created
  | .serialInit malloc => malloc
  | .serialOpen queueCreate => queueCreate
  | _ => true

def Action.isSerialInit : Action ι → Bool
  | .serialInit _ => true
  | _ => false

/-- At most one event gets to `serial_init`, and no allocation fails. -/
def InitOnce (as : List (Action ι)) : Prop :=
  as.countP Action.isSerialInit ≤ 1 ∧ ∀ a ∈ as, a.succeeds = true

end Usable

section Steps

variable {ι : Type} [DecidableEq ι]

/-- `osSemaphoreRelease` on `readSemaphore`, which is binary. -/
def State.release (s : State ι) : State ι :=
  match s.readSemaphore with
  | none => s
  | some k => { s with semaphores := s.semaphores.set k true }

def State.setCmd (s : State ι) (i : ι) (pc : CmdPc) : State ι :=
  { s with cmd := Function.update s.cmd i pc }

/-- `process_rx_task` takes a frame. While the queue of the serial handle is full it
blocks. -/
def receive (s : State ι) (h : RxHandle) : Option (State ι) :=
  match rxPath h.1 with
  | .serial =>
      if hasRoom s.serial h.1.ifNum then
        match serialRxHandler s.serial h.1.ifNum (serialBuf h) true with
        | (.STM_OK, serial) => some { s with serial := serial, rx := .indication }
        | (.STM_FAIL, serial) => some { s with serial := serial }
      else
        none
  | .privInit => some { s with rx := .osSemaphoreCreate }
  | .network => some s
  | .priv => some s
  | .unknown => some s

/-- `serial_init` and the assertion on its result. -/
def initSerial (s : State ι) (malloc : Bool) : State ι :=
  match serialInit s.serial malloc with
  | none => { s with assertFailed := true }
  | some (serial, none) => { s with serial := serial, serialIfG := none, assertFailed := true }
  | some (serial, some p) =>
      { s with serial := serial, serialIfG := some p, rx := .serialOpen p }

def step (s : State ι) (a : Action ι) : Option (State ι) :=
  if s.assertFailed then
    none
  else
    match a with
    | .xQueueReceive h => if s.rx = .receive then receive s h else none
    | .osSemaphoreCreate created =>
        if s.rx = .osSemaphoreCreate then
          if created then
            some
              { s with
                semaphores := s.semaphores ++ [true]
                readSemaphore := some s.semaphores.length
                rx := .osSemaphoreWait }
          else
            some { s with readSemaphore := none, assertFailed := true }
        else
          none
    | .grabSemaphore =>
        match s.readSemaphore with
        | none => none
        | some k =>
            if s.rx = .osSemaphoreWait ∧ s.semaphores.getD k false = true then
              some { s with semaphores := s.semaphores.set k false, rx := .serialInit }
            else
              none
    | .serialInit malloc => if s.rx = .serialInit then some (initSerial s malloc) else none
    | .serialOpen queueCreate =>
        match s.rx with
        | .serialOpen p =>
            (s.serial.heap p).map fun h =>
              { s with
                serial := (serialOpen s.serial p h queueCreate).2
                rx := .receive
                handled := true }
        | _ => none
    | .controlPathRxIndication =>
        if s.rx = .indication then some { s.release with rx := .receive } else none
    | .espHostedDriverWrite i inCount buf queueSend =>
        match s.cmd i with
        | .idle =>
            (pointee s).map fun serialIf =>
              match (espHostedDriverWrite serialIf inCount buf queueSend).ret,
                s.readSemaphore with
              | .STM_OK, some k => s.setCmd i (.waiting k)
              | _, _ => s
        | _ => none
    | .osSemaphoreWait i =>
        match s.cmd i with
        | .waiting k =>
            if s.semaphores.getD k false then
              some ({ s with semaphores := s.semaphores.set k false }.setCmd i .reading)
            else
              none
        | _ => none
    | .timeout i =>
        match s.cmd i with
        | .waiting k => if s.semaphores.getD k false then none else some (s.setCmd i .idle)
        | _ => none
    | .serialRead i =>
        match s.cmd i with
        | .reading =>
            match s.serialIfG with
            | none => some (s.setCmd i .idle)
            | some p =>
                (s.serial.heap p).map fun h =>
                  { s with
                    serial :=
                      s.serial.mapQueue p h fun _ =>
                        (serialRead h.view).serialHdl.queue }.setCmd i .idle
        | _ => none

end Steps

/-- How far the first event has come. -/
inductive Phase (serial : Statics) (serialIfG : Option ℕ) (handled : Bool) : RxPc → Prop
  | before {rx : RxPc} (hhandled : handled = false) (hconn : serial.connNum = 0)
      (hptr : serialIfG = none) (hrx : rx.isSerialOpen = false) :
      Phase serial serialIfG handled rx
  | opening {p : ℕ} {h : Handle} (hhandled : handled = false) (hconn : serial.connNum = 1)
      (hptr : serialIfG = some p) (hlive : serial.heap p = some h) (hnum : h.ifNum = 0)
      (hregistered : serial.interfaceHandleG[0]? = some (some p)) :
      Phase serial serialIfG handled (.serialOpen p)
  | up {rx : RxPc} {p : ℕ} {h : Handle} (hconn : serial.connNum = 1)
      (hptr : serialIfG = some p) (hregistered : serial.Registered p h)
      (hrx : rx.isSerialOpen = false) :
      Phase serial serialIfG handled rx

/-- What a run with `n` calls of `serial_init` keeps, as long as nothing went wrong. -/
structure Core {ι : Type} (n : ℕ) (s : State ι) : Prop where
  assertFailed : s.assertFailed = false
  length : s.serial.interfaceHandleG.length = maxSerialIntf
  connNum : s.serial.connNum = n
  phase : Phase s.serial s.serialIfG s.handled s.rx

namespace Phase

variable {serial : Statics} {serialIfG : Option ℕ} {handled : Bool} {rx rx' : RxPc}

/-- Outside `serial_open` only the globals count. -/
theorem move (h : Phase serial serialIfG handled rx) (hold : rx.isSerialOpen = false)
    (hnew : rx'.isSerialOpen = false) : Phase serial serialIfG handled rx' := by
  cases h with
  | before hhandled hconn hptr _ => exact .before hhandled hconn hptr hnew
  | opening => cases hold
  | up hconn hptr hregistered _ => exact .up hconn hptr hregistered hnew

/-- A queue may change at any time. -/
theorem mapQueue (h : Phase serial serialIfG handled rx) {q : ℕ} {hdl : Handle}
    (hq : serial.heap q = some hdl) (f : List Message → List Message) :
    Phase (serial.mapQueue q hdl f) serialIfG handled rx := by
  cases h with
  | before hhandled hconn hptr hrx => exact .before hhandled hconn hptr hrx
  | @opening p hdl' hhandled hconn hptr hlive hnum hregistered =>
      by_cases hqp : q = p
      · subst hqp
        have heq : hdl = hdl' := Option.some.inj (hq.symm.trans hlive)
        rw [heq]
        exact .opening hhandled hconn hptr (Function.update_self _ _ _) hnum hregistered
      · refine .opening hhandled hconn hptr ?_ hnum hregistered
        rw [← hlive]
        exact Function.update_of_ne (Ne.symm hqp) _ serial.heap
  | up hconn hptr hregistered hrx =>
      obtain ⟨hdl', hregistered'⟩ := hregistered.mapQueue hq f
      exact .up hconn hptr hregistered' hrx

theorem connNum_le (h : Phase serial serialIfG handled rx) : serial.connNum ≤ 1 := by
  cases h with
  | before _ hconn => exact hconn.le.trans (Nat.zero_le 1)
  | opening _ hconn => exact hconn.le
  | up hconn => exact hconn.le

end Phase

namespace Core

variable {ι : Type} {n : ℕ}

theorem init : Core 0 (Restart.init : State ι) := by
  constructor
  · rfl
  · rfl
  · rfl
  · exact .before rfl rfl rfl rfl

theorem good {s : State ι} (h : Core n s) : Good s := by
  constructor
  · exact h.assertFailed
  · intro hhandled hrx
    generalize hs : s.rx = rx at hrx
    have hphase := h.phase
    rw [hs] at hphase
    cases hphase with
    | before hnot => exact absurd hhandled (by rw [hnot]; exact Bool.false_ne_true)
    | opening => exact absurd trivial hrx
    | up _ hptr hregistered => exact ⟨_, _, serves_of_registered hptr hregistered⟩

/-- A received frame does not touch what the first event has set up. -/
theorem receive {s s' : State ι} (h : Core n s) (hrx : s.rx = .receive) {frame : RxHandle}
    (hs : Restart.receive s frame = some s') : Core n s' := by
  have hphase := h.phase
  rw [hrx] at hphase
  simp only [Restart.receive] at hs
  split at hs
  · split at hs
    · simp only [serialRxHandler] at hs
      split at hs
      · rename_i heq
        cases hs
        split at heq
        · cases heq
        · rename_i hget
          cases heq
          refine ⟨h.assertFailed, h.length, h.connNum, ?_⟩
          have hmap := hphase.mapQueue (live_of_getSerialHandle hget)
            fun queue => queue ++ [serialBuf frame]
          exact hmap.move rfl rfl
      · rename_i heq
        cases hs
        split at heq
        · cases heq
          exact h
        · cases heq
    · cases hs
  · cases hs
    exact ⟨h.assertFailed, h.length, h.connNum, hphase.move rfl rfl⟩
  · cases hs
    exact h
  · cases hs
    exact h
  · cases hs
    exact h

/-- The first `serial_init` registers its handle under number 0. -/
theorem initSerial {s : State ι} (h : Core n s) (hrx : s.rx = .serialInit)
    (hconn : s.serial.connNum = 0) : Core (n + 1) (Restart.initSerial s true) := by
  have hlen : 0 < s.serial.interfaceHandleG.length := by
    rw [h.length]
    exact Nat.two_pos
  have hphase := h.phase
  rw [hrx] at hphase
  cases hphase with
  | before hhandled _ _ _ =>
      simp only [Restart.initSerial, serialInit, hconn]
      constructor
      · exact h.assertFailed
      · exact (List.length_set).trans h.length
      · change 0 + 1 = n + 1
        rw [← h.connNum, hconn]
      · refine .opening hhandled rfl rfl (Function.update_self _ _ _) rfl ?_
        exact List.getElem?_set_self hlen
  | up hone => exact absurd (hone.symm.trans hconn) Nat.one_ne_zero

theorem permitted_of_initSerial {s : State ι} (h : Core n s) {malloc : Bool}
    (hgood : (Restart.initSerial s malloc).assertFailed = false) :
    malloc = true ∧ s.serial.connNum = 0 := by
  have hle := h.phase.connNum_le
  rcases Nat.le_one_iff_eq_zero_or_eq_one.1 hle with hzero | hone
  · cases malloc with
    | true => exact ⟨rfl, hzero⟩
    | false =>
        simp only [Restart.initSerial, serialInit, hzero] at hgood
        cases hgood
  · simp only [Restart.initSerial, serialInit, hone] at hgood
    cases hgood

/-- When the queue cannot be created, `serial_if_g` points to a freed handle. -/
theorem not_good_of_cleanup {s : State ι} (h : Core n s) {p : ℕ}
    (hrx : s.rx = .serialOpen p) (hdl : Handle) :
    ¬ Good
      { s with
        serial := (SerialIf.serialOpen s.serial p hdl false).2
        rx := .receive
        handled := true } := by
  intro hgood
  obtain ⟨q, hdl', hserves⟩ := hgood.usable rfl id
  have hphase := h.phase
  rw [hrx] at hphase
  cases hphase with
  | opening _ _ hptr =>
      have hqp : q = p := Option.some.inj (hserves.serialIfG.symm.trans hptr)
      have hlive := hserves.registered.live
      subst hqp
      simp [SerialIf.serialOpen, serialCleanup, serialClose] at hlive
  | before _ _ _ hnot => cases hnot
  | up _ _ _ hnot => cases hnot

theorem serialOpen {s : State ι} (h : Core n s) {p : ℕ} (hrx : s.rx = .serialOpen p)
    {hdl : Handle} (hlive : s.serial.heap p = some hdl) :
    Core n
      { s with
        serial := (SerialIf.serialOpen s.serial p hdl true).2
        rx := .receive
        handled := true } := by
  have hphase := h.phase
  rw [hrx] at hphase
  cases hphase with
  | @opening _ hdl' hhandled hconn hptr hlive' hnum hregistered =>
      have heq : hdl = hdl' := Option.some.inj (hlive.symm.trans hlive')
      subst heq
      constructor
      · exact h.assertFailed
      · exact h.length
      · exact h.connNum
      · refine .up (p := p) (h := { hdl with queue := some [], state := .ACTIVE }) hconn hptr ?_
          rfl
        constructor
        · exact Function.update_self _ _ _
        · change s.serial.interfaceHandleG[hdl.ifNum.toNat]? = some (some p)
          rw [hnum]
          exact hregistered
        · change hdl.ifNum.toNat < maxSerialIntf
          rw [hnum]
          exact Nat.two_pos
        · rfl
        · rfl
  | before _ _ _ hnot => cases hnot
  | up _ _ _ hnot => cases hnot

theorem permitted_iff {s : State ι} (h : Core n s) (a : Action ι) :
    Permitted s a ↔ n + a.isSerialInit.toNat ≤ 1 ∧ a.succeeds = true := by
  have hle : n ≤ 1 := h.connNum ▸ h.phase.connNum_le
  cases a with
  | serialInit malloc =>
      change malloc = true ∧ s.serial.connNum = 0 ↔ n + 1 ≤ 1 ∧ malloc = true
      have hzero : n + 1 ≤ 1 ↔ n = 0 := Nat.succ_le_succ_iff.trans Nat.le_zero
      rw [h.connNum, hzero, and_comm]
  | osSemaphoreCreate created => exact (and_iff_right hle).symm
  | serialOpen queueCreate => exact (and_iff_right hle).symm
  | _ => exact iff_of_true trivial ⟨hle, rfl⟩

variable [DecidableEq ι]

/-- A permitted step keeps the core. -/
theorem keep {s s' : State ι} {a : Action ι} (h : Core n s) (ha : Permitted s a)
    (hs : step s a = some s') : Core (n + a.isSerialInit.toNat) s' := by
  have hmove : ∀ {rx : RxPc}, s.rx.isSerialOpen = false → rx.isSerialOpen = false →
      Phase s.serial s.serialIfG s.handled rx := h.phase.move
  have hrunning : ¬ s.assertFailed = true := by
    rw [h.assertFailed]
    exact Bool.false_ne_true
  unfold step at hs
  rw [if_neg hrunning] at hs
  cases a with
  | xQueueReceive frame =>
      simp only at hs
      split at hs
      · rename_i hrx
        exact h.receive hrx hs
      · cases hs
  | osSemaphoreCreate created =>
      simp only [show created = true from ha, if_true] at hs
      split at hs
      · rename_i hrx
        cases hs
        exact ⟨h.assertFailed, h.length, h.connNum, hmove (by rw [hrx]; rfl) rfl⟩
      · cases hs
  | grabSemaphore =>
      simp only at hs
      split at hs
      · cases hs
      · split at hs
        · rename_i henabled
          cases hs
          exact ⟨h.assertFailed, h.length, h.connNum, hmove (by rw [henabled.1]; rfl) rfl⟩
        · cases hs
  | serialInit malloc =>
      simp only [ha.1] at hs
      split at hs
      · rename_i hrx
        cases hs
        exact h.initSerial hrx ha.2
      · cases hs
  | serialOpen queueCreate =>
      simp only [show queueCreate = true from ha] at hs
      split at hs
      · rename_i p hrx
        obtain ⟨hdl, hlive, hs⟩ := Option.map_eq_some_iff.1 hs
        cases hs
        exact h.serialOpen hrx hlive
      · cases hs
  | controlPathRxIndication =>
      simp only at hs
      split at hs
      · rename_i hrx
        cases hs
        simp only [State.release]
        split
        · exact ⟨h.assertFailed, h.length, h.connNum, hmove (by rw [hrx]; rfl) rfl⟩
        · exact ⟨h.assertFailed, h.length, h.connNum, hmove (by rw [hrx]; rfl) rfl⟩
      · cases hs
  | espHostedDriverWrite i inCount buf queueSend =>
      simp only at hs
      split at hs
      · obtain ⟨serialIf, -, hs⟩ := Option.map_eq_some_iff.1 hs
        split at hs
        · cases hs
          exact ⟨h.assertFailed, h.length, h.connNum, h.phase⟩
        · cases hs
          exact h
      · cases hs
  | osSemaphoreWait i =>
      simp only at hs
      split at hs
      · split at hs
        · cases hs
          exact ⟨h.assertFailed, h.length, h.connNum, h.phase⟩
        · cases hs
      · cases hs
  | timeout i =>
      simp only at hs
      split at hs
      · split at hs
        · cases hs
        · cases hs
          exact ⟨h.assertFailed, h.length, h.connNum, h.phase⟩
      · cases hs
  | serialRead i =>
      simp only at hs
      split at hs
      · split at hs
        · cases hs
          exact ⟨h.assertFailed, h.length, h.connNum, h.phase⟩
        · obtain ⟨hdl, hlive, hs⟩ := Option.map_eq_some_iff.1 hs
          cases hs
          exact ⟨h.assertFailed, h.length, h.connNum, h.phase.mapQueue hlive _⟩
      · cases hs

/-- A step that is not permitted breaks the control path. -/
theorem leave {s s' : State ι} {a : Action ι} (h : Core n s) (hs : step s a = some s')
    (hgood : Good s') : Permitted s a := by
  have hrunning : ¬ s.assertFailed = true := by
    rw [h.assertFailed]
    exact Bool.false_ne_true
  unfold step at hs
  rw [if_neg hrunning] at hs
  cases a with
  | osSemaphoreCreate created =>
      cases created with
      | true => rfl
      | false =>
          simp only at hs
          split at hs
          · cases hs
            cases hgood.assertFailed
          · cases hs
  | serialInit malloc =>
      simp only at hs
      split at hs
      · rename_i hrx
        cases hs
        exact h.permitted_of_initSerial hgood.assertFailed
      · cases hs
  | serialOpen queueCreate =>
      cases queueCreate with
      | true => rfl
      | false =>
          simp only at hs
          split at hs
          · rename_i p hrx
            obtain ⟨hdl, hlive, hs⟩ := Option.map_eq_some_iff.1 hs
            cases hs
            exact absurd hgood (h.not_good_of_cleanup hrx hdl)
          · cases hs
  | _ => trivial

end Core

section Runs

variable {ι : Type} [DecidableEq ι]

/-- A run whose steps are permitted calls `serial_init` at most once, and none of its
allocations fails. -/
theorem along_permitted_iff {n : ℕ} {s t : State ι} {as : List (Action ι)} (h : Core n s)
    (hrun : run step s as = some t) :
    Along step Permitted s as ↔
      n + as.countP Action.isSerialInit ≤ 1 ∧ ∀ a ∈ as, a.succeeds = true := by
  induction as generalizing n s with
  | nil =>
      have hle : n ≤ 1 := h.connNum ▸ h.phase.connNum_le
      exact iff_of_true trivial ⟨hle, fun _ ha => nomatch ha⟩
  | cons a as ih =>
      rw [run_cons] at hrun
      obtain ⟨s', ha, hrest⟩ := Option.bind_eq_some_iff.1 hrun
      have hcount : (a :: as).countP Action.isSerialInit =
          a.isSerialInit.toNat + as.countP Action.isSerialInit := by
        rw [List.countP_cons, Nat.add_comm]
        cases a.isSerialInit with
        | false => rfl
        | true => rfl
      rw [along_cons step ha, hcount, List.forall_mem_cons, ← Nat.add_assoc]
      constructor
      · rintro ⟨hp, hrest'⟩
        obtain ⟨hinits, hall⟩ := (ih (h.keep hp ha) hrest).1 hrest'
        exact ⟨hinits, ((h.permitted_iff a).1 hp).2, hall⟩
      · rintro ⟨hinits, hsucceeds, hall⟩
        have hp : Permitted s a :=
          (h.permitted_iff a).2 ⟨(Nat.le_add_right _ _).trans hinits, hsucceeds⟩
        exact ⟨hp, (ih (h.keep hp ha) hrest).2 ⟨hinits, hall⟩⟩

/-- The control path survives every event of a run exactly when at most one of them
gets to `serial_init` and no allocation fails. -/
theorem control_path_survives_iff {as : List (Action ι)} {t : State ι}
    (hrun : run step init as = some t) :
    Always step Good (init : State ι) as ↔ InitOnce as := by
  rw [always_iff_along_of_core step (K := fun s => ∃ n, Core n s) (P := Permitted)
    (fun s ⟨_, h⟩ => h.good) (fun s a s' ⟨_, h⟩ ha hs => ⟨_, h.keep ha hs⟩)
    (fun s a s' ⟨_, h⟩ hs hgood => h.leave hs hgood) ⟨0, .init⟩ hrun]
  rw [along_permitted_iff .init hrun, Nat.zero_add, InitOnce]

end Runs

/-- A private frame with the `INIT` event. -/
def initEvent : RxHandle :=
  ⟨{ ifType := espPrivIf, ifNum := 0, payload := [espPrivEventInit], payloadLen := 1
     payloadLen_le := by decide }, by decide⟩

/-- The slave starts, and all allocations succeed. -/
def startSchedule : List (Action Unit) :=
  [ .xQueueReceive initEvent, .osSemaphoreCreate true, .grabSemaphore, .serialInit true,
    .serialOpen true ]

/-- The slave starts a second time: `serial_init` returns `NULL`. -/
def restartSchedule : List (Action Unit) :=
  startSchedule ++
    [.xQueueReceive initEvent, .osSemaphoreCreate true, .grabSemaphore, .serialInit true]

theorem restart_breaks_control_path :
    ∃ s, run step init restartSchedule = some s ∧ ¬ Good s := by
  have hend : (run step init restartSchedule).map
      (fun s => (s.serialIfG, s.assertFailed)) = some (none, true) := by decide
  obtain ⟨s, hrun, heq⟩ := Option.map_eq_some_iff.1 hend
  refine ⟨s, hrun, ?_⟩
  intro hgood
  rw [hgood.assertFailed] at heq
  exact Bool.false_ne_true (congrArg Prod.snd heq)

theorem control_path_survives_start :
    ∃ s, run step init startSchedule = some s ∧ Always step Good init startSchedule := by
  have hsome : (run step init startSchedule).isSome = true := by decide
  obtain ⟨s, hrun⟩ := Option.isSome_iff_exists.1 hsome
  exact ⟨s, hrun, (control_path_survives_iff hrun).2 ⟨by decide, by decide⟩⟩

end Restart

end Control

end EspHosted
