import EspHosted.Control.Platform
import Mathlib.Logic.Function.Basic

/-!
# The handles of the serial interface

`serialInit` makes a handle and registers it under the next connection number,
`serialOpen` gives it a queue, `serialRxHandler` finds it again by that number. The
statics of the file and the handles on the heap are one state; an address whose
handle was freed holds none.
-/

namespace EspHosted

namespace Control

namespace SerialIf

/-- `MAX_SERIAL_INTF` -/
def maxSerialIntf : ℕ := 2

/-- `TO_SERIAL_INFT_QUEUE_SIZE` -/
def queueSize : ℕ := 100

/-- `serial_handle_t`; the queue is `NULL` before `serial_open`. -/
structure Handle where
  ifType : UInt8
  ifNum : UInt8
  state : SerialState
  queue : Option (List Message)

/-- The handle as its operations see it. -/
def Handle.view (h : Handle) : SerialHandle where
  ifType := h.ifType
  ifNum := h.ifNum
  state := h.state
  queue := h.queue.getD []

/-- The statics of the file, the live handles by their addresses, and the address the
next handle gets. -/
structure Statics where
  interfaceHandleG : List (Option ℕ)
  connNum : ℕ
  heap : ℕ → Option Handle
  next : ℕ

/-- The statics before the first call. -/
def Statics.init : Statics where
  interfaceHandleG := List.replicate maxSerialIntf none
  connNum := 0
  heap := fun _ => none
  next := 0

/-- A handle is live, registered under its own number, active, and has a queue. -/
structure Statics.Registered (s : Statics) (p : ℕ) (h : Handle) : Prop where
  live : s.heap p = some h
  registered : s.interfaceHandleG[h.ifNum.toNat]? = some (some p)
  inRange : h.ifNum.toNat < maxSerialIntf
  active : h.state = .ACTIVE
  queue : h.queue.isSome

/-- `serial_init`: the handle, or `NULL` when there are too many; `none` when the
assertion on `malloc` fails. -/
def serialInit (s : Statics) (malloc : Bool) : Option (Statics × Option ℕ) :=
  if s.connNum + 1 < maxSerialIntf then
    if malloc then
      let serialHdl : Handle :=
        { ifType := espSerialIf
          ifNum := UInt8.ofNat s.connNum
          state := .INIT
          queue := none }
      some
        ( { interfaceHandleG := s.interfaceHandleG.set s.connNum (some s.next)
            connNum := s.connNum + 1
            heap := Function.update s.heap s.next (some serialHdl)
            next := s.next + 1 },
          some s.next )
    else
      none
  else
    some (s, none)

/-- `serial_close` frees the handle and takes the last connection number back. -/
def serialClose (s : Statics) (serialHdl : ℕ) : Statics :=
  { s with
    interfaceHandleG :=
      if 0 < s.connNum then s.interfaceHandleG.set (s.connNum - 1) none
      else s.interfaceHandleG
    connNum := s.connNum - 1
    heap := Function.update s.heap serialHdl none }

/-- `serial_cleanup`: the store of `DESTROY` after the close goes to a freed block,
which holds no handle any more. -/
def serialCleanup (s : Statics) (serialHdl : ℕ) : Statics :=
  let s := serialClose s serialHdl
  { s with
    heap := Function.update s.heap serialHdl
      ((s.heap serialHdl).map fun h => { h with state := .DESTROY }) }

/-- `serial_open` on a live handle; `queueCreate` is the outcome of `xQueueCreate`. -/
def serialOpen (s : Statics) (serialHdl : ℕ) (h : Handle) (queueCreate : Bool) :
    StmRet × Statics :=
  if queueCreate then
    (.STM_OK,
      { s with
        heap := Function.update s.heap serialHdl
          (some { h with queue := some [], state := .ACTIVE }) })
  else
    (.STM_FAIL, serialCleanup s serialHdl)

/-- `get_serial_handle` -/
def getSerialHandle (s : Statics) (ifaceNum : UInt8) : Option (ℕ × Handle) :=
  if ifaceNum.toNat < maxSerialIntf then
    match s.interfaceHandleG[ifaceNum.toNat]? with
    | some (some serialHdl) =>
        match s.heap serialHdl with
        | some h => if h.state = .ACTIVE then some (serialHdl, h) else none
        | none => none
    | _ => none
  else
    none

/-- The queue of a live handle changes. -/
def Statics.mapQueue (s : Statics) (serialHdl : ℕ) (h : Handle)
    (f : List Message → List Message) : Statics :=
  { s with heap := Function.update s.heap serialHdl (some { h with queue := h.queue.map f }) }

/-- `serial_rx_handler` up to its callback; `queueSend` is the outcome of
`xQueueSend`. -/
def serialRxHandler (s : Statics) (ifNum : UInt8) (rxbuff : Message) (queueSend : Bool) :
    StmRet × Statics :=
  match getSerialHandle s ifNum with
  | none => (.STM_FAIL, s)
  | some (serialHdl, h) =>
      if queueSend then
        (.STM_OK, s.mapQueue serialHdl h fun queue => queue ++ [rxbuff])
      else
        (.STM_FAIL, s)

section Registered

variable {s : Statics} {p : ℕ} {h : Handle}

theorem getSerialHandle_of_registered (hr : s.Registered p h) :
    getSerialHandle s h.ifNum = some (p, h) := by
  simp only [getSerialHandle, hr.inRange, hr.registered, hr.live, hr.active, if_true]

theorem live_of_getSerialHandle {ifNum : UInt8} (hg : getSerialHandle s ifNum = some (p, h)) :
    s.heap p = some h := by
  simp only [getSerialHandle] at hg
  split at hg
  · split at hg
    · split at hg
      · rename_i hlive
        split at hg
        · cases hg
          exact hlive
        · cases hg
      · cases hg
    · cases hg
  · cases hg

theorem active_of_getSerialHandle {ifNum : UInt8}
    (hg : getSerialHandle s ifNum = some (p, h)) : h.state = .ACTIVE := by
  simp only [getSerialHandle] at hg
  split at hg
  · split at hg
    · split at hg
      · split at hg
        · rename_i hactive
          cases hg
          exact hactive
        · cases hg
      · cases hg
    · cases hg
  · cases hg

theorem registered_of_getSerialHandle {ifNum : UInt8}
    (hg : getSerialHandle s ifNum = some (p, h)) :
    s.interfaceHandleG[ifNum.toNat]? = some (some p) := by
  simp only [getSerialHandle] at hg
  split at hg
  · split at hg
    · rename_i hslot
      split at hg
      · split at hg
        · cases hg
          exact hslot
        · cases hg
      · cases hg
    · cases hg
  · cases hg

theorem Statics.Registered.mapQueue_self (hr : s.Registered p h)
    (f : List Message → List Message) :
    (s.mapQueue p h f).Registered p { h with queue := h.queue.map f } := by
  constructor
  · exact Function.update_self p _ s.heap
  · exact hr.registered
  · exact hr.inRange
  · exact hr.active
  · rw [Option.isSome_map]
    exact hr.queue

/-- A registered handle stays registered when the queue of some handle changes. -/
theorem Statics.Registered.mapQueue (hr : s.Registered p h) {q : ℕ} {h' : Handle}
    (hq : s.heap q = some h') (f : List Message → List Message) :
    ∃ h'', (s.mapQueue q h' f).Registered p h'' := by
  by_cases hqp : q = p
  · subst hqp
    have heq : h' = h := Option.some.inj (hq.symm.trans hr.live)
    rw [heq]
    exact ⟨_, hr.mapQueue_self f⟩
  · refine ⟨h, ?_, hr.registered, hr.inRange, hr.active, hr.queue⟩
    rw [← hr.live]
    exact Function.update_of_ne (Ne.symm hqp) _ s.heap

/-- A message for a registered handle goes to the end of its queue. -/
theorem serialRxHandler_of_registered (hr : s.Registered p h) (rxbuff : Message) :
    serialRxHandler s h.ifNum rxbuff true =
      (.STM_OK, s.mapQueue p h fun queue => queue ++ [rxbuff]) := by
  simp only [serialRxHandler, getSerialHandle_of_registered hr, if_true]

end Registered

end SerialIf

end Control

end EspHosted
