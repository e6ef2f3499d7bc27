import EspHosted.Control.Restart
import EspHosted.Driver.NetRead
import EspHosted.Driver.SpiFrame

/-!
# What becomes of a received frame

One transaction, and the iteration of `process_rx_task` for the frame it brings. The
ledger lists the blocks that both allocate: the two buffers of the transaction, the copy
of a serial frame, the `esp_pbuf` of a network frame and its payload. The iteration leaves
a block freed, or in a queue; a `Place` is counted from the head of the queue.

`serial_rx_handler` does not release the copy when it cannot pass it on, and neither does
`process_rx_task`.
-/

namespace EspHosted

namespace Receive

open Ledger
open Control.Restart (serialBuf)
open Control.SerialIf (Statics active_of_getSerialHandle getSerialHandle live_of_getSerialHandle
  serialInit serialOpen serialRxHandler)
open Net (Netdev NetdevState EspPbuf RxBlock netdevRx)
open Net.Read (setRxQ)
open Spi (HalStatus RxHandle SpiBlock SpiBuffer payloadLen_le_of_receiveBranch receiveBranch
  rxPath spiTransactionEsp32s2 spiTransaction_freed spiTransaction_queued)

inductive Block where
  | rxbuff
  | txbuff
  | serialBuf
  | netBuf
  | payload
  deriving DecidableEq, Repr

instance : Fintype Block where
  elems := { Block.rxbuff, Block.txbuff, Block.serialBuf, Block.netBuf, Block.payload }
  complete := by
    intro b
    cases b <;> decide

def Block.ofSpi : SpiBlock → Block
  | .rxbuff => .rxbuff
  | .txbuff => .txbuff

/-- An event of `netdev_rx` in the ledger. -/
def ofRx : HeapEvent RxBlock → HeapEvent Block
  | .alloc .netBuf => .alloc .netBuf
  | .alloc .payload => .alloc .payload
  | .handOver .netBuf => .handOver .netBuf
  | .handOver .payload => .handOver .payload
  | .free .netBuf => .free .netBuf
  | .free .payload => .free .payload

/-- An entry of the queue of a serial handle, or of the receive queue of a device. -/
inductive Place where
  | serialQueue (serialHdl k : ℕ)
  | rxQ (i k : ℕ)

/-- What `process_rx_task` passes frames to. -/
structure Interfaces (κ : Type) where
  serial : Statics
  net : Net.State κ

/-- `owner` is the block that was put into a queue and is still there. -/
structure Outcome (κ : Type) where
  interfaces : Interfaces κ
  owner : Option (Block × Place)
  log : List (HeapEvent Block)

/-- `get_priv`: the device of the entry. `esp_priv` holds the private data of the devices,
in their order. -/
def getPriv (ndevDb : List Netdev) (ifType ifNum : UInt8) : Option ℕ :=
  ndevDb.findIdx? fun ndev => ndev.priv = some { ifType := ifType, ifNum := ifNum }

/-- The packet `process_rx_task` makes of a network frame. -/
def rxPacket (bufHandle : RxHandle) : EspPbuf where
  len := UInt16.ofNat bufHandle.1.payloadLen
  payload := some
    ⟨bufHandle.1.data, by
      rw [InterfaceBufferHandle.length_data, UInt16.toNat_ofNat']
      exact Nat.mod_le _ _⟩

section ProcessRx

variable {κ : Type}

/-- What every receive callback does: `network_read` takes a packet from the device of the
handle, and it is released. The device, and what is left; without a packet the callback
would release what nobody wrote. -/
def netRxCallback (s : Net.State κ) (netHandle : ℕ) : Option (ℕ × Net.State κ) :=
  match s.handles netHandle with
  | none => none
  | some h =>
      match s.ndevDb[h.ndev]? with
      | none => none
      | some ndev =>
          match ndev.rxQ with
          | some (_ :: rxQ) => some (h.ndev, setRxQ s h.ndev ndev rxQ)
          | _ => none

/-- Where an entry is after the first one was taken from the queue of device `j`. -/
def Place.afterRead (j : ℕ) : Place → Option Place
  | .rxQ i (k + 1) => some (.rxQ i (if i = j then k else k + 1))
  | .rxQ i 0 => if i = j then none else some (.rxQ i 0)
  | .serialQueue serialHdl k => some (.serialQueue serialHdl k)

/-- The network branch of `process_rx_task` for device `i`. -/
def netPath (s : Net.State κ) (i : ℕ) (netBuf : EspPbuf) (queueSend : Bool) :
    Option (Net.State κ × Option (Block × Place) × List (HeapEvent Block)) :=
  match netdevRx s i netBuf queueSend with
  | none => none
  | some r =>
      let place : Option Place :=
        if r.ret = .STM_OK then some (.rxQ i (Net.Read.rxQueue s i).length) else none
      let log := [.alloc .netBuf, .alloc .payload] ++ r.log.map ofRx
      match r.callback with
      | none => some (r.state, place.map fun place => (.payload, place), log)
      | some (_, netHandle) =>
          (netRxCallback r.state netHandle).map fun read =>
            match place.bind (Place.afterRead read.1) with
            | none => (read.2, none, log ++ [.free .payload])
            | some place => (read.2, some (.payload, place), log)

/-- What an `INIT` event meets: whether a handler is set, and the outcomes of the calls of
`control_path_platform_init`. -/
structure EventEnv where
  spiDrvEvtHandlerFp : Bool
  osSemaphoreCreate : Bool
  osSemaphoreWait : Bool
  malloc : Bool
  queueCreate : Bool

/-- `control_path_platform_init`. An assertion that fails and a wait for a semaphore that a
command has taken leave no result. -/
def controlPathPlatformInit (s : Statics) (env : EventEnv) : Option Statics :=
  if env.osSemaphoreCreate && env.osSemaphoreWait then
    match serialInit s env.malloc with
    | some (s, some serialHdl) =>
        (s.heap serialHdl).map fun h => (serialOpen s serialHdl h env.queueCreate).2
    | _ => none
  else
    none

/-- The handler of an `INIT` event. -/
def initEvent (s : Statics) (env : EventEnv) : Option Statics :=
  if env.spiDrvEvtHandlerFp then controlPathPlatformInit s env else some s

/-- One iteration of `process_rx_task`; `queueSend` is the outcome of the `xQueueSend` to
the queue of the interface. An `xQueueSend` to a missing queue, a fault in `netdev_rx` and
an event that is not finished leave no result. -/
def processRx (s : Interfaces κ) (env : EventEnv) (bufHandle : RxHandle) (queueSend : Bool) :
    Option (Outcome κ) :=
  match rxPath bufHandle.1 with
  | .serial =>
      let sent := serialRxHandler s.serial bufHandle.1.ifNum (serialBuf bufHandle) queueSend
      match getSerialHandle s.serial bufHandle.1.ifNum with
      | none =>
          some
            { interfaces := { s with serial := sent.2 }, owner := none
              log := [.alloc .serialBuf, .free .rxbuff] }
      | some (serialHdl, h) =>
          h.queue.map fun queue =>
            { interfaces := { s with serial := sent.2 }
              owner :=
                if sent.1 = .STM_OK then some (.serialBuf, .serialQueue serialHdl queue.length)
                else none
              log := [.alloc .serialBuf, .free .rxbuff] }
  | .network =>
      match getPriv s.net.ndevDb bufHandle.1.ifType bufHandle.1.ifNum with
      | none => some { interfaces := s, owner := none, log := [.free .rxbuff] }
      | some i =>
          (netPath s.net i (rxPacket bufHandle) queueSend).map fun r =>
            { interfaces := { s with net := r.1 }, owner := r.2.1
              log := r.2.2 ++ [.free .rxbuff] }
  | .privInit =>
      (initEvent s.serial env).map fun serial =>
        { interfaces := { s with serial := serial }, owner := none, log := [.free .rxbuff] }
  | .priv | .unknown => some { interfaces := s, owner := none, log := [.free .rxbuff] }

theorem payloadLen_le_of_queued {txbuff : Option (List UInt8)} {retval : HalStatus}
    {rx : SpiBuffer} {fromSlave : Bool} {h : InterfaceBufferHandle}
    (hq : (spiTransactionEsp32s2 txbuff retval rx fromSlave).queued = some h) :
    h.payloadLen ≤ maxPayloadSize := by
  rw [spiTransactionEsp32s2, spiTransaction_queued] at hq
  split at hq
  · exact payloadLen_le_of_receiveBranch hq
  · cases hq

/-- The transaction and, when it queues a frame, the iteration for it. `fromSlave` and
`queueSend` are the outcomes of the two `xQueueSend` calls. -/
def receive (s : Interfaces κ) (env : EventEnv) (txbuff : Option (List UInt8))
    (retval : HalStatus) (rx : SpiBuffer) (fromSlave queueSend : Bool) : Option (Outcome κ) :=
  let trans := spiTransactionEsp32s2 txbuff retval rx fromSlave
  let log := [.alloc .txbuff, .alloc .rxbuff] ++ trans.freed.map fun b => .free (.ofSpi b)
  match hq : trans.queued with
  | none => some { interfaces := s, owner := none, log := log }
  | some bufHandle =>
      (processRx s env ⟨bufHandle, payloadLen_le_of_queued hq⟩ queueSend).map fun o =>
        { o with log := log ++ o.log }

end ProcessRx

section Ledger

variable {κ : Type}

/-- A packet of the queue of a device that is up. -/
def Enqueued (s : Net.State κ) (i k : ℕ) (netBuf : EspPbuf) : Prop :=
  ∃ ndev rxQ, s.ndevDb[i]? = some ndev ∧ ndev.state = .UP ∧ ndev.rxQ = some rxQ ∧
    rxQ[k]? = some netBuf

/-- The frame at its place, in the queue of an active serial handle or of a device that is
up, from which its reader takes it. -/
def Holds (s : Interfaces κ) (bufHandle : RxHandle) : Place → Prop
  | .serialQueue serialHdl k =>
      ∃ h queue, s.serial.heap serialHdl = some h ∧ h.state = .ACTIVE ∧ h.queue = some queue ∧
        queue[k]? = some (serialBuf bufHandle)
  | .rxQ i k => Enqueued s.net i k (rxPacket bufHandle)

/-- The number of queues a block is in. -/
def owners (owner : Option Block) (b : Block) : ℕ := if owner = some b then 1 else 0

/-- Both buffers of the transaction are freed once, and every other block is freed once or
in one queue. -/
def Conserved (log : List (HeapEvent Block)) (owner : Option Block) : Prop :=
  (∀ b ∈ [Block.rxbuff, Block.txbuff], log.count (.free b) = 1) ∧ Accounted log (owners owner)

instance (log : List (HeapEvent Block)) (owner : Option Block) :
    Decidable (Conserved log owner) := by
  unfold Conserved
  infer_instance

/-- Nothing leaks, and what is in a queue is there as its reader expects it. -/
structure Balanced (rx : SpiBuffer) (o : Outcome κ) : Prop where
  conserved : Conserved o.log (o.owner.map Prod.fst)
  held : ∀ b place, o.owner = some (b, place) → ∃ bufHandle : RxHandle,
    receiveBranch rx = some bufHandle.1 ∧ Holds o.interfaces bufHandle place

/-- What `netdev_rx` has done: the packet is dropped, or it is the last one in the queue of
a device that is up. -/
theorem netdevRx_eq_some {s : Net.State κ} {i : ℕ} {netBuf : EspPbuf} {queueSend : Bool}
    {r : Net.RxResult κ} (h : netdevRx s i netBuf queueSend = some r) :
    (r.ret = .STM_FAIL ∧ r.callback = none ∧
        r.log = netBuf.payloadBlock.map .free ++ [.free .netBuf]) ∨
      (r.ret = .STM_OK ∧ Enqueued r.state i (Net.Read.rxQueue s i).length netBuf ∧
        r.log = netBuf.payloadBlock.map .handOver ++ [.free .netBuf]) := by
  simp only [netdevRx] at h
  split at h
  · cases h
  · rename_i ndev hi
    split at h
    · cases h
      exact Or.inl ⟨rfl, rfl, rfl⟩
    · rename_i hup
      split at h
      · cases h
      · rename_i rxQ hrxQ
        split at h
        · split at h
          · cases h
          · obtain ⟨handle, -, rfl⟩ := Option.map_eq_some_iff.1 h
            refine Or.inr ⟨rfl, ?_, rfl⟩
            have hlt : i < s.ndevDb.length := (List.getElem?_eq_some_iff.1 hi).1
            have hqueue : Net.Read.rxQueue s i = rxQ := by
              rw [Net.Read.rxQueue, hi]
              exact congrArg (fun q => q.getD []) hrxQ
            refine ⟨_, _, List.getElem?_set_self hlt, hup, rfl, ?_⟩
            rw [hqueue]
            exact List.getElem?_concat_length
        · cases h
          exact Or.inl ⟨rfl, rfl, rfl⟩

theorem netRxCallback_eq_some {s s' : Net.State κ} {netHandle j : ℕ}
    (h : netRxCallback s netHandle = some (j, s')) :
    ∃ ndev netBuf rxQ, s.ndevDb[j]? = some ndev ∧ ndev.rxQ = some (netBuf :: rxQ) ∧
      s' = setRxQ s j ndev rxQ := by
  simp only [netRxCallback] at h
  split at h
  · cases h
  · split at h
    · cases h
    · rename_i ndev hi
      split at h
      · rename_i netBuf rxQ hrxQ
        cases h
        exact ⟨ndev, netBuf, rxQ, hi, hrxQ, rfl⟩
      · cases h

/-- A packet that a read leaves in its queue is found where `afterRead` says. -/
theorem Enqueued.afterRead {s s' : Net.State κ} {i k netHandle j : ℕ} {netBuf : EspPbuf}
    (h : Enqueued s i k netBuf) (hread : netRxCallback s netHandle = some (j, s'))
    {place : Place} (hafter : (Place.rxQ i k).afterRead j = some place) :
    ∃ k', place = .rxQ i k' ∧ Enqueued s' i k' netBuf := by
  obtain ⟨ndev, rxQ, hi, hup, hrxQ, hk⟩ := h
  obtain ⟨ndev', first, rest, hj, hrest, rfl⟩ := netRxCallback_eq_some hread
  have hlt : j < s.ndevDb.length := (List.getElem?_eq_some_iff.1 hj).1
  by_cases hij : i = j
  · subst hij
    rw [hi] at hj
    cases hj
    rw [hrxQ] at hrest
    cases hrest
    cases k with
    | zero =>
        rw [Place.afterRead, if_pos rfl] at hafter
        cases hafter
    | succ k =>
        rw [Place.afterRead, if_pos rfl] at hafter
        cases hafter
        exact ⟨k, rfl, _, rest, List.getElem?_set_self hlt, hup, rfl, hk⟩
  · have hsame : (setRxQ s j ndev' rest).ndevDb[i]? = some ndev := by
      rw [setRxQ, List.getElem?_set_ne (Ne.symm hij), hi]
    refine ⟨k, ?_, ndev, rxQ, hsame, hup, hrxQ, hk⟩
    cases k with
    | zero =>
        rw [Place.afterRead, if_neg hij] at hafter
        exact (Option.some.inj hafter).symm
    | succ k =>
        rw [Place.afterRead, if_neg hij] at hafter
        exact (Option.some.inj hafter).symm

/-- The events of a packet that is dropped, one that stays in the queue, and one that the
callback takes out again. -/
def droppedLog : List (HeapEvent Block) :=
  [.alloc .netBuf, .alloc .payload, .free .payload, .free .netBuf]

def queuedLog : List (HeapEvent Block) :=
  [.alloc .netBuf, .alloc .payload, .handOver .payload, .free .netBuf]

theorem netPath_eq_some {s : Net.State κ} {i : ℕ} {netBuf : EspPbuf} {queueSend : Bool}
    {r : Net.State κ × Option (Block × Place) × List (HeapEvent Block)}
    (hpayload : netBuf.payloadBlock = [.payload]) (h : netPath s i netBuf queueSend = some r) :
    (r.2.1 = none ∧ r.2.2 = droppedLog) ∨ (r.2.1 = none ∧ r.2.2 = queuedLog ++ [.free .payload]) ∨
      ∃ k, r.2.1 = some (.payload, .rxQ i k) ∧ r.2.2 = queuedLog ∧ Enqueued r.1 i k netBuf := by
  simp only [netPath] at h
  split at h
  · cases h
  · rename_i rx hrx
    rcases netdevRx_eq_some hrx with ⟨hret, hcallback, hlog⟩ | ⟨hret, hqueued, hlog⟩
    · rw [hret, hcallback, hlog, hpayload] at h
      cases h
      exact Or.inl ⟨rfl, rfl⟩
    · rw [hret, hlog, hpayload, if_pos rfl] at h
      refine Or.inr ?_
      cases hcallback : rx.callback with
      | none =>
          rw [hcallback] at h
          cases h
          exact Or.inr ⟨_, rfl, rfl, hqueued⟩
      | some callback =>
          rw [hcallback] at h
          obtain ⟨read, hread, rfl⟩ := Option.map_eq_some_iff.1 h
          split
          · exact Or.inl ⟨rfl, rfl⟩
          · rename_i place hafter
            obtain ⟨k, rfl, hk⟩ := hqueued.afterRead hread hafter
            exact Or.inr ⟨k, rfl, rfl, hk⟩

/-- The part of the ledger that the transaction writes for a frame it queues. -/
def transLog : List (HeapEvent Block) := [.alloc .txbuff, .alloc .rxbuff, .free .txbuff]

def serialLog : List (HeapEvent Block) := [.alloc .serialBuf, .free .rxbuff]

theorem conserved_serial : Conserved (transLog ++ serialLog) (some .serialBuf) := by decide

theorem not_conserved_serial : ¬ Conserved (transLog ++ serialLog) none := by decide

theorem conserved_other : Conserved (transLog ++ [.free .rxbuff]) none := by decide

theorem conserved_dropped : Conserved (transLog ++ (droppedLog ++ [.free .rxbuff])) none := by
  decide

theorem conserved_queued :
    Conserved (transLog ++ (queuedLog ++ [.free .rxbuff])) (some .payload) := by decide

theorem conserved_read :
    Conserved (transLog ++ (queuedLog ++ [.free .payload] ++ [.free .rxbuff])) none := by decide

/-- A serial frame finds an active handle with its number, and the queue of that handle
takes it. -/
def Taken (s : Interfaces κ) (bufHandle : InterfaceBufferHandle) (queueSend : Bool) : Prop :=
  rxPath bufHandle = .serial →
    (getSerialHandle s.serial bufHandle.ifNum).isSome ∧ queueSend = true

theorem processRx_serial {s : Interfaces κ} {env : EventEnv} {bufHandle : RxHandle}
    {queueSend : Bool} {o : Outcome κ} (hpath : rxPath bufHandle.1 = .serial)
    (h : processRx s env bufHandle queueSend = some o) :
    (Conserved (transLog ++ o.log) (o.owner.map Prod.fst) ↔ Taken s bufHandle.1 queueSend) ∧
      ∀ b place, o.owner = some (b, place) → Holds o.interfaces bufHandle place := by
  simp only [processRx, hpath] at h
  cases hget : getSerialHandle s.serial bufHandle.1.ifNum with
  | none =>
      rw [hget] at h
      cases h
      refine ⟨iff_of_false not_conserved_serial ?_, ?_⟩
      · intro htaken
        have hsome := (htaken hpath).1
        rw [hget] at hsome
        cases hsome
      · intro b place ho
        cases ho
  | some found =>
      obtain ⟨serialHdl, hdl⟩ := found
      rw [hget] at h
      obtain ⟨queue, hqueue, rfl⟩ := Option.map_eq_some_iff.1 h
      simp only [serialRxHandler, hget]
      cases queueSend with
      | false =>
          refine ⟨iff_of_false not_conserved_serial ?_, ?_⟩
          · intro htaken
            cases (htaken hpath).2
          · intro b place ho
            cases ho
      | true =>
          refine ⟨iff_of_true conserved_serial fun _ => ⟨?_, rfl⟩, ?_⟩
          · rw [hget]
            rfl
          · intro b place ho
            cases ho
            have hactive : hdl.state = .ACTIVE := active_of_getSerialHandle hget
            refine ⟨_, queue ++ [serialBuf bufHandle], Function.update_self _ _ _, hactive, ?_,
              List.getElem?_concat_length⟩
            exact congrArg (Option.map _) hqueue

theorem processRx_network {s : Interfaces κ} {env : EventEnv} {bufHandle : RxHandle}
    {queueSend : Bool} {o : Outcome κ} (hpath : rxPath bufHandle.1 = .network)
    (h : processRx s env bufHandle queueSend = some o) :
    Conserved (transLog ++ o.log) (o.owner.map Prod.fst) ∧
      ∀ b place, o.owner = some (b, place) → Holds o.interfaces bufHandle place := by
  simp only [processRx, hpath] at h
  split at h
  · cases h
    exact ⟨conserved_other, fun _ _ ho => nomatch ho⟩
  · obtain ⟨r, hr, rfl⟩ := Option.map_eq_some_iff.1 h
    rcases netPath_eq_some rfl hr with ⟨howner, hlog⟩ | ⟨howner, hlog⟩ | ⟨k, howner, hlog, hk⟩
    · simp only [howner, hlog]
      exact ⟨conserved_dropped, fun _ _ ho => nomatch ho⟩
    · simp only [howner, hlog]
      exact ⟨conserved_read, fun _ _ ho => nomatch ho⟩
    · simp only [howner, hlog]
      refine ⟨conserved_queued, ?_⟩
      intro b place ho
      cases ho
      exact hk

/-- An iteration balances the ledger exactly when its frame is taken. -/
theorem processRx_conserved_iff {s : Interfaces κ} {env : EventEnv} {bufHandle : RxHandle}
    {queueSend : Bool} {o : Outcome κ} (h : processRx s env bufHandle queueSend = some o) :
    (Conserved (transLog ++ o.log) (o.owner.map Prod.fst) ↔ Taken s bufHandle.1 queueSend) ∧
      ∀ b place, o.owner = some (b, place) → Holds o.interfaces bufHandle place := by
  cases hpath : rxPath bufHandle.1 with
  | serial => exact processRx_serial hpath h
  | network =>
      obtain ⟨hconserved, hheld⟩ := processRx_network hpath h
      exact ⟨iff_of_true hconserved fun hserial => (nomatch hpath.symm.trans hserial), hheld⟩
  | privInit =>
      simp only [processRx, hpath] at h
      obtain ⟨serial, -, rfl⟩ := Option.map_eq_some_iff.1 h
      exact ⟨iff_of_true conserved_other fun hserial => (nomatch hpath.symm.trans hserial),
        fun _ _ ho => nomatch ho⟩
  | _ =>
      simp only [processRx, hpath] at h
      cases h
      exact ⟨iff_of_true conserved_other fun hserial => (nomatch hpath.symm.trans hserial),
        fun _ _ ho => nomatch ho⟩

theorem conserved_transaction {freed : List SpiBlock}
    (hfreed : freed = [.rxbuff, .txbuff] ∨ freed = [.txbuff, .rxbuff]) :
    Conserved ([.alloc .txbuff, .alloc .rxbuff] ++ freed.map fun b => .free (.ofSpi b)) none := by
  rcases hfreed with rfl | rfl
  · decide
  · decide

section Transaction

variable {s : Interfaces κ} {env : EventEnv} {txbuff : Option (List UInt8)}
  {retval : HalStatus} {rx : SpiBuffer} {fromSlave queueSend : Bool} {o : Outcome κ}

/-- A transaction that queues nothing has released both buffers. -/
theorem receive_of_not_queued
    (hq : (spiTransactionEsp32s2 txbuff retval rx fromSlave).queued = none)
    (h : receive s env txbuff retval rx fromSlave queueSend = some o) :
    o.owner = none ∧ Conserved o.log none := by
  simp only [receive] at h
  split at h
  · cases h
    refine ⟨rfl, ?_⟩
    rcases spiTransaction_freed true txbuff retval rx fromSlave with ⟨hsome, -⟩ | ⟨-, hfreed⟩
    · rw [Option.isSome_iff_ne_none] at hsome
      exact absurd hq hsome
    · exact conserved_transaction hfreed
  · rename_i bufHandle hsome
    cases hq.symm.trans hsome

theorem receive_of_queued {bufHandle : RxHandle}
    (hq : (spiTransactionEsp32s2 txbuff retval rx fromSlave).queued = some bufHandle.1)
    (h : receive s env txbuff retval rx fromSlave queueSend = some o) :
    ∃ o', processRx s env bufHandle queueSend = some o' ∧ o.interfaces = o'.interfaces ∧
      o.owner = o'.owner ∧ o.log = transLog ++ o'.log := by
  simp only [receive] at h
  split at h
  · rename_i hnone
    cases hq.symm.trans hnone
  · rename_i queued hsome
    have heq : bufHandle.1 = queued := Option.some.inj (hq.symm.trans hsome)
    subst heq
    obtain ⟨o', ho', rfl⟩ := Option.map_eq_some_iff.1 h
    refine ⟨o', ho', rfl, rfl, ?_⟩
    rcases spiTransaction_freed true txbuff retval rx fromSlave with ⟨-, hfreed⟩ | ⟨hnone, -⟩
    · change _ ++ (spiTransactionEsp32s2 txbuff retval rx fromSlave).freed.map _ ++ _ = _
      rw [show (spiTransactionEsp32s2 txbuff retval rx fromSlave).freed = [.txbuff] from hfreed]
      rfl
    · cases hq.symm.trans hnone

/-- A serial frame that is received and queued for `process_rx_task` finds an active handle
with its number, whose queue takes it. -/
def SerialTaken (s : Interfaces κ) (retval : HalStatus) (rx : SpiBuffer)
    (fromSlave queueSend : Bool) : Prop :=
  retval = .HAL_OK → fromSlave = true → ∀ bufHandle, receiveBranch rx = some bufHandle →
    Taken s bufHandle queueSend

/-- When the transaction and the iteration have finished, nothing has leaked exactly when
no serial frame was refused. -/
theorem receive_balanced_iff (h : receive s env txbuff retval rx fromSlave queueSend = some o) :
    Balanced rx o ↔ SerialTaken s retval rx fromSlave queueSend := by
  have hqueued : (spiTransactionEsp32s2 txbuff retval rx fromSlave).queued =
      if retval = .HAL_OK ∧ fromSlave = true then receiveBranch rx else none :=
    spiTransaction_queued true txbuff retval rx fromSlave
  cases hq : (spiTransactionEsp32s2 txbuff retval rx fromSlave).queued with
  | none =>
      obtain ⟨howner, hconserved⟩ := receive_of_not_queued hq h
      refine iff_of_true ⟨?_, ?_⟩ ?_
      · rw [howner]
        exact hconserved
      · intro b place ho
        rw [howner] at ho
        cases ho
      · intro hok hsent bufHandle hrecv
        rw [hq, if_pos ⟨hok, hsent⟩, hrecv] at hqueued
        cases hqueued
  | some queued =>
      let bufHandle : RxHandle := ⟨queued, payloadLen_le_of_queued hq⟩
      have hq' : (spiTransactionEsp32s2 txbuff retval rx fromSlave).queued = some bufHandle.1 := hq
      obtain ⟨o', ho', hinterfaces, howner, hlog⟩ := receive_of_queued hq' h
      obtain ⟨hiff, hheld⟩ := processRx_conserved_iff ho'
      rw [hq] at hqueued
      split at hqueued
      · rename_i hok
        constructor
        · intro hbalanced _ _ bufHandle' hrecv
          cases hqueued.trans hrecv
          have hconserved := hbalanced.conserved
          rw [hlog, howner] at hconserved
          exact hiff.1 hconserved
        · intro htaken
          have hconserved := hiff.2 (htaken hok.1 hok.2 queued hqueued.symm)
          refine ⟨by rw [hlog, howner]; exact hconserved, ?_⟩
          intro b place ho
          rw [howner] at ho
          refine ⟨bufHandle, hqueued.symm, ?_⟩
          rw [hinterfaces]
          exact hheld b place ho
      · cases hqueued

end Transaction

end Ledger

/-! ## Every frame is finished

Between the calls that open and close the interfaces, no frame leads to a missing queue or
a missing handle. -/

section Ready

variable {κ : Type}

/-- A device that is up has a queue, and a live handle that leads back to it. -/
structure NetReady (s : Net.State κ) : Prop where
  up : ∀ i ndev, s.ndevDb[i]? = some ndev → ndev.state = .UP → ndev.rxQ.isSome ∧
    ∃ netHandle h, ndev.netHandle = some netHandle ∧ s.handles netHandle = some h ∧ h.ndev = i
  fresh : ∀ netHandle, s.next ≤ netHandle → s.handles netHandle = none

/-- An active serial handle has a queue. -/
def SerialReady (s : Statics) : Prop :=
  ∀ p h, s.heap p = some h → h.state = .ACTIVE → h.queue.isSome

structure Ready (s : Interfaces κ) : Prop where
  serial : SerialReady s.serial
  net : NetReady s.net

theorem NetReady.init (interfaces : List (List Char × Net.EspPrivate)) :
    NetReady (Net.init interfaces : Net.State κ) := by
  refine ⟨?_, fun _ _ => rfl⟩
  intro i ndev hi hup
  rw [Net.init, List.getElem?_map] at hi
  obtain ⟨interface, -, rfl⟩ := Option.map_eq_some_iff.1 hi
  cases hup

/-- One device changes; the handles of the others stay. -/
theorem NetReady.set {s s' : Net.State κ} (h : NetReady s) {i : ℕ} {ndev' : Netdev}
    (hdb : s'.ndevDb = s.ndevDb.set i ndev')
    (hself : ndev'.state = .UP → ndev'.rxQ.isSome ∧ ∃ netHandle hdl,
      ndev'.netHandle = some netHandle ∧ s'.handles netHandle = some hdl ∧ hdl.ndev = i)
    (hothers : ∀ netHandle hdl, s.handles netHandle = some hdl → hdl.ndev ≠ i →
      s'.handles netHandle = some hdl)
    (hfresh : ∀ netHandle, s'.next ≤ netHandle → s'.handles netHandle = none) :
    NetReady s' := by
  refine ⟨?_, hfresh⟩
  intro j ndev hj hup
  rw [hdb] at hj
  by_cases hij : i = j
  · subst hij
    have hlt : i < s.ndevDb.length := by
      have hset := (List.getElem?_eq_some_iff.1 hj).1
      rwa [List.length_set] at hset
    rw [List.getElem?_set_self hlt] at hj
    cases hj
    exact hself hup
  · rw [List.getElem?_set_ne hij] at hj
    obtain ⟨hrxQ, netHandle, hdl, hcurrent, hlive, hndev⟩ := h.up j ndev hj hup
    exact ⟨hrxQ, netHandle, hdl, hcurrent,
      hothers netHandle hdl hlive (by rw [hndev]; exact Ne.symm hij), hndev⟩

theorem NetReady.requeue {s : Net.State κ} (h : NetReady s) {i : ℕ} {ndev : Netdev}
    (hi : s.ndevDb[i]? = some ndev) (rxQ : List EspPbuf) :
    NetReady (setRxQ s i ndev rxQ) := by
  refine h.set rfl ?_ (fun _ _ hlive _ => hlive) h.fresh
  intro hup
  exact ⟨rfl, (h.up i ndev hi hup).2⟩

theorem NetReady.networkOpen {s : Net.State κ} (h : NetReady s) (ifName : Option (List Char))
    (netRxCallback : Option κ) (queueCreate : Bool) :
    NetReady (Net.networkOpen s ifName netRxCallback queueCreate).2 := by
  simp only [Net.networkOpen]
  split
  · exact h
  · split
    · exact h
    · split
      · exact h
      · rename_i ndev hi
        split
        · rename_i ndev' hopen
          have hsame : ndev' = ndev := by
            simp only [Net.netdevOpen] at hopen
            split at hopen
            · cases hopen
            · split at hopen
              · cases hopen
              · cases hopen
                rfl
          refine h.set rfl ?_ (fun _ _ hlive _ => hlive) h.fresh
          rw [hsame]
          exact h.up _ ndev hi
        · rename_i ndev' hopen
          have hrxQ : ndev'.rxQ.isSome := by
            simp only [Net.netdevOpen] at hopen
            split at hopen
            · cases hopen
              rfl
            · split at hopen
              · cases hopen
                rfl
              · cases hopen
          refine h.set rfl ?_ ?_ ?_
          · intro _
            exact ⟨hrxQ, s.next, _, rfl, Function.update_self _ _ _, rfl⟩
          · intro netHandle hdl hlive _
            have hne : netHandle ≠ s.next := by
              intro heq
              rw [heq, h.fresh s.next (Nat.le_refl _)] at hlive
              cases hlive
            exact (Function.update_of_ne hne _ _).trans hlive
          · intro netHandle hle
            have hle' : s.next + 1 ≤ netHandle := hle
            exact (Function.update_of_ne (Nat.ne_of_gt hle') _ _).trans
              (h.fresh netHandle (Nat.le_of_succ_le hle'))

theorem NetReady.networkClose {s s' : Net.State κ} (h : NetReady s) {netHandle : ℕ}
    (hclose : Net.networkClose s netHandle = some s') : NetReady s' := by
  simp only [Net.networkClose] at hclose
  split at hclose
  · cases hclose
  · rename_i hdl hhdl
    split at hclose
    · cases hclose
    · cases hclose
      refine h.set rfl ?_ ?_ ?_
      · intro hup
        cases hup
      · intro other hdl' hlive hne
        have hother : other ≠ netHandle := by
          intro heq
          rw [heq, hhdl] at hlive
          cases hlive
          exact hne rfl
        exact (Function.update_of_ne hother _ _).trans hlive
      · intro other hle
        by_cases heq : other = netHandle
        · rw [heq]
          exact Function.update_self _ _ _
        · exact (Function.update_of_ne heq _ _).trans (h.fresh other hle)

/-- The callback of a device finds a packet that was just put into its queue. -/
theorem NetReady.netRxCallback {s : Net.State κ} (h : NetReady s) {i netHandle : ℕ}
    {ndev : Netdev} {hdl : Net.NetworkHandle κ} (hi : s.ndevDb[i]? = some ndev)
    (hlive : s.handles netHandle = some hdl) (hndev : hdl.ndev = i) (rxQ : List EspPbuf)
    (netBuf : EspPbuf) :
    ∃ read, Receive.netRxCallback (setRxQ s i ndev (rxQ ++ [netBuf])) netHandle = some read ∧
      NetReady read.2 := by
  obtain ⟨first, rest, hcons⟩ : ∃ first rest, rxQ ++ [netBuf] = first :: rest :=
    List.exists_cons_of_ne_nil (List.concat_ne_nil netBuf rxQ)
  rw [hcons]
  have hlt : i < s.ndevDb.length := (List.getElem?_eq_some_iff.1 hi).1
  have hset : (setRxQ s i ndev (first :: rest)).ndevDb[i]? =
      some { ndev with rxQ := some (first :: rest) } := List.getElem?_set_self hlt
  have hlive' : (setRxQ s i ndev (first :: rest)).handles netHandle = some hdl := hlive
  refine ⟨(i, _), ?_, (h.requeue hi (first :: rest)).requeue hset rest⟩
  simp only [Receive.netRxCallback, hlive', hndev, hset]
  rfl

theorem NetReady.netPath {s : Net.State κ} (h : NetReady s) {i : ℕ}
    (hlt : i < s.ndevDb.length) (netBuf : EspPbuf) (queueSend : Bool) :
    ∃ r, Receive.netPath s i netBuf queueSend = some r ∧ NetReady r.1 := by
  obtain ⟨ndev, hi⟩ : ∃ ndev, s.ndevDb[i]? = some ndev := ⟨_, List.getElem?_eq_getElem hlt⟩
  cases hstate : ndev.state with
  | DOWN =>
      simp only [Receive.netPath, netdevRx, hi, hstate]
      exact ⟨_, rfl, h⟩
  | UP =>
      obtain ⟨hsome, netHandle, hdl, hcurrent, hlive, hndev⟩ := h.up i ndev hi hstate
      obtain ⟨rxQ, hrxQ⟩ := Option.isSome_iff_exists.1 hsome
      cases queueSend with
      | false =>
          simp only [Receive.netPath, netdevRx, hi, hstate, hrxQ]
          exact ⟨_, rfl, h⟩
      | true =>
          have hrx : netdevRx s i netBuf true = some
              { ret := .STM_OK, state := setRxQ s i ndev (rxQ ++ [netBuf])
                callback := hdl.netRxCallback.map fun callback => (callback, netHandle)
                log := netBuf.payloadBlock.map .handOver ++ [.free .netBuf] } := by
            simp only [netdevRx, hi, hstate, hrxQ, hcurrent, hlive, if_true, Option.map_some,
              setRxQ]
          simp only [Receive.netPath, hrx]
          cases hdl.netRxCallback with
          | none => exact ⟨_, rfl, h.requeue hi _⟩
          | some callback =>
              obtain ⟨read, hread, hready⟩ := h.netRxCallback hi hlive hndev rxQ netBuf
              simp only [Option.map_some, hread]
              split
              · exact ⟨_, rfl, hready⟩
              · exact ⟨_, rfl, hready⟩

theorem lt_length_of_getPriv {ndevDb : List Netdev} {ifType ifNum : UInt8} {i : ℕ}
    (h : getPriv ndevDb ifType ifNum = some i) : i < ndevDb.length := by
  rw [getPriv, List.findIdx?_eq_some_iff_findIdx_eq] at h
  exact h.1

theorem SerialReady.update {s s' : Statics} (h : SerialReady s) {p : ℕ}
    {o : Option Control.SerialIf.Handle} (hheap : s'.heap = Function.update s.heap p o)
    (ho : ∀ hdl, o = some hdl → hdl.state = .ACTIVE → hdl.queue.isSome) : SerialReady s' := by
  intro q hdl hq hactive
  rw [hheap] at hq
  by_cases hqp : q = p
  · rw [hqp, Function.update_self] at hq
    exact ho hdl hq hactive
  · rw [Function.update_of_ne hqp] at hq
    exact h q hdl hq hactive

theorem SerialReady.mapQueue {s : Statics} (h : SerialReady s) {p : ℕ}
    {hdl : Control.SerialIf.Handle} (hp : s.heap p = some hdl)
    (f : List Control.Message → List Control.Message) : SerialReady (s.mapQueue p hdl f) := by
  refine h.update rfl ?_
  intro hdl' ho hactive
  cases ho
  rw [Option.isSome_map]
  exact h p hdl hp hactive

theorem SerialReady.serialRxHandler {s : Statics} (h : SerialReady s) (ifNum : UInt8)
    (rxbuff : Control.Message) (queueSend : Bool) :
    SerialReady (Control.SerialIf.serialRxHandler s ifNum rxbuff queueSend).2 := by
  simp only [Control.SerialIf.serialRxHandler]
  split
  · exact h
  · rename_i serialHdl hdl hget
    split
    · exact h.mapQueue (live_of_getSerialHandle hget) _
    · exact h

theorem SerialReady.serialClose {s : Statics} (h : SerialReady s) (serialHdl : ℕ) :
    SerialReady (Control.SerialIf.serialClose s serialHdl) :=
  h.update rfl fun _ ho => nomatch ho

theorem SerialReady.serialInit {s : Statics} (h : SerialReady s) {malloc : Bool}
    {r : Statics × Option ℕ} (hr : Control.SerialIf.serialInit s malloc = some r) :
    SerialReady r.1 := by
  simp only [Control.SerialIf.serialInit] at hr
  split at hr
  · split at hr
    · cases hr
      refine h.update rfl ?_
      intro hdl ho hactive
      cases ho
      cases hactive
    · cases hr
  · cases hr
    exact h

theorem SerialReady.serialOpen {s : Statics} (h : SerialReady s) (serialHdl : ℕ)
    (hdl : Control.SerialIf.Handle) (queueCreate : Bool) :
    SerialReady (Control.SerialIf.serialOpen s serialHdl hdl queueCreate).2 := by
  cases queueCreate with
  | true =>
      refine h.update rfl ?_
      intro hdl' ho _
      cases ho
      rfl
  | false =>
      -- `serial_cleanup` stores into the handle it has just freed
      refine (h.serialClose serialHdl).update rfl ?_
      intro hdl' ho _
      simp [Control.SerialIf.serialClose] at ho

theorem SerialReady.initEvent {s s' : Statics} (h : SerialReady s) {env : EventEnv}
    (hs : Receive.initEvent s env = some s') : SerialReady s' := by
  simp only [Receive.initEvent, controlPathPlatformInit] at hs
  split at hs
  · split at hs
    · split at hs
      · rename_i serial serialHdl hinit
        obtain ⟨hdl, -, rfl⟩ := Option.map_eq_some_iff.1 hs
        exact (h.serialInit hinit).serialOpen serialHdl hdl env.queueCreate
      · cases hs
    · cases hs
  · cases hs
    exact h

/-- In a ready state `process_rx_task` finishes every frame but an `INIT` event that its
handler does not finish, and is ready for the next. -/
theorem Ready.processRx {s : Interfaces κ} (h : Ready s) {env : EventEnv}
    {bufHandle : RxHandle}
    (hevent : rxPath bufHandle.1 = .privInit → (initEvent s.serial env).isSome)
    (queueSend : Bool) :
    ∃ o, Receive.processRx s env bufHandle queueSend = some o ∧ Ready o.interfaces := by
  simp only [Receive.processRx]
  split
  · have hserial := h.serial.serialRxHandler bufHandle.1.ifNum (serialBuf bufHandle) queueSend
    split
    · exact ⟨_, rfl, hserial, h.net⟩
    · rename_i serialHdl hdl hget
      obtain ⟨queue, hqueue⟩ := Option.isSome_iff_exists.1
        (h.serial serialHdl hdl (live_of_getSerialHandle hget) (active_of_getSerialHandle hget))
      rw [hqueue]
      exact ⟨_, rfl, hserial, h.net⟩
  · split
    · exact ⟨_, rfl, h⟩
    · rename_i i hpriv
      obtain ⟨r, hr, hready⟩ :=
        h.net.netPath (lt_length_of_getPriv hpriv) (rxPacket bufHandle) queueSend
      rw [hr]
      exact ⟨_, rfl, h.serial, hready⟩
  · rename_i hpath
    obtain ⟨serial, hserial⟩ := Option.isSome_iff_exists.1 (hevent hpath)
    rw [hserial]
    exact ⟨_, rfl, h.serial.initEvent hserial, h.net⟩
  all_goals exact ⟨_, rfl, h⟩

/-- If the frame is an `INIT` event, its handler finishes. -/
def EventFinishes (s : Interfaces κ) (env : EventEnv) (rx : SpiBuffer) : Prop :=
  ∀ bufHandle, receiveBranch rx = some bufHandle → rxPath bufHandle = .privInit →
    (initEvent s.serial env).isSome

theorem Ready.receive {s : Interfaces κ} (h : Ready s) {env : EventEnv} {rx : SpiBuffer}
    (hevent : EventFinishes s env rx) (txbuff : Option (List UInt8)) (retval : HalStatus)
    (fromSlave queueSend : Bool) :
    ∃ o, Receive.receive s env txbuff retval rx fromSlave queueSend = some o ∧
      Ready o.interfaces := by
  simp only [Receive.receive]
  split
  · exact ⟨_, rfl, h⟩
  · rename_i bufHandle hq
    have hrecv : receiveBranch rx = some bufHandle := by
      rw [spiTransactionEsp32s2, spiTransaction_queued] at hq
      split at hq
      · exact hq
      · cases hq
    let frame : RxHandle := ⟨bufHandle, payloadLen_le_of_queued hq⟩
    have hframe : rxPath frame.1 = .privInit → (initEvent s.serial env).isSome :=
      hevent bufHandle hrecv
    obtain ⟨o, ho, hready⟩ := h.processRx hframe queueSend
    rw [ho]
    exact ⟨_, rfl, hready⟩

/-- A frame that was finished leaves a ready state. -/
theorem Ready.of_receive {s : Interfaces κ} (h : Ready s) {env : EventEnv}
    {txbuff : Option (List UInt8)} {retval : HalStatus} {rx : SpiBuffer}
    {fromSlave queueSend : Bool} {o : Outcome κ}
    (ho : Receive.receive s env txbuff retval rx fromSlave queueSend = some o) :
    Ready o.interfaces := by
  cases hq : (spiTransactionEsp32s2 txbuff retval rx fromSlave).queued with
  | none =>
      simp only [Receive.receive] at ho
      split at ho
      · cases ho
        exact h
      · rename_i bufHandle hsome
        cases hq.symm.trans hsome
  | some queued =>
      let bufHandle : RxHandle := ⟨queued, payloadLen_le_of_queued hq⟩
      obtain ⟨o', ho', hinterfaces, -, -⟩ :=
        receive_of_queued (show _ = some bufHandle.1 from hq) ho
      have hevent : rxPath bufHandle.1 = .privInit → (initEvent s.serial env).isSome := by
        intro hpath
        simp only [Receive.processRx, hpath] at ho'
        obtain ⟨serial, hserial, -⟩ := Option.map_eq_some_iff.1 ho'
        rw [hserial]
        rfl
      obtain ⟨o'', ho'', hready⟩ := h.processRx hevent queueSend
      cases ho'.symm.trans ho''
      rw [hinterfaces]
      exact hready

/-- What the other tasks do to the interfaces between two frames, and the frames. -/
inductive Action (κ : Type) where
  | networkOpen (ifName : Option (List Char)) (netRxCallback : Option κ) (queueCreate : Bool)
  | networkClose (netHandle : ℕ)
  | networkRead (netHandle : ℕ)
  | serialInit (malloc : Bool)
  | serialOpen (serialHdl : ℕ) (queueCreate : Bool)
  | serialClose (serialHdl : ℕ)
  | serialRead (serialHdl : ℕ)
  | receive (env : EventEnv) (txbuff : Option (List UInt8)) (retval : HalStatus)
      (rx : SpiBuffer) (fromSlave queueSend : Bool)

def init (interfaces : List (List Char × Net.EspPrivate)) : Interfaces κ where
  serial := .init
  net := Net.init interfaces

def step (s : Interfaces κ) : Action κ → Option (Interfaces κ)
  | .networkOpen ifName netRxCallback queueCreate =>
      some { s with net := (Net.networkOpen s.net ifName netRxCallback queueCreate).2 }
  | .networkClose netHandle =>
      (Net.networkClose s.net netHandle).map fun net => { s with net := net }
  | .networkRead netHandle =>
      (netRxCallback s.net netHandle).map fun read => { s with net := read.2 }
  | .serialInit malloc =>
      (Control.SerialIf.serialInit s.serial malloc).map fun r => { s with serial := r.1 }
  | .serialOpen serialHdl queueCreate =>
      (s.serial.heap serialHdl).map fun h =>
        { s with serial := (Control.SerialIf.serialOpen s.serial serialHdl h queueCreate).2 }
  | .serialClose serialHdl =>
      (s.serial.heap serialHdl).map fun _ =>
        { s with serial := Control.SerialIf.serialClose s.serial serialHdl }
  | .serialRead serialHdl =>
      (s.serial.heap serialHdl).map fun h =>
        { s with serial := s.serial.mapQueue serialHdl h List.tail }
  | .receive env txbuff retval rx fromSlave queueSend =>
      (receive s env txbuff retval rx fromSlave queueSend).map Outcome.interfaces

theorem Ready.step {s s' : Interfaces κ} {a : Action κ} (h : Ready s)
    (hs : Receive.step s a = some s') : Ready s' := by
  cases a with
  | networkOpen ifName netRxCallback queueCreate =>
      cases hs
      exact ⟨h.serial, h.net.networkOpen ifName netRxCallback queueCreate⟩
  | networkClose netHandle =>
      obtain ⟨net, hnet, rfl⟩ := Option.map_eq_some_iff.1 hs
      exact ⟨h.serial, h.net.networkClose hnet⟩
  | networkRead netHandle =>
      obtain ⟨⟨i, net⟩, hread, rfl⟩ := Option.map_eq_some_iff.1 hs
      obtain ⟨ndev, netBuf, rxQ, hi, -, rfl⟩ := netRxCallback_eq_some hread
      exact ⟨h.serial, h.net.requeue hi rxQ⟩
  | serialInit malloc =>
      obtain ⟨r, hr, rfl⟩ := Option.map_eq_some_iff.1 hs
      exact ⟨h.serial.serialInit hr, h.net⟩
  | serialOpen serialHdl queueCreate =>
      obtain ⟨hdl, -, rfl⟩ := Option.map_eq_some_iff.1 hs
      exact ⟨h.serial.serialOpen serialHdl hdl queueCreate, h.net⟩
  | serialClose serialHdl =>
      obtain ⟨hdl, -, rfl⟩ := Option.map_eq_some_iff.1 hs
      exact ⟨h.serial.serialClose serialHdl, h.net⟩
  | serialRead serialHdl =>
      obtain ⟨hdl, hlive, rfl⟩ := Option.map_eq_some_iff.1 hs
      exact ⟨h.serial.mapQueue hlive _, h.net⟩
  | receive env txbuff retval rx fromSlave queueSend =>
      obtain ⟨o, ho, rfl⟩ := Option.map_eq_some_iff.1 hs
      exact h.of_receive ho

theorem Ready.init (interfaces : List (List Char × Net.EspPrivate)) :
    Ready (Receive.init interfaces : Interfaces κ) :=
  ⟨fun _ _ hp => (nomatch hp), NetReady.init interfaces⟩

/-- Whatever was opened, closed, read and received before, the next frame is finished,
unless it is an `INIT` event whose handler is not. -/
theorem receive_finishes {interfaces : List (List Char × Net.EspPrivate)}
    {as : List (Action κ)} {s : Interfaces κ}
    (hrun : Machine.run Receive.step (Receive.init interfaces) as = some s) {env : EventEnv}
    {rx : SpiBuffer} (hevent : EventFinishes s env rx) (txbuff : Option (List UInt8))
    (retval : HalStatus) (fromSlave queueSend : Bool) :
    ∃ o, Receive.receive s env txbuff retval rx fromSlave queueSend = some o := by
  have hready : Ready s :=
    Machine.run_invariant Receive.step (fun _ _ _ h hs => h.step hs) (.init interfaces) hrun
  obtain ⟨o, ho, -⟩ := hready.receive hevent txbuff retval fromSlave queueSend
  exact ⟨o, ho⟩

end Ready

/-- A frame of one byte, as the slave sends it. -/
theorem exists_frame (ifType : UInt8) (ht : ifType.toNat < 16) :
    ∃ (rx : SpiBuffer) (bufHandle : RxHandle),
      receiveBranch rx = some bufHandle.1 ∧ bufHandle.1.ifType = ifType ∧
        bufHandle.1.ifNum = 0 := by
  have hs : Spi.Sendable (Spi.txHandle ifType 0 (.single 7)) := by
    constructor
    · exact Nat.le_refl 1
    · change 1 ≤ maxPayloadSize
      decide
  have hn : (0 : UInt8).toNat < 16 := by decide
  obtain ⟨h, hrecv, htype, hnum, -⟩ := hs.receiveBranch_frame ht hn
  exact ⟨_, ⟨h, payloadLen_le_of_receiveBranch hrecv⟩, hrecv, htype, hnum⟩

/-- Everything that an `INIT` event asks for is there. -/
def bootEnv : EventEnv where
  spiDrvEvtHandlerFp := true
  osSemaphoreCreate := true
  osSemaphoreWait := true
  malloc := true
  queueCreate := true

-- the first event is finished, the second one asserts
example :
    (initEvent .init bootEnv).isSome = true ∧
      ((initEvent .init bootEnv).bind fun s => initEvent s bootEnv).isSome = false := by decide

/-- A serial frame that comes before the control path has opened its handle leaks its
copy. -/
theorem early_serial_frame_leaks :
    ∃ (rx : SpiBuffer) (o : Outcome Unit),
      receive (init Net.hostInterfaces) bootEnv none .HAL_OK rx true true = some o ∧
        ¬ Balanced rx o := by
  obtain ⟨rx, bufHandle, hrecv, htype, hnum⟩ := exists_frame espSerialIf (by decide)
  have hrun : Machine.run step (init Net.hostInterfaces : Interfaces Unit) [] = some _ := rfl
  have hpath : rxPath bufHandle.1 = .serial := by rw [rxPath, if_pos htype]
  have hevent : EventFinishes (init Net.hostInterfaces : Interfaces Unit) bootEnv rx := by
    intro h hrecv' hinit
    cases hrecv.symm.trans hrecv'
    cases hpath.symm.trans hinit
  obtain ⟨o, ho⟩ := receive_finishes hrun hevent none .HAL_OK true true
  refine ⟨rx, o, ho, ?_⟩
  have hq : (spiTransactionEsp32s2 none .HAL_OK rx true).queued = some bufHandle.1 := by
    rw [spiTransactionEsp32s2, spiTransaction_queued, if_pos ⟨rfl, rfl⟩, hrecv]
  obtain ⟨o', ho', -, howner, hlog⟩ := receive_of_queued hq ho
  intro hbalanced
  have hconserved := hbalanced.conserved
  rw [hlog, howner] at hconserved
  have htaken := (processRx_conserved_iff ho').1.1 hconserved
  have hsome := (htaken hpath).1
  rw [hnum] at hsome
  cases hsome

/-- A frame for the station, whose callback reads it. -/
theorem receive_balanced_station_frame :
    ∃ (s : Interfaces Unit) (rx : SpiBuffer) (o : Outcome Unit),
      Machine.run step (init Net.hostInterfaces)
          [.networkOpen (some Net.staInterface) (some ()) true] = some s ∧
        receive s bootEnv none .HAL_OK rx true true = some o ∧ Balanced rx o := by
  obtain ⟨rx, bufHandle, hrecv, htype, -⟩ := exists_frame espStaIf (by decide)
  have hrun : Machine.run step (init Net.hostInterfaces : Interfaces Unit)
      [.networkOpen (some Net.staInterface) (some ()) true] = some _ := rfl
  have hpath : ∀ h, receiveBranch rx = some h → rxPath h = .network := by
    intro h hrecv'
    cases hrecv.symm.trans hrecv'
    rw [rxPath, htype]
    rfl
  obtain ⟨o, ho⟩ := receive_finishes hrun
    (fun h hrecv' hinit => nomatch (hpath h hrecv').symm.trans hinit) none .HAL_OK true true
  refine ⟨_, rx, o, hrun, ho, (receive_balanced_iff ho).2 ?_⟩
  intro _ _ h hrecv' hserial
  cases (hpath h hrecv').symm.trans hserial

end Receive

end EspHosted
