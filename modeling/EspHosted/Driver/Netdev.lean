import EspHosted.Driver.SpiDrv
import EspHosted.Lib.Ledger

/-!
# Network devices and network handles

`Netdev` is a registered device; `networkOpen` makes a handle for one and
`networkClose` frees it again. `networkWrite` goes down to `send_to_slave`, and
`netdevRx` puts a received packet into the queue of a device and calls the callback of
its handle. A step that follows a `NULL` pointer, or a pointer to a freed handle, has
no result.

Handles are numbered; a number whose handle was freed holds none. `κ` are the callback
functions.
-/

namespace EspHosted

namespace Net

open EspHosted.Ledger
open Spi (WBuffer sendToSlave txHandle)

/-- `MAX_IF_NAME_SIZE` -/
def maxIfNameSize : ℕ := 256

/-- `RX_QUEUE_SIZE` -/
def rxQueueSize : ℕ := 50

/-- `struct esp_pbuf`; the payload has room for `len` bytes. -/
structure EspPbuf where
  len : UInt16
  payload : Option (WBuffer len)

/-- `NETDEV_STATE_DOWN` and `NETDEV_STATE_UP` -/
inductive NetdevState where
  | DOWN
  | UP
  deriving DecidableEq, Repr

/-- `struct esp_private`, as far as a transmission reads it. -/
structure EspPrivate where
  ifType : UInt8
  ifNum : UInt8
  deriving DecidableEq

/-- `struct netdev_ops`: whether `netdev_xmit` is set. -/
structure NetdevOps where
  netdevXmit : Bool
  deriving DecidableEq

/-- `struct netdev` -/
structure Netdev where
  name : List Char
  netOps : Option NetdevOps
  state : NetdevState
  netHandle : Option ℕ
  rxQ : Option (List EspPbuf)
  priv : Option EspPrivate

/-- `struct network_handle`; the device by its place in `ndev_db`. -/
structure NetworkHandle (κ : Type) where
  ndev : ℕ
  netRxCallback : Option κ

structure State (κ : Type) where
  ndevDb : List Netdev
  handles : ℕ → Option (NetworkHandle κ)
  next : ℕ

/-- `netdev_get`: the first device of that name. -/
def netdevGet (ndevDb : List Netdev) (ifName : List Char) : Option ℕ :=
  ndevDb.findIdx? fun ndev => ifName.take maxIfNameSize = ndev.name.take maxIfNameSize

/-- `netdev_open` -/
def netdevOpen (ndev : Netdev) (queueCreate : Bool) : StmRet × Netdev :=
  match ndev.rxQ with
  | some _ => (.STM_OK, { ndev with rxQ := some [] })
  | none =>
      if queueCreate then (.STM_OK, { ndev with rxQ := some [], state := .UP })
      else (.STM_FAIL, ndev)

/-- `netdev_close` -/
def netdevClose (ndev : Netdev) : Netdev :=
  { ndev with state := .DOWN, rxQ := ndev.rxQ.map fun _ => [], netHandle := none }

/-- `network_open`: the handle, or `NULL`. -/
def networkOpen {κ : Type} (s : State κ) (ifName : Option (List Char))
    (netRxCallback : Option κ) (queueCreate : Bool) : Option ℕ × State κ :=
  match ifName with
  | none => (none, s)
  | some ifName =>
      match netdevGet s.ndevDb ifName with
      | none => (none, s)
      | some i =>
          match s.ndevDb[i]? with
          | none => (none, s)
          | some ndev =>
              match netdevOpen ndev queueCreate with
              | (.STM_FAIL, ndev) => (none, { s with ndevDb := s.ndevDb.set i ndev })
              | (.STM_OK, ndev) =>
                  (some s.next,
                    { ndevDb := s.ndevDb.set i { ndev with netHandle := some s.next }
                      handles := Function.update s.handles s.next
                        (some { ndev := i, netRxCallback := netRxCallback })
                      next := s.next + 1 })

/-- `network_close` on a live handle -/
def networkClose {κ : Type} (s : State κ) (netHandle : ℕ) : Option (State κ) :=
  match s.handles netHandle with
  | none => none
  | some h =>
      match s.ndevDb[h.ndev]? with
      | none => none
      | some ndev =>
          some
            { s with
              ndevDb := s.ndevDb.set h.ndev (netdevClose ndev)
              handles := Function.update s.handles netHandle none }

/-- The two blocks of an outgoing packet. -/
inductive TxBlock where
  | netBuf
  | payload
  deriving DecidableEq, Repr

/-- What a transmission returns, what it puts on `to_slave_queue`, and where the blocks
of the packet go. -/
structure WriteResult where
  ret : StmRet
  queued : Option InterfaceBufferHandle
  log : List (HeapEvent TxBlock)

/-- `esp_netdev_xmit`; `queueSend` is the outcome of the `xQueueSend` in
`send_to_slave`. -/
def espNetdevXmit (netdev : Netdev) (netBuf : EspPbuf) (queueSend : Bool) : WriteResult :=
  match netdev.priv with
  | none => { ret := .STM_FAIL, queued := none, log := [] }
  | some priv =>
      let sent := sendToSlave priv.ifType priv.ifNum netBuf.len netBuf.payload queueSend
      { ret := sent.ret
        queued := sent.queued
        log :=
          (if sent.freed then [.free .payload]
            else if sent.queued.isSome then [.handOver .payload] else []) ++
            [.free .netBuf] }

/-- `network_write`: the handle with its device, and the packet. -/
def networkWrite (netHandle : Option (Option Netdev)) (buffer : Option EspPbuf)
    (queueSend : Bool) : WriteResult :=
  match netHandle, buffer with
  | some (some ndev), some buffer =>
      match ndev.state, ndev.netOps with
      | .UP, some ⟨true⟩ => espNetdevXmit ndev buffer queueSend
      | _, _ => { ret := .STM_OK, queued := none, log := [] }
  | some none, some _ => { ret := .STM_OK, queued := none, log := [] }
  | _, _ => { ret := .STM_FAIL, queued := none, log := [] }

/-- The two blocks of an incoming packet. -/
inductive RxBlock where
  | netBuf
  | payload
  deriving DecidableEq, Repr

/-- The payload block of a packet, when it has one. -/
def EspPbuf.payloadBlock (netBuf : EspPbuf) : List RxBlock :=
  if netBuf.payload.isSome then [.payload] else []

/-- What `netdev_rx` leaves behind: the callback it ran, with the handle it passed, and
where the blocks of the packet went. -/
structure RxResult (κ : Type) where
  ret : StmRet
  state : State κ
  callback : Option (κ × ℕ)
  log : List (HeapEvent RxBlock)

/-- `netdev_rx` on device `i`, but for what the callback does; `queueSend` is the outcome of
`xQueueSend`. -/
def netdevRx {κ : Type} (s : State κ) (i : ℕ) (netBuf : EspPbuf) (queueSend : Bool) :
    Option (RxResult κ) :=
  match s.ndevDb[i]? with
  | none => none
  | some ndev =>
      let dropped : RxResult κ :=
        { ret := .STM_FAIL, state := s, callback := none
          log := netBuf.payloadBlock.map .free ++ [.free .netBuf] }
      match ndev.state with
      | .DOWN => some dropped
      | .UP =>
          match ndev.rxQ with
          | none => none
          | some rxQ =>
              if queueSend then
                match ndev.netHandle with
                | none => none
                | some netHandle =>
                    (s.handles netHandle).map fun h =>
                      { ret := .STM_OK
                        state :=
                          { s with
                            ndevDb := s.ndevDb.set i { ndev with rxQ := some (rxQ ++ [netBuf]) } }
                        callback := h.netRxCallback.map fun callback => (callback, netHandle)
                        log := netBuf.payloadBlock.map .handOver ++ [.free .netBuf] }
              else
                some dropped

end Net

end EspHosted
