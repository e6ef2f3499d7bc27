import EspHosted.Driver.Adapter

/-!
# The SPI driver: one frame out, one frame in

`sendToSlave` is the part of `send_to_slave` before the transaction: the test of
the buffer and the `xQueueSend`. `getTxBuffer` builds the frame of the next
handle of `to_slave_queue`. `spiTransaction` is the body that
`spi_transaction_esp32` and `spi_transaction_esp32s2` share; the two differ in who
drives the chip select line. A received buffer is parsed by `receiveBranch`, the
`HAL_OK` branch of both.

The heap is `malloc` with `assert`: a failing allocation stops the program, so an
allocation in a function that returns has succeeded.
-/

namespace EspHosted

open EspHosted.Bytes

namespace Spi

/-- A non-`NULL` pointer to at least `wlen` bytes. -/
abbrev WBuffer (wlen : UInt16) := { b : List UInt8 // wlen.toNat ≤ b.length }

/-- A buffer of one byte. -/
def WBuffer.single (b : UInt8) : WBuffer 1 := ⟨[b], Nat.le_refl 1⟩

/-- The handle `send_to_slave` makes of its arguments. -/
def txHandle (ifaceType ifaceNum : UInt8) {wlen : UInt16} (b : WBuffer wlen) :
    InterfaceBufferHandle :=
  { ifType := ifaceType, ifNum := ifaceNum, payload := b.1
    payloadLen := wlen.toNat, payloadLen_le := b.2 }

theorem data_txHandle (ifaceType ifaceNum : UInt8) {wlen : UInt16} (b : WBuffer wlen) :
    (txHandle ifaceType ifaceNum b).data = b.1.take wlen.toNat := rfl

structure SendResult where
  ret : StmRet
  queued : Option InterfaceBufferHandle
  freed : Bool

/-- `send_to_slave` up to its `xQueueSend`, whose result is `queueSend`. A rejected
buffer is released here. -/
def sendToSlave (ifaceType ifaceNum : UInt8) (wlen : UInt16)
    (wbuffer : Option (WBuffer wlen)) (queueSend : Bool) : SendResult :=
  match wbuffer with
  | none => { ret := .STM_FAIL, queued := none, freed := false }
  | some b =>
      if wlen = 0 ∨ maxPayloadSize < wlen.toNat then
        { ret := .STM_FAIL, queued := none, freed := true }
      else if queueSend then
        { ret := .STM_OK, queued := some (txHandle ifaceType ifaceNum b), freed := false }
      else
        { ret := .STM_FAIL, queued := none, freed := true }

structure TxBuffer where
  sendbuf : Option (List UInt8)
  isValidTxBuf : Bool
  freeBufHandle : Bool

/-- The header `get_tx_buffer` writes; everything it does not set is zero. -/
def txHeader (h : InterfaceBufferHandle) (len checksum : UInt16) : EspPayloadHeader where
  ifType := BitVec.ofNat 4 h.ifType.toNat
  ifNum := BitVec.ofNat 4 h.ifNum.toNat
  flags := 0
  len := len
  offset := UInt16.ofNat sizeofEspPayloadHeader
  checksum := checksum
  reserved2 := 0
  reserved3 := 0
  seqNum := 0

/-- `get_tx_buffer` on what `xQueueReceive` took from `to_slave_queue`. -/
def getTxBuffer (bufHandle : Option InterfaceBufferHandle) : TxBuffer :=
  match bufHandle with
  | none => { sendbuf := none, isValidTxBuf := false, freeBufHandle := false }
  | some h =>
      let len := UInt16.ofNat h.payloadLen
      if len = 0 then
        { sendbuf := none, isValidTxBuf := false, freeBufHandle := true }
      else
        let sendbuf := List.replicate maxSpiBufferSize 0
        let sendbuf := patch sendbuf 0 (txHeader h len 0).toBytes
        let sendbuf := patch sendbuf sizeofEspPayloadHeader
          (h.payload.take (min len.toNat maxPayloadSize))
        let checksum := computeChecksum sendbuf (UInt16.ofNat sizeofEspPayloadHeader + len)
        let sendbuf := patch sendbuf 6 [lowByte checksum, highByte checksum]
        { sendbuf := some sendbuf, isValidTxBuf := true, freeBufHandle := true }

/-- A buffer of `MAX_SPI_BUFFER_SIZE` bytes. -/
abbrev SpiBuffer := { b : List UInt8 // b.length = maxSpiBufferSize }

/-- The `HAL_OK` branch: the tests of length, offset and checksum, and the handle
for `from_slave_queue`. The checksum field is cleared in the buffer itself. -/
def receiveBranch (rxbuff : SpiBuffer) : Option InterfaceBufferHandle :=
  let payloadHeader := EspPayloadHeader.ofBytes rxbuff.1
  let len := payloadHeader.len
  let offset := payloadHeader.offset
  if hrej : len = 0 ∨ maxPayloadSize < len.toNat ∨
      offset ≠ UInt16.ofNat sizeofEspPayloadHeader then
    none
  else
    let cleared := patch rxbuff.1 6 [0, 0]
    if computeChecksum cleared (len + offset) = payloadHeader.checksum then
      some
        { ifType := UInt8.ofNat payloadHeader.ifType.toNat
          ifNum := UInt8.ofNat payloadHeader.ifNum.toNat
          payload := cleared.drop sizeofEspPayloadHeader
          payloadLen := len.toNat
          payloadLen_le := by
            have hlen : rxbuff.1.length = 1600 := rxbuff.2
            have hcleared : cleared.length = rxbuff.1.length :=
              length_patch (by simp [hlen])
            have hmax : maxPayloadSize = 1588 := rfl
            have hsize : sizeofEspPayloadHeader = 12 := rfl
            rw [List.length_drop]
            omega }
    else
      none

/-- A handle as the receive half queues it: its length passed the test of the
`HAL_OK` branch. -/
abbrev RxHandle := { h : InterfaceBufferHandle // h.payloadLen ≤ maxPayloadSize }

theorem payloadLen_le_of_receiveBranch {rxbuff : SpiBuffer} {h : InterfaceBufferHandle}
    (hrx : receiveBranch rxbuff = some h) : h.payloadLen ≤ maxPayloadSize := by
  simp only [receiveBranch] at hrx
  split at hrx
  · cases hrx
  · rename_i hrej
    split at hrx
    · cases hrx
      exact Nat.le_of_not_lt fun hlt => hrej (Or.inr (Or.inl hlt))
    · cases hrx

/-- The interface `process_rx_task` passes a frame to. -/
inductive RxPath where
  | serial
  | network
  | privInit
  | priv
  | unknown
  deriving DecidableEq, Repr

/-- The tests of `if_type` in `process_rx_task`, and of `event_type` in a private
frame. -/
def rxPath (h : InterfaceBufferHandle) : RxPath :=
  if h.ifType = espSerialIf then .serial
  else if h.ifType = espStaIf ∨ h.ifType = espApIf then .network
  else if h.ifType = espPrivIf then
    if h.payload.getD 0 0 = espPrivEventInit then .privInit else .priv
  else .unknown

/-- `HAL_StatusTypeDef` -/
inductive HalStatus where
  | HAL_OK
  | HAL_ERROR
  | HAL_BUSY
  | HAL_TIMEOUT
  deriving DecidableEq, Repr

inductive SpiBlock where
  | rxbuff
  | txbuff
  deriving DecidableEq, Repr

/-- What a transaction leaves behind: the bytes clocked out, the handle put on
`from_slave_queue`, the buffers it released, and whether the driver held the chip
select line low itself. -/
structure SpiResult where
  ret : StmRet
  sent : List UInt8
  queued : Option InterfaceBufferHandle
  freed : List SpiBlock
  chipSelectLow : Bool

/-- The body of both transaction functions. `retval` and `rx` are the outcome of
`HAL_SPI_TransmitReceive`, `queueSend` that of the `xQueueSend` to
`from_slave_queue`. -/
def spiTransaction (csByHand : Bool) (txbuff : Option (List UInt8)) (retval : HalStatus)
    (rx : SpiBuffer) (queueSend : Bool) : SpiResult :=
  let sent := txbuff.getD (List.replicate maxSpiBufferSize 0)
  match retval with
  | .HAL_OK =>
      match receiveBranch rx with
      | none =>
          { ret := .STM_OK, sent := sent, queued := none, freed := [.rxbuff, .txbuff]
            chipSelectLow := csByHand }
      | some h =>
          if queueSend then
            { ret := .STM_OK, sent := sent, queued := some h, freed := [.txbuff]
              chipSelectLow := csByHand }
          else
            { ret := .STM_FAIL, sent := sent, queued := none, freed := [.txbuff, .rxbuff]
              chipSelectLow := csByHand }
  | _ =>
      { ret := .STM_FAIL, sent := sent, queued := none, freed := [.txbuff, .rxbuff]
        chipSelectLow := csByHand }

/-- The SPI peripheral drives the chip select of an ESP32. -/
def spiTransactionEsp32 := spiTransaction false

/-- For an ESP32-S2 the driver drives the chip select as a GPIO. -/
def spiTransactionEsp32s2 := spiTransaction true

theorem spiTransaction_queued (csByHand : Bool) (txbuff : Option (List UInt8))
    (retval : HalStatus) (rx : SpiBuffer) (queueSend : Bool) :
    (spiTransaction csByHand txbuff retval rx queueSend).queued =
      if retval = .HAL_OK ∧ queueSend = true then receiveBranch rx else none := by
  cases retval <;> cases hrx : receiveBranch rx <;> cases queueSend <;>
    simp [spiTransaction, hrx]

/-- A transaction releases the transmit buffer, and the receive buffer unless it queues it. -/
theorem spiTransaction_freed (csByHand : Bool) (txbuff : Option (List UInt8))
    (retval : HalStatus) (rx : SpiBuffer) (queueSend : Bool) :
    let r := spiTransaction csByHand txbuff retval rx queueSend
    (r.queued.isSome ∧ r.freed = [.txbuff]) ∨
      (r.queued = none ∧ (r.freed = [.rxbuff, .txbuff] ∨ r.freed = [.txbuff, .rxbuff])) := by
  cases retval <;> cases hrx : receiveBranch rx <;> cases queueSend <;>
    simp [spiTransaction, hrx]

/-- `send_to_slave` queues a handle exactly for a buffer of 1 to
`MAX_PAYLOAD_SIZE` bytes, and the handle carries the arguments. -/
theorem sendToSlave_queued {ifaceType ifaceNum : UInt8} {wlen : UInt16}
    {wbuffer : Option (WBuffer wlen)} {queueSend : Bool} {h : InterfaceBufferHandle}
    (hq : (sendToSlave ifaceType ifaceNum wlen wbuffer queueSend).queued = some h) :
    ∃ b, wbuffer = some b ∧ 1 ≤ wlen.toNat ∧ wlen.toNat ≤ maxPayloadSize ∧
      h = txHandle ifaceType ifaceNum b := by
  cases wbuffer with
  | none => simp [sendToSlave] at hq
  | some b =>
      by_cases hrej : wlen = 0 ∨ maxPayloadSize < wlen.toNat
      · simp [sendToSlave, hrej] at hq
      · have hpos : wlen.toNat ≠ 0 := fun h0 => hrej (Or.inl (UInt16.toNat_inj.1 h0))
        cases queueSend with
        | false => simp [sendToSlave, hrej] at hq
        | true =>
            simp only [sendToSlave, hrej, if_false, if_true, Option.some.injEq] at hq
            exact ⟨b, rfl, by omega, by omega, hq.symm⟩

theorem sendToSlave_of_le (ifaceType ifaceNum : UInt8) {wlen : UInt16} (b : WBuffer wlen)
    (hpos : 1 ≤ wlen.toNat) (hmax : wlen.toNat ≤ maxPayloadSize) :
    (sendToSlave ifaceType ifaceNum wlen (some b) true).queued =
      some (txHandle ifaceType ifaceNum b) := by
  have hrej : ¬ (wlen = 0 ∨ maxPayloadSize < wlen.toNat) := by
    intro hor
    rcases hor with h0 | h1
    · rw [h0] at hpos
      exact absurd hpos (by decide)
    · omega
  simp [sendToSlave, hrej]

end Spi

end EspHosted
