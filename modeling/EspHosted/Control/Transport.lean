import EspHosted.Control.Platform

/-!
# The path of a control request

`transportPserialDataHandler` wraps a packed request into a TLV message, hands it
to the SPI driver and waits for the answer. Its length parameter is a `uint16_t`,
while the packed size of a request is a `uint32_t`.
-/

namespace EspHosted

open EspHosted.Bytes EspHosted.Ledger

namespace Control

open Spi (WBuffer)

/-- `TIMEOUT_PSERIAL_RESP` -/
def timeoutPserialResp : UInt8 := 30

/-- What a call of `transport_pserial_data_handler` meets: the interface when it
writes, whether `xQueueSend` to `to_slave_queue` succeeds, and the read. -/
structure TransportEnv where
  serialIfG : Option SerialHandle
  queueSend : Bool
  read : ReadEnv

/-- The returned buffer, the length stored through `pro_len`, the handle put on
`to_slave_queue`, and the log. -/
structure Exchange where
  readBuf : Option (List UInt8)
  proLen : Option UInt16
  queued : Option InterfaceBufferHandle
  log : List (HeapEvent Buffer)

/-- An exchange with the lengths and the buffer it was made with. -/
structure TransportResult extends Exchange where
  bufLen : UInt16
  count : UInt16
  wlen : UInt16
  writeBuf : Block

/-- `buf_len`, computed in `uint16_t`. -/
def bufLenOf (dataLength : UInt16) : UInt16 := UInt16.ofNat tlvHeaderLength + dataLength

/-- `read_len`, computed in `uint16_t`. -/
def readLenOf (dataLength : UInt16) : UInt16 := bufLenOf dataLength - dataLength

theorem length_composeTlv (data : List UInt8) (dataLength : UInt16) :
    (composeTlv (.calloc (bufLenOf dataLength).toNat) data dataLength).1.bytes.length =
      (bufLenOf dataLength).toNat := by
  rw [composeTlv_eq, Block.calloc_store_zero, List.length_take, List.length_append,
    List.length_replicate]
  omega

theorem count_composeTlv (buf : Block) (data : List UInt8) (dataLength : UInt16) :
    (composeTlv buf data dataLength).2 = bufLenOf dataLength := rfl

/-- `count` and `buf_len` wrap together, so the whole buffer is written. -/
theorem toNat_wlen (data : List UInt8) (dataLength : UInt16) :
    (UInt16.ofNat (composeTlv (.calloc (bufLenOf dataLength).toNat) data
      dataLength).2.toNat).toNat =
      (composeTlv (.calloc (bufLenOf dataLength).toNat) data dataLength).1.bytes.length := by
  rw [length_composeTlv, UInt16.ofNat_toNat, count_composeTlv]

/-- `transport_pserial_data_handler` from the test of `count` on; `err` is the label
of that name. The allocations and `esp_hosted_driver_open` before it have
succeeded. -/
def exchange (env : TransportEnv) (count : ℕ) (writeBuf : WBuffer (UInt16.ofNat count))
    (readLen : ℕ) (wait : UInt8) : Exchange :=
  let opened : List (HeapEvent Buffer) := [.alloc .writeBuf, .alloc .driverHandle]
  let err (queued : Option InterfaceBufferHandle) (log : List (HeapEvent Buffer)) :
      Exchange :=
    { readBuf := none, proLen := none, queued := queued
      log := opened ++ log ++ [.free .writeBuf, .free .driverHandle] }
  if count = 0 then
    err none []
  else
    let written := espHostedDriverWrite env.serialIfG count writeBuf env.queueSend
    match written.ret with
    | .STM_FAIL => err written.queued (if written.freed then [.free .writeBuf] else [])
    | .STM_OK =>
        let read := espHostedDriverRead env.read readLen wait
        match read.buf with
        | none => err written.queued (.handOver .writeBuf :: read.log)
        | some readBuf =>
            { readBuf := some readBuf, proLen := read.bufLen, queued := written.queued
              log := opened ++ (.handOver .writeBuf :: read.log) ++ [.free .driverHandle] }

/-- `transport_pserial_data_handler` -/
def transportPserialDataHandler (env : TransportEnv) (data : List UInt8)
    (dataLength : UInt16) (wait : UInt8) : TransportResult :=
  let bufLen := bufLenOf dataLength
  let readLen := readLenOf dataLength
  let composed := composeTlv (.calloc bufLen.toNat) data dataLength
  let count := composed.2.toNat
  let writeBuf : WBuffer (UInt16.ofNat count) :=
    ⟨composed.1.bytes, (toNat_wlen data dataLength).le⟩
  { exchange env count writeBuf readLen.toNat wait with
    bufLen := bufLen, count := composed.2, wlen := UInt16.ofNat count, writeBuf := composed.1 }

/-- A packed request of `tx_len` bytes. -/
abbrev TxData (txLen : UInt32) := { b : List UInt8 // b.length = txLen.toNat }

/-- The call every command makes; `tx_len` becomes the `uint16_t` parameter. -/
def sendRequest (env : TransportEnv) {txLen : UInt32} (txData : TxData txLen) :
    TransportResult :=
  transportPserialDataHandler env txData.1 (UInt16.ofNat txLen.toNat) timeoutPserialResp

/-! ## What is put on the queue -/

theorem toNat_bufLenOf (dataLength : UInt16) :
    (bufLenOf dataLength).toNat = (tlvHeaderLength + dataLength.toNat) % 65536 := by
  rw [bufLenOf, UInt16.toNat_add]
  rfl

/-- A buffer is put on the queue whole, or the call fails without queueing. -/
theorem exchange_queued (env : TransportEnv) {count : ℕ} {bytes : List UInt8}
    (hlen : (UInt16.ofNat count).toNat = bytes.length) (readLen : ℕ) (wait : UInt8) :
    ((exchange env count ⟨bytes, hlen.le⟩ readLen wait).readBuf = none ∧
      (exchange env count ⟨bytes, hlen.le⟩ readLen wait).queued = none) ∨
    ∃ h, (exchange env count ⟨bytes, hlen.le⟩ readLen wait).queued = some h ∧
      h.data = bytes := by
  by_cases hcount : count = 0
  · left
    simp [exchange, hcount]
  by_cases hactive : Active env.serialIfG
  · by_cases hacc : Accepted (UInt16.ofNat count) env.queueSend
    · obtain ⟨serialHdl, hserial, hstate⟩ := hactive
      right
      refine ⟨Spi.txHandle serialHdl.ifType serialHdl.ifNum ⟨bytes, hlen.le⟩, ?_, ?_⟩
      · simp only [exchange, hcount, if_false, hserial,
          espHostedDriverWrite_of_accepted hstate hcount ⟨bytes, hlen.le⟩ hacc]
        split <;> rfl
      · rw [Spi.data_txHandle]
        exact List.take_of_length_le hlen.ge
    · left
      simp [exchange, hcount,
        espHostedDriverWrite_of_not_accepted hactive hcount ⟨bytes, hlen.le⟩ hacc]
  · left
    simp [exchange, hcount, espHostedDriverWrite_of_not_active hactive ⟨bytes, hlen.le⟩]

/-- What is put on the queue is the composed buffer. -/
theorem transport_queued (env : TransportEnv) (data : List UInt8) (dataLength : UInt16)
    (wait : UInt8) :
    ((transportPserialDataHandler env data dataLength wait).readBuf = none ∧
      (transportPserialDataHandler env data dataLength wait).queued = none) ∨
    ∃ h, (transportPserialDataHandler env data dataLength wait).queued = some h ∧
      h.data = (composeTlv (.calloc (bufLenOf dataLength).toNat) data dataLength).1.bytes :=
  exchange_queued env (toNat_wlen data dataLength) _ wait

/-- No length wraps, the length field declares the request, nothing is written
behind the buffer, and the call fails without queueing or queues one frame with the
whole request. -/
structure NotTruncated {txLen : UInt32} (txData : TxData txLen) (r : TransportResult) :
    Prop where
  bufLen : r.bufLen.toNat = tlvHeaderLength + txLen.toNat
  count : r.count.toNat = tlvHeaderLength + txLen.toNat
  wlen : r.wlen.toNat = tlvHeaderLength + txLen.toNat
  tlvLength : (le16 (r.writeBuf.bytes.getD 11 0) (r.writeBuf.bytes.getD 12 0)).toNat =
    txLen.toNat
  inBounds : r.writeBuf.overrun = false
  outcome : (r.readBuf = none ∧ r.queued = none) ∨
    ∃ h, r.queued = some h ∧
      h.data = tlvHeader (UInt16.ofNat txLen.toNat) ++ txData.1

/-- A request goes out whole or not at all exactly when the TLV message around it
fits a `uint16_t`. -/
theorem request_not_truncated_iff (env : TransportEnv) {txLen : UInt32}
    (txData : TxData txLen) :
    NotTruncated txData (sendRequest env txData) ↔ txLen.toNat ≤ 65522 := by
  have hheader : tlvHeaderLength = 13 := rfl
  have hdataLength : (UInt16.ofNat txLen.toNat).toNat = txLen.toNat % 65536 :=
    UInt16.toNat_ofNat'
  have hbufLen := toNat_bufLenOf (UInt16.ofNat txLen.toNat)
  constructor
  · intro h
    have hlen : (bufLenOf (UInt16.ofNat txLen.toNat)).toNat =
        tlvHeaderLength + txLen.toNat := h.bufLen
    omega
  · intro hle
    have hlen : (bufLenOf (UInt16.ofNat txLen.toNat)).toNat =
        tlvHeaderLength + txLen.toNat := by omega
    have hwlen : UInt16.ofNat (bufLenOf (UInt16.ofNat txLen.toNat)).toNat =
        bufLenOf (UInt16.ofNat txLen.toNat) := UInt16.ofNat_toNat
    have htake : txData.1.take (UInt16.ofNat txLen.toNat).toNat = txData.1 := by
      rw [List.take_of_length_le]
      rw [txData.2]
      omega
    have htotal : (tlvHeader (UInt16.ofNat txLen.toNat) ++ txData.1).length =
        (bufLenOf (UInt16.ofNat txLen.toNat)).toNat := by
      rw [List.length_append, length_tlvHeader, txData.2, hlen]
    have hcomposed : (composeTlv (.calloc (bufLenOf (UInt16.ofNat txLen.toNat)).toNat)
        txData.1 (UInt16.ofNat txLen.toNat)).1 =
          { bytes := tlvHeader (UInt16.ofNat txLen.toNat) ++ txData.1, overrun := false } := by
      rw [composeTlv_eq, htake, Block.calloc_store_of_le htotal.le, htotal, Nat.sub_self,
        List.replicate_zero, List.append_nil]
    have hbuf : (sendRequest env txData).writeBuf =
        { bytes := tlvHeader (UInt16.ofNat txLen.toNat) ++ txData.1, overrun := false } :=
      hcomposed
    constructor
    · exact hlen
    · exact hlen
    · exact (congrArg UInt16.toNat hwlen).trans hlen
    · rw [hbuf]
      change (le16 (lowByte (UInt16.ofNat txLen.toNat))
        (highByte (UInt16.ofNat txLen.toNat))).toNat = txLen.toNat
      rw [le16_lowByte_highByte]
      omega
    · rw [hbuf]
    · rcases transport_queued env txData.1 (UInt16.ofNat txLen.toNat) timeoutPserialResp with
        hnone | ⟨h, hsome, hdata⟩
      · exact Or.inl hnone
      · rw [hcomposed] at hdata
        exact Or.inr ⟨h, hsome, hdata⟩

/-- The serial interface is active, `to_slave_queue` has room, and the slave does not
answer. -/
def silentEnv : TransportEnv where
  serialIfG := some { ifType := 2, ifNum := 0, state := .ACTIVE, queue := [] }
  queueSend := true
  read :=
    { readSemaphore := true, osSemaphoreWait := false, serialIfG := none
      beyond := fun _ => 0 }

/-- A packed request of `2 ^ 16 + 10` bytes. -/
def largeRequest : TxData 65546 :=
  ⟨List.replicate 65546 0xFF, List.length_replicate⟩

/-- The frame on the queue carries the header and ten bytes of the request. -/
theorem large_request_truncated :
    (sendRequest silentEnv largeRequest).queued.map InterfaceBufferHandle.payloadLen =
      some 23 ∧
    ¬ NotTruncated largeRequest (sendRequest silentEnv largeRequest) := by
  constructor
  · decide
  · intro h
    have hlen : (bufLenOf (UInt16.ofNat 65546)).toNat = tlvHeaderLength + 65546 := h.bufLen
    revert hlen
    decide

end Control

end EspHosted
