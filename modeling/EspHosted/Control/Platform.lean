import EspHosted.Control.Tlv
import EspHosted.Driver.SpiDrv
import EspHosted.Lib.Ledger
import Mathlib.Data.Finset.Insert

/-!
# The serial interface and the platform wrapper

`serialRead` and `serialWrite` are the operations of the serial interface,
`espHostedDriverWrite` and `espHostedDriverRead` the calls of the control path on
top of them. Every function returns the log of the heap blocks it takes and
releases on behalf of its caller.

A block of a message is its bytes; `beyond` is what the heap holds behind it.
-/

namespace EspHosted

open EspHosted.Bytes EspHosted.Ledger

namespace Control

open Spi (WBuffer SendResult sendToSlave)

/-- The heap blocks of one command. -/
inductive Buffer where
  | reqPayload
  | txData
  | writeBuf
  | driverHandle
  | message
  | header
  | rxData
  | resp
  deriving DecidableEq, Repr

instance : Fintype Buffer where
  elems :=
    { Buffer.reqPayload, Buffer.txData, Buffer.writeBuf, Buffer.driverHandle,
      Buffer.message, Buffer.header, Buffer.rxData, Buffer.resp }
  complete := by
    intro b
    cases b <;> decide

/-- `serial_state_e` -/
inductive SerialState where
  | INIT
  | ACTIVE
  | DESTROY
  deriving DecidableEq, Repr

/-- A message of the serial queue; its `payload_len` is a `uint16_t`. -/
abbrev Message := { b : List UInt8 // b.length < 65536 }

/-- `serial_handle_t` with the messages in its queue. -/
structure SerialHandle where
  ifType : UInt8
  ifNum : UInt8
  state : SerialState
  queue : List Message

structure SerialReadResult where
  payload : Option Message
  serialHdl : SerialHandle
  log : List (HeapEvent Buffer)

/-- `serial_read`: the next message, when the interface is active and the message
is not empty. -/
def serialRead (serialHdl : SerialHandle) : SerialReadResult :=
  match serialHdl.state with
  | .ACTIVE =>
      match serialHdl.queue with
      | [] => { payload := none, serialHdl := serialHdl, log := [] }
      | m :: queue =>
          { payload := if m.1.length = 0 then none else some m
            serialHdl := { serialHdl with queue := queue }
            log := [.alloc .message] }
  | _ => { payload := none, serialHdl := serialHdl, log := [] }

/-- `serial_write` -/
def serialWrite (serialHdl : SerialHandle) {wlen : UInt16} (wbuffer : WBuffer wlen)
    (queueSend : Bool) : SendResult :=
  match serialHdl.state with
  | .ACTIVE => sendToSlave serialHdl.ifType serialHdl.ifNum wlen (some wbuffer) queueSend
  | _ => { ret := .STM_FAIL, queued := none, freed := false }

/-- `esp_hosted_driver_write` on non-`NULL` pointers. `in_count` is an `int`, the
length parameter of the serial interface a `uint16_t`. -/
def espHostedDriverWrite (serialIfG : Option SerialHandle) (inCount : ℕ)
    (buf : WBuffer (UInt16.ofNat inCount)) (queueSend : Bool) : SendResult :=
  if inCount = 0 then
    { ret := .STM_FAIL, queued := none, freed := false }
  else
    match serialIfG with
    | none => { ret := .STM_FAIL, queued := none, freed := false }
    | some serialHdl => serialWrite serialHdl buf queueSend

/-- The interface exists and is active. -/
def Active (serialIfG : Option SerialHandle) : Prop :=
  ∃ serialHdl, serialIfG = some serialHdl ∧ serialHdl.state = .ACTIVE

/-- `send_to_slave` takes a buffer of that length, and `to_slave_queue` takes the
handle. -/
def Accepted (wlen : UInt16) (queueSend : Bool) : Prop :=
  1 ≤ wlen.toNat ∧ wlen.toNat ≤ maxPayloadSize ∧ queueSend = true

section Write

variable {serialIfG : Option SerialHandle} {inCount : ℕ}

/-- Without an active interface the buffer stays with the caller. -/
theorem espHostedDriverWrite_of_not_active (h : ¬ Active serialIfG)
    (buf : WBuffer (UInt16.ofNat inCount)) (queueSend : Bool) :
    espHostedDriverWrite serialIfG inCount buf queueSend =
      { ret := .STM_FAIL, queued := none, freed := false } := by
  by_cases hcount : inCount = 0
  · simp only [espHostedDriverWrite, hcount, if_true]
  · simp only [espHostedDriverWrite, hcount, if_false]
    cases serialIfG with
    | none => rfl
    | some serialHdl =>
        have hstate : serialHdl.state ≠ .ACTIVE := fun ha => h ⟨serialHdl, rfl, ha⟩
        cases hs : serialHdl.state with
        | ACTIVE => exact absurd hs hstate
        | INIT => simp [serialWrite, hs]
        | DESTROY => simp [serialWrite, hs]

/-- A buffer that is refused further down is released there. -/
theorem espHostedDriverWrite_of_not_accepted (h : Active serialIfG) (hcount : inCount ≠ 0)
    (buf : WBuffer (UInt16.ofNat inCount)) {queueSend : Bool}
    (hrefused : ¬ Accepted (UInt16.ofNat inCount) queueSend) :
    espHostedDriverWrite serialIfG inCount buf queueSend =
      { ret := .STM_FAIL, queued := none, freed := true } := by
  obtain ⟨serialHdl, rfl, hstate⟩ := h
  simp only [espHostedDriverWrite, hcount, if_false, serialWrite, hstate, sendToSlave]
  by_cases hrej : UInt16.ofNat inCount = 0 ∨ maxPayloadSize < (UInt16.ofNat inCount).toNat
  · rw [if_pos hrej]
  · rw [if_neg hrej]
    cases queueSend with
    | false => rfl
    | true =>
        refine absurd ⟨?_, ?_, rfl⟩ hrefused
        · have hne : (UInt16.ofNat inCount).toNat ≠ 0 := by
            intro h0
            exact hrej (Or.inl (UInt16.toNat_inj.1 h0))
          omega
        · omega

theorem espHostedDriverWrite_of_accepted {serialHdl : SerialHandle}
    (hstate : serialHdl.state = .ACTIVE) (hcount : inCount ≠ 0)
    (buf : WBuffer (UInt16.ofNat inCount)) {queueSend : Bool}
    (hacc : Accepted (UInt16.ofNat inCount) queueSend) :
    espHostedDriverWrite (some serialHdl) inCount buf queueSend =
      { ret := .STM_OK, queued := some (Spi.txHandle serialHdl.ifType serialHdl.ifNum buf)
        freed := false } := by
  obtain ⟨hpos, hmax, rfl⟩ := hacc
  have hrej : ¬ (UInt16.ofNat inCount = 0 ∨
      maxPayloadSize < (UInt16.ofNat inCount).toNat) := by
    intro h
    rcases h with h0 | h1
    · rw [h0] at hpos
      exact absurd hpos (by decide)
    · omega
  simp only [espHostedDriverWrite, hcount, if_false, serialWrite, hstate, sendToSlave, hrej,
    if_true]

end Write

/-- What a call of `esp_hosted_driver_read` meets: whether `readSemaphore` was
created and was released in time, the serial interface, and the heap behind the
received message. -/
structure ReadEnv where
  readSemaphore : Bool
  osSemaphoreWait : Bool
  serialIfG : Option SerialHandle
  beyond : ℕ → UInt8

/-- The returned buffer, the length stored through `buf_len`, the interface after
the call, whether a byte outside the blocks was touched, and the log. -/
structure ReadResult where
  buf : Option (List UInt8)
  bufLen : Option UInt16
  serialIfG : Option SerialHandle
  overrun : Bool
  log : List (HeapEvent Buffer)

/-- The copy of the first bytes of a message that `parse_tlv` gets, and what the
`memset` of `read_len` bytes has cleared behind a shorter copy. -/
def headerCopy (m : List UInt8) (readLen : ℕ) : Block × List UInt8 :=
  let len := min m.length readLen
  let buf := Block.calloc len
  let buf := buf.store 0 (List.replicate readLen 0)
  let buf := buf.store 0 (m.take len)
  (buf, List.replicate (readLen - len) 0)

/-- The `n` bytes at `off` in the memory that starts with the block `m`. -/
def loadFrom (m : List UInt8) (beyond : ℕ → UInt8) (off n : ℕ) : List UInt8 :=
  (List.range n).map fun i => m.getD (off + i) (beyond (off + i))

/-- `esp_hosted_driver_read` with a handle and a place for the length. -/
def espHostedDriverRead (env : ReadEnv) (readLen : ℕ) (wait : UInt8) : ReadResult :=
  let failed (serialIfG : Option SerialHandle) (log : List (HeapEvent Buffer)) : ReadResult :=
    { buf := none, bufLen := none, serialIfG := serialIfG, overrun := false, log := log }
  if readLen = 0 ∨ wait = 0 then
    failed env.serialIfG []
  else if env.readSemaphore = false then
    failed env.serialIfG []
  else if env.osSemaphoreWait = false then
    failed env.serialIfG []
  else
    match env.serialIfG with
    | none => failed none []
    | some serialHdl =>
        let received := serialRead serialHdl
        match received.payload with
        | none => failed (some received.serialHdl) received.log
        | some readBuf =>
            let copy := headerCopy readBuf.1 readLen
            let parsed := parseTlv (copy.1.bytes ++ copy.2)
            let overrun := copy.1.overrun || parsed.overread
            match parsed.proLen with
            | none =>
                { buf := none, bufLen := none, serialIfG := some received.serialHdl
                  overrun := overrun
                  log := received.log ++ [.alloc .header, .free .header, .free .message] }
            | some bufLen =>
                { buf := some (loadFrom readBuf.1 env.beyond readLen bufLen.toNat)
                  bufLen := some bufLen
                  serialIfG := some received.serialHdl
                  overrun := overrun || decide (readBuf.1.length < readLen + bufLen.toNat)
                  log := received.log ++
                    [.alloc .header, .free .header, .alloc .rxData, .free .message] }

end Control

end EspHosted
