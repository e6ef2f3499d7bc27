import EspHosted.Control.ReadSound
import EspHosted.Control.Transport

/-!
# A reply through `compose_tlv` and `esp_hosted_driver_read`

The reader takes the length of the header from its own request: `read_len` is what
is left of `buf_len` without `data_length`, both `uint16_t`. The difference is the
header for every request, also where the sum has wrapped, and the reader gets back
what was composed.
-/

namespace EspHosted

open EspHosted.Bytes

namespace Control

/-- A reply of 1 to 1575 bytes: its TLV message fits one SPI payload. -/
abbrev Reply := { d : List UInt8 // 1 ≤ d.length ∧ tlvHeaderLength + d.length ≤ maxPayloadSize }

theorem Reply.length_lt (d : Reply) : tlvHeaderLength + d.1.length < 65536 :=
  Nat.lt_of_le_of_lt d.2.2 (by decide)

/-- The `data_length` that `compose_tlv` gets for the reply. -/
def Reply.dataLength (d : Reply) : UInt16 := UInt16.ofNat d.1.length

@[simp] theorem Reply.toNat_dataLength (d : Reply) : d.dataLength.toNat = d.1.length := by
  have hlt := d.length_lt
  rw [Reply.dataLength, UInt16.toNat_ofNat']
  omega

theorem Reply.tlvOf_eq (d : Reply) : tlvOf d.1 = tlvHeader d.dataLength ++ d.1 := by
  have hlt := d.length_lt
  exact Control.tlvOf_eq (by omega)

theorem Reply.length_tlvOf (d : Reply) : (tlvOf d.1).length = tlvHeaderLength + d.1.length := by
  rw [d.tlvOf_eq, List.length_append, length_tlvHeader]

/-- The message the slave composes of the reply. -/
def Reply.message (d : Reply) : Message := ⟨tlvOf d.1, d.length_tlvOf.trans_lt d.length_lt⟩

theorem Reply.val_message (d : Reply) : d.message.1 = tlvHeader d.dataLength ++ d.1 := by
  have hval : d.message.1 = tlvOf d.1 := by rw [Reply.message]
  rw [hval, d.tlvOf_eq]

theorem Reply.length_message (d : Reply) :
    d.message.1.length = tlvHeaderLength + d.1.length := by
  rw [d.val_message, List.length_append, length_tlvHeader]

/-- Whatever the request was, the sum and the difference wrap together. -/
theorem toNat_readLenOf (dataLength : UInt16) :
    (readLenOf dataLength).toNat = tlvHeaderLength := by
  rw [readLenOf, bufLenOf, UInt16.add_sub_cancel]
  rfl

/-- The read gives exactly the reply and its length, and stays in the message. -/
structure Returns (d : List UInt8) (r : ReadResult) : Prop where
  buf : r.buf = some d
  bufLen : r.bufLen.map UInt16.toNat = some d.length
  inBounds : r.overrun = false

/-- The header and the reply are written to the front of a buffer with room for both,
and nothing else; a smaller buffer is overrun. -/
structure Composes (d : List UInt8) (buf : Block) (r : Block × UInt16) : Prop where
  count : r.2.toNat = tlvHeaderLength + d.length
  written : tlvHeaderLength + d.length ≤ buf.bytes.length →
    r.1 = { bytes := tlvOf d ++ buf.bytes.drop (tlvHeaderLength + d.length)
            overrun := buf.overrun }
  overrun : buf.bytes.length < tlvHeaderLength + d.length → r.1.overrun = true

theorem Reply.composes (d : Reply) (buf : Block) :
    Composes d.1 buf (composeTlv buf d.1 d.dataLength) := by
  have hlength := d.length_tlvOf
  have heq : composeTlv buf d.1 d.dataLength =
      (buf.store 0 (tlvOf d.1), UInt16.ofNat tlvHeaderLength + d.dataLength) := by
    rw [composeTlv_eq, d.toNat_dataLength, List.take_length, ← d.tlvOf_eq]
  rw [heq]
  constructor
  · have hlt := d.length_lt
    rw [UInt16.toNat_add, d.toNat_dataLength]
    exact Nat.mod_eq_of_lt hlt
  · intro hroom
    rw [Block.store_of_le (by rw [hlength]; omega), patch, List.take_zero, List.nil_append,
      Nat.zero_add, hlength]
  · intro hsmall
    simp [Block.store, hlength, hsmall]

/-- The header of the composed message declares the reply. -/
theorem Reply.parseTlv_message (d : Reply) :
    (parseTlv (d.message.1.take tlvHeaderLength)).proLen = some d.dataLength := by
  have hle : tlvHeaderLength ≤ d.message.1.length := by
    rw [d.length_message]
    exact Nat.le_add_right _ _
  rw [parseTlv_take_eq_some_iff hle, d.val_message]
  exact List.take_left' (length_tlvHeader _)

theorem Reply.returns (d : Reply) {env : ReadEnv} (henv : env.Hands d.message) {wait : UInt8}
    (hwait : wait ≠ 0) : Returns d.1 (espHostedDriverRead env tlvHeaderLength wait) := by
  obtain ⟨hover, hbuf, hbufLen⟩ :=
    espHostedDriverRead_of_hands henv (by decide : tlvHeaderLength ≠ 0) hwait
  have hlength := d.length_message
  have hle : tlvHeaderLength ≤ d.message.1.length := by
    rw [hlength]
    exact Nat.le_add_right _ _
  have hdrop : d.message.1.drop tlvHeaderLength = d.1 := by
    rw [d.val_message]
    exact List.drop_left' (length_tlvHeader _)
  constructor
  · rw [hbuf hle, d.parseTlv_message, Option.map_some, d.toNat_dataLength,
      loadFrom_of_le _ hlength.ge, hdrop, List.take_length]
  · rw [hbufLen hle, d.parseTlv_message, Option.map_some, d.toNat_dataLength]
  · have hown : (d.message.1.drop 3).take epName.length = epName := by
      rw [d.val_message]
      rfl
    have hread := (overread_parseTlv_take_iff hle).2 fun _ hname => absurd hown hname
    refine hover.2 ⟨hle, hread, ?_⟩
    intro valLen hparse
    rw [d.parseTlv_message, Option.some.injEq] at hparse
    rw [← hparse, d.toNat_dataLength, hlength]

/-- For every request, `read_len` is 13, the read of the message composed of a reply gives
the reply, and `compose_tlv` writes the header and the reply and counts both. -/
theorem tlv_round_trip (dataLength : UInt16) (d : Reply) {env : ReadEnv}
    (henv : env.Hands d.message) {wait : UInt8} (hwait : wait ≠ 0) :
    (readLenOf dataLength).toNat = 13 ∧
      Returns d.1 (espHostedDriverRead env (readLenOf dataLength).toNat wait) ∧
      ∀ buf, Composes d.1 buf (composeTlv buf d.1 d.dataLength) := by
  refine ⟨toNat_readLenOf dataLength, ?_, d.composes⟩
  rw [toNat_readLenOf]
  exact d.returns henv hwait

/-- A reply that takes both bytes of the length field. -/
def longReply : Reply := ⟨List.replicate 300 65, by rw [List.length_replicate]; decide⟩

/-- The request is one whose `buf_len` wraps. -/
theorem tlv_round_trip_wrapped :
    Returns (List.replicate 300 65) (espHostedDriverRead (envWith longReply.message)
      (readLenOf 65530).toNat 30) := by
  have hlength : longReply.message.1.length ≠ 0 := by
    have hpos := longReply.2.1
    rw [longReply.length_message]
    omega
  exact (tlv_round_trip 65530 longReply (envWith_hands hlength) (by decide)).2.1

end Control

end EspHosted
