import EspHosted.Lib.Bytes

/-!
# The SPI frame header and the buffer handle

`EspPayloadHeader` is the packed `struct esp_payload_header` that starts every
SPI buffer; `toBytes` and `ofBytes` give its layout on the little-endian,
low-bits-first target. `computeChecksum` is the 16-bit byte sum of
`compute_checksum`. `InterfaceBufferHandle` is the handle that travels through
`to_slave_queue`, `from_slave_queue` and the serial queue.
-/

namespace EspHosted

open EspHosted.Bytes

/-- `stm_ret_t` -/
inductive StmRet where
  | STM_FAIL
  | STM_OK
  deriving DecidableEq, Repr

/-- `MAX_SPI_BUFFER_SIZE` -/
def maxSpiBufferSize : ℕ := 1600

/-- `sizeof(struct esp_payload_header)` -/
def sizeofEspPayloadHeader : ℕ := 12

/-- `MAX_PAYLOAD_SIZE` -/
def maxPayloadSize : ℕ := maxSpiBufferSize - sizeofEspPayloadHeader

/-! The members of `ESP_INTERFACE_TYPE` that the host names. -/

def espStaIf : UInt8 := 0

def espApIf : UInt8 := 1

def espSerialIf : UInt8 := 2

def espPrivIf : UInt8 := 4

/-- `ESP_PRIV_EVENT_INIT` -/
def espPrivEventInit : UInt8 := 0

/-- `struct esp_payload_header`. The two interface fields are bit-fields of one
byte, `if_type` in its low half. -/
structure EspPayloadHeader where
  ifType : BitVec 4
  ifNum : BitVec 4
  flags : UInt8
  len : UInt16
  offset : UInt16
  checksum : UInt16
  reserved2 : UInt8
  reserved3 : UInt8
  seqNum : UInt16
  deriving DecidableEq, Repr

namespace EspPayloadHeader

/-- The byte that holds both bit-fields. -/
def interfaceByte (ifType ifNum : BitVec 4) : UInt8 :=
  UInt8.ofNat (ifType.toNat + 16 * ifNum.toNat)

def toBytes (h : EspPayloadHeader) : List UInt8 :=
  [interfaceByte h.ifType h.ifNum, h.flags, lowByte h.len, highByte h.len,
    lowByte h.offset, highByte h.offset, lowByte h.checksum, highByte h.checksum,
    h.reserved2, h.reserved3, lowByte h.seqNum, highByte h.seqNum]

/-- The header at the start of a buffer. -/
def ofBytes (buf : List UInt8) : EspPayloadHeader where
  ifType := BitVec.ofNat 4 (buf.getD 0 0).toNat
  ifNum := BitVec.ofNat 4 ((buf.getD 0 0).toNat / 16)
  flags := buf.getD 1 0
  len := le16 (buf.getD 2 0) (buf.getD 3 0)
  offset := le16 (buf.getD 4 0) (buf.getD 5 0)
  checksum := le16 (buf.getD 6 0) (buf.getD 7 0)
  reserved2 := buf.getD 8 0
  reserved3 := buf.getD 9 0
  seqNum := le16 (buf.getD 10 0) (buf.getD 11 0)

/-- `payload_header->checksum = 0` -/
def clearChecksum (h : EspPayloadHeader) : EspPayloadHeader := { h with checksum := 0 }

@[simp] theorem length_toBytes (h : EspPayloadHeader) :
    h.toBytes.length = sizeofEspPayloadHeader := rfl

theorem toNat_interfaceByte (ifType ifNum : BitVec 4) :
    (interfaceByte ifType ifNum).toNat = ifType.toNat + 16 * ifNum.toNat := by
  have ht : ifType.toNat < 16 := ifType.isLt
  have hn : ifNum.toNat < 16 := ifNum.isLt
  rw [interfaceByte, UInt8.toNat_ofNat']
  omega

@[simp] theorem ofNat_interfaceByte (ifType ifNum : BitVec 4) :
    BitVec.ofNat 4 (interfaceByte ifType ifNum).toNat = ifType := by
  have ht : ifType.toNat < 16 := ifType.isLt
  apply BitVec.eq_of_toNat_eq
  rw [BitVec.toNat_ofNat, toNat_interfaceByte]
  omega

@[simp] theorem ofNat_interfaceByte_div (ifType ifNum : BitVec 4) :
    BitVec.ofNat 4 ((interfaceByte ifType ifNum).toNat / 16) = ifNum := by
  have ht : ifType.toNat < 16 := ifType.isLt
  have hn : ifNum.toNat < 16 := ifNum.isLt
  apply BitVec.eq_of_toNat_eq
  rw [BitVec.toNat_ofNat, toNat_interfaceByte]
  omega

theorem interfaceByte_ofNat (b : UInt8) :
    interfaceByte (BitVec.ofNat 4 b.toNat) (BitVec.ofNat 4 (b.toNat / 16)) = b := by
  have hb : b.toNat < 256 := b.toNat_lt
  rw [← UInt8.toNat_inj, toNat_interfaceByte, BitVec.toNat_ofNat, BitVec.toNat_ofNat]
  omega

/-- Reading a stored header gives the header. -/
@[simp] theorem ofBytes_toBytes_append (h : EspPayloadHeader) (rest : List UInt8) :
    ofBytes (h.toBytes ++ rest) = h := by
  simp [ofBytes, toBytes]

/-- A buffer with room for a header is the header read from it and a rest. -/
theorem exists_toBytes_append {buf : List UInt8}
    (h : sizeofEspPayloadHeader ≤ buf.length) :
    ∃ rest, buf = (ofBytes buf).toBytes ++ rest := by
  refine ⟨buf.drop 12, ?_⟩
  obtain ⟨b0, b1, b2, b3, b4, b5, b6, b7, b8, b9, b10, b11, rest, rfl⟩ :
      ∃ b0 b1 b2 b3 b4 b5 b6 b7 b8 b9 b10 b11 rest,
        buf = b0 :: b1 :: b2 :: b3 :: b4 :: b5 :: b6 :: b7 :: b8 :: b9 :: b10 :: b11 ::
          rest := by
    rcases buf with _ | ⟨b0, _ | ⟨b1, _ | ⟨b2, _ | ⟨b3, _ | ⟨b4, _ | ⟨b5, _ | ⟨b6,
      _ | ⟨b7, _ | ⟨b8, _ | ⟨b9, _ | ⟨b10, _ | ⟨b11, rest⟩⟩⟩⟩⟩⟩⟩⟩⟩⟩⟩⟩
    case cons.cons.cons.cons.cons.cons.cons.cons.cons.cons.cons.cons =>
      exact ⟨b0, b1, b2, b3, b4, b5, b6, b7, b8, b9, b10, b11, rest, rfl⟩
    all_goals simp [sizeofEspPayloadHeader] at h
  simp [ofBytes, toBytes, interfaceByte_ofNat]

end EspPayloadHeader

/-- `compute_checksum`: the loop adds the first `len` bytes in a `uint16_t`. -/
def computeChecksum (buf : List UInt8) (len : UInt16) : UInt16 :=
  (buf.take len.toNat).foldl (fun checksum b => checksum + b.toUInt16) 0

theorem toNat_foldl_checksum (l : List UInt8) (c : UInt16) :
    (l.foldl (fun checksum b => checksum + b.toUInt16) c).toNat =
      (c.toNat + byteSum l) % 65536 := by
  induction l generalizing c with
  | nil =>
      have hc : c.toNat < 65536 := c.toNat_lt
      simp only [List.foldl_nil, byteSum_nil]
      omega
  | cons b l ih =>
      rw [List.foldl_cons, ih, UInt16.toNat_add, UInt8.toNat_toUInt16, byteSum_cons]
      omega

/-- The checksum is the byte sum modulo `2 ^ 16`. -/
theorem toNat_computeChecksum (buf : List UInt8) (len : UInt16) :
    (computeChecksum buf len).toNat = byteSum (buf.take len.toNat) % 65536 := by
  rw [computeChecksum, toNat_foldl_checksum]
  simp

/-- `interface_buffer_handle_t`: `payload` is the memory from the payload pointer
to the end of its block, and the block is large enough for `payload_len`. -/
structure InterfaceBufferHandle where
  ifType : UInt8
  ifNum : UInt8
  payload : List UInt8
  payloadLen : ℕ
  payloadLen_le : payloadLen ≤ payload.length
  deriving DecidableEq

attribute [ext] InterfaceBufferHandle

namespace InterfaceBufferHandle

/-- The bytes a handle carries. -/
def data (h : InterfaceBufferHandle) : List UInt8 := h.payload.take h.payloadLen

@[simp] theorem length_data (h : InterfaceBufferHandle) :
    h.data.length = h.payloadLen := by
  have hle := h.payloadLen_le
  rw [data, List.length_take]
  omega

/-- Two handles bring the same packet: interface, length and bytes agree. -/
def SamePacket (h h' : InterfaceBufferHandle) : Prop :=
  h'.ifType = h.ifType ∧ h'.ifNum = h.ifNum ∧ h'.payloadLen = h.payloadLen ∧
    h'.data = h.data

instance (h h' : InterfaceBufferHandle) : Decidable (SamePacket h h') := by
  unfold SamePacket
  infer_instance

end InterfaceBufferHandle

end EspHosted
