import EspHosted.Driver.SpiFrame

/-!
# One corrupted byte in a frame

A frame with exactly one byte changed is compared with the packet it was built
from. The checksum sees every byte of header and payload, but how far it looks is
itself read from the length field. `Cancels` is the one way around it: the high
byte of the length is lowered, and the payload bytes that are cut off together
with the lost header value add up to a multiple of `2 ^ 16`.
-/

namespace EspHosted

open EspHosted.Bytes

namespace EspPayloadHeader

/-- The header after the byte at position `p` has become `v`. -/
def setByte (hd : EspPayloadHeader) (p : ℕ) (v : UInt8) : EspPayloadHeader :=
  ofBytes (hd.toBytes.set p v)

theorem toBytes_setByte (hd : EspPayloadHeader) (p : ℕ) (v : UInt8) :
    (hd.setByte p v).toBytes = hd.toBytes.set p v := by
  have hlen : (hd.toBytes.set p v).length = sizeofEspPayloadHeader := by
    rw [List.length_set, length_toBytes]
  obtain ⟨rest, hrest⟩ := exists_toBytes_append (Nat.le_of_eq hlen.symm)
  have hnil : rest = [] := by
    have h := congrArg List.length hrest
    rw [List.length_append, length_toBytes, hlen] at h
    exact List.length_eq_zero_iff.1 (Nat.left_eq_add.1 h)
  rw [hnil, List.append_nil] at hrest
  exact hrest.symm

section SetByte

variable (hd : EspPayloadHeader) (v : UInt8)

theorem len_setByte {p : ℕ} (hp : p < sizeofEspPayloadHeader) (h₂ : p ≠ 2) (h₃ : p ≠ 3) :
    (hd.setByte p v).len = hd.len := by
  simp only [sizeofEspPayloadHeader] at hp
  interval_cases p <;> first | omega | simp [setByte, toBytes, ofBytes]

/-- Behind the first byte the interface is not touched. -/
theorem interface_setByte {p : ℕ} (h₀ : p ≠ 0) :
    (hd.setByte p v).ifType = hd.ifType ∧ (hd.setByte p v).ifNum = hd.ifNum := by
  have hfirst : (hd.toBytes.set p v).getD 0 0 = interfaceByte hd.ifType hd.ifNum := by
    rw [List.getD_eq_getElem?_getD, List.getElem?_set_ne h₀]
    rfl
  constructor
  · simp only [setByte, ofBytes, hfirst, ofNat_interfaceByte]
  · simp only [setByte, ofBytes, hfirst, ofNat_interfaceByte_div]

theorem len_setByte_low : (hd.setByte 2 v).len = le16 v (highByte hd.len) := rfl

theorem len_setByte_high : (hd.setByte 3 v).len = le16 (lowByte hd.len) v := rfl

theorem checksum_setByte {p : ℕ} (hp : p < sizeofEspPayloadHeader) (h₆ : p ≠ 6)
    (h₇ : p ≠ 7) : (hd.setByte p v).checksum = hd.checksum := by
  simp only [sizeofEspPayloadHeader] at hp
  interval_cases p <;> first | omega | simp [setByte, toBytes, ofBytes]

/-- Changing a byte of the offset field changes the offset. -/
theorem offset_setByte_ne {p : ℕ} (hp : p = 4 ∨ p = 5)
    (hv : hd.toBytes[p]? ≠ some v) : (hd.setByte p v).offset ≠ hd.offset := by
  rcases hp with rfl | rfl
  · exact le16_highByte_ne fun heq => hv (congrArg some heq.symm)
  · exact le16_lowByte_ne fun heq => hv (congrArg some heq.symm)

/-- Changing a byte of the checksum field changes the checksum and nothing else. -/
theorem checksum_setByte_ne {p : ℕ} (hp : p = 6 ∨ p = 7)
    (hv : hd.toBytes[p]? ≠ some v) :
    (hd.setByte p v).checksum ≠ hd.checksum ∧
      (hd.setByte p v).clearChecksum = hd.clearChecksum := by
  rcases hp with rfl | rfl
  · refine ⟨?_, by simp [setByte, clearChecksum, toBytes, ofBytes]⟩
    exact le16_highByte_ne fun heq => hv (congrArg some heq.symm)
  · refine ⟨?_, by simp [setByte, clearChecksum, toBytes, ofBytes]⟩
    exact le16_lowByte_ne fun heq => hv (congrArg some heq.symm)

/-- Outside the checksum field, the byte sum follows the change. -/
theorem byteSum_setByte {p : ℕ} (hp : p < sizeofEspPayloadHeader) (h₆ : p ≠ 6)
    (h₇ : p ≠ 7) :
    byteSum (hd.setByte p v).clearChecksum.toBytes + (hd.toBytes.getD p 0).toNat =
      byteSum hd.clearChecksum.toBytes + v.toNat := by
  have hcleared : (hd.setByte p v).clearChecksum =
      setByte hd.clearChecksum p v := by
    simp only [sizeofEspPayloadHeader] at hp
    interval_cases p <;> first | omega | simp [setByte, clearChecksum, toBytes, ofBytes]
  have hlt : p < hd.clearChecksum.toBytes.length := hp
  have hget : hd.toBytes.getD p 0 = hd.clearChecksum.toBytes[p] := by
    simp only [sizeofEspPayloadHeader] at hp
    interval_cases p <;> first | omega | rfl
  rw [hcleared, toBytes_setByte, hget]
  exact byteSum_set _ p v _

end SetByte

end EspPayloadHeader

namespace Spi

/-- The tests of the receive branch on a header and the bytes behind it. -/
def Accepts (hd : EspPayloadHeader) (body : List UInt8) : Prop :=
  1 ≤ hd.len.toNat ∧ hd.len.toNat ≤ maxPayloadSize ∧
    hd.offset = UInt16.ofNat sizeofEspPayloadHeader ∧
    hd.checksum.toNat = coveredSum hd body % 65536

theorem accepts_of_receiveBranch {rx : SpiBuffer} {hd : EspPayloadHeader}
    {body : List UInt8} (hrx : rx.1 = hd.toBytes ++ body) {h' : InterfaceBufferHandle}
    (h : receiveBranch rx = some h') : Accepts hd body := by
  obtain ⟨hpos, hmax, hoff, hck, -⟩ := (receiveBranch_eq_some_iff hrx h').1 h
  exact ⟨hpos, hmax, hoff, hck⟩

theorem receiveBranch_eq_none {rx : SpiBuffer} {hd : EspPayloadHeader}
    {body : List UInt8} (hrx : rx.1 = hd.toBytes ++ body) (h : ¬ Accepts hd body) :
    receiveBranch rx = none := by
  cases hacc : receiveBranch rx with
  | none => rfl
  | some h' => exact absurd (accepts_of_receiveBranch hrx hacc) h

theorem exists_receiveBranch {rx : SpiBuffer} {hd : EspPayloadHeader}
    {body : List UInt8} (hrx : rx.1 = hd.toBytes ++ body) (h : Accepts hd body) :
    ∃ h', receiveBranch rx = some h' ∧ h'.ifType = UInt8.ofNat hd.ifType.toNat ∧
      h'.ifNum = UInt8.ofNat hd.ifNum.toNat ∧ h'.payload = body ∧
      h'.payloadLen = hd.len.toNat := by
  obtain ⟨hpos, hmax, hoff, hck⟩ := h
  have hlen : rx.1.length = 1600 := rx.2
  have hbody : hd.len.toNat ≤ body.length := by
    rw [hrx, List.length_append, EspPayloadHeader.length_toBytes] at hlen
    simp only [sizeofEspPayloadHeader, maxPayloadSize, maxSpiBufferSize] at hlen hmax
    omega
  refine ⟨⟨_, _, body, hd.len.toNat, hbody⟩, ?_, rfl, rfl, rfl, rfl⟩
  rw [receiveBranch_eq_some_iff hrx]
  exact ⟨hpos, hmax, hoff, hck, rfl, rfl, rfl, rfl⟩

/-- The cut-off part of the payload and what is left in the sum make up the whole:
the padding behind the payload adds nothing. -/
theorem byteSum_take_padded (data : List UInt8) (m k : ℕ) :
    byteSum ((data ++ List.replicate m 0).take k) + byteSum (data.drop k) =
      byteSum data := by
  rw [List.take_append, byteSum_append, List.take_replicate, byteSum_replicate_zero,
    Nat.add_zero, byteSum_take_add_drop]

section Corrupted

variable {h : InterfaceBufferHandle}

/-- The header of the frame of `h`. -/
def frameHeader (h : InterfaceBufferHandle) : EspPayloadHeader :=
  txHeader h (UInt16.ofNat h.payloadLen) (txChecksum h)

/-- The rest of the frame: payload and padding. -/
def frameBody (h : InterfaceBufferHandle) : List UInt8 :=
  h.data ++ List.replicate (maxPayloadSize - h.payloadLen) 0

theorem frame_eq (h : InterfaceBufferHandle) :
    frame h = (frameHeader h).toBytes ++ frameBody h := rfl

theorem frame_set_header (h : InterfaceBufferHandle) {p : ℕ}
    (hp : p < sizeofEspPayloadHeader) (v : UInt8) :
    (frame h).set p v = ((frameHeader h).setByte p v).toBytes ++ frameBody h := by
  rw [frame_eq, List.set_append_left _ _ (by rw [EspPayloadHeader.length_toBytes]; exact hp),
    EspPayloadHeader.toBytes_setByte]

theorem frame_set_body (h : InterfaceBufferHandle) {p : ℕ}
    (hp : sizeofEspPayloadHeader ≤ p) (v : UInt8) :
    (frame h).set p v =
      (frameHeader h).toBytes ++ (frameBody h).set (p - sizeofEspPayloadHeader) v := by
  rw [frame_eq, List.set_append_right _ _ (by rw [EspPayloadHeader.length_toBytes]; exact hp),
    EspPayloadHeader.length_toBytes]

theorem Sendable.len_frameHeader (hs : Sendable h) :
    (frameHeader h).len.toNat = h.payloadLen := hs.toNat_len

theorem Sendable.checksum_frameHeader (hs : Sendable h) :
    (frameHeader h).checksum.toNat =
      (byteSum (frameHeader h).clearChecksum.toBytes + byteSum h.data) % 65536 := by
  have hck := hs.toNat_txChecksum (txChecksum h) []
  rw [List.append_nil, coveredSum] at hck
  have hdata : h.data.take (frameHeader h).len.toNat = h.data := by
    rw [hs.len_frameHeader, ← h.length_data, List.take_length]
  change _ = (_ + byteSum (h.data.take (frameHeader h).len.toNat)) % 65536 at hck
  rw [hdata] at hck
  exact hck

/-- A change that leaves the length alone and shifts the covered sum by less than
256 in either direction is rejected. -/
theorem Sendable.not_accepts_of_shift (hs : Sendable h) {hd : EspPayloadHeader}
    {body : List UInt8} (hck : hd.checksum = (frameHeader h).checksum) {x y : UInt8}
    (hxy : x ≠ y)
    (hsum : coveredSum hd body + x.toNat =
      byteSum (frameHeader h).clearChecksum.toBytes + byteSum h.data + y.toNat) :
    ¬ Accepts hd body := by
  rintro ⟨-, -, -, hacc⟩
  rw [hck, hs.checksum_frameHeader] at hacc
  have hx : x.toNat < 256 := x.toNat_lt
  have hy : y.toNat < 256 := y.toNat_lt
  have hne : x.toNat ≠ y.toNat := fun heq => hxy (UInt8.toNat_inj.1 heq)
  omega

theorem Sendable.coveredSum_frameBody (hs : Sendable h) {hd : EspPayloadHeader}
    (hlen : hd.len = (frameHeader h).len) :
    coveredSum hd (frameBody h) =
      byteSum hd.clearChecksum.toBytes + byteSum h.data := by
  rw [coveredSum, hlen, hs.len_frameHeader, frameBody, List.take_left' h.length_data]

theorem getD_of_frame_ne {p : ℕ} (hp : p < sizeofEspPayloadHeader) {v : UInt8}
    (hv : (frame h)[p]? ≠ some v) :
    (frameHeader h).toBytes[p]? ≠ some v ∧ (frameHeader h).toBytes.getD p 0 ≠ v := by
  rw [frame_eq, List.getElem?_append_left (by rw [EspPayloadHeader.length_toBytes]; exact hp)]
    at hv
  refine ⟨hv, fun heq => hv ?_⟩
  have hlt : p < (frameHeader h).toBytes.length := by
    rw [EspPayloadHeader.length_toBytes]
    exact hp
  rw [List.getD_eq_getElem?_getD, List.getElem?_eq_getElem hlt, Option.getD_some] at heq
  rw [List.getElem?_eq_getElem hlt, heq]

/-- Interface byte, flags, reserved bytes and sequence number are covered by the
checksum. -/
theorem Sendable.not_accepts_header (hs : Sendable h) {p : ℕ}
    (hp : p < sizeofEspPayloadHeader) (hout : p < 2 ∨ 8 ≤ p) {v : UInt8}
    (hv : (frame h)[p]? ≠ some v) :
    ¬ Accepts ((frameHeader h).setByte p v) (frameBody h) := by
  have hlen := (frameHeader h).len_setByte v hp (by omega) (by omega)
  have hck := (frameHeader h).checksum_setByte v hp (by omega) (by omega)
  have hsum := (frameHeader h).byteSum_setByte v hp (by omega) (by omega)
  refine hs.not_accepts_of_shift hck (getD_of_frame_ne hp hv).2 ?_
  rw [hs.coveredSum_frameBody hlen]
  omega

theorem not_accepts_offset {p : ℕ} (hp : p = 4 ∨ p = 5) {v : UInt8}
    (hv : (frame h)[p]? ≠ some v) :
    ¬ Accepts ((frameHeader h).setByte p v) (frameBody h) := by
  have hlt : p < sizeofEspPayloadHeader := by
    simp only [sizeofEspPayloadHeader]
    omega
  rintro ⟨-, -, hoff, -⟩
  exact (frameHeader h).offset_setByte_ne v hp (getD_of_frame_ne hlt hv).1 hoff

theorem Sendable.not_accepts_checksum (hs : Sendable h) {p : ℕ} (hp : p = 6 ∨ p = 7)
    {v : UInt8} (hv : (frame h)[p]? ≠ some v) :
    ¬ Accepts ((frameHeader h).setByte p v) (frameBody h) := by
  have hlt : p < sizeofEspPayloadHeader := by
    simp only [sizeofEspPayloadHeader]
    omega
  obtain ⟨hne, hrest⟩ :=
    (frameHeader h).checksum_setByte_ne v hp (getD_of_frame_ne hlt hv).1
  have hlen := (frameHeader h).len_setByte v hlt (by omega) (by omega)
  rintro ⟨-, -, -, hacc⟩
  rw [hs.coveredSum_frameBody hlen, hrest, ← hs.checksum_frameHeader] at hacc
  exact hne (UInt16.toNat_inj.1 hacc)

theorem frameBody_getElem? (h : InterfaceBufferHandle) {p : ℕ}
    (hp : sizeofEspPayloadHeader ≤ p) :
    (frame h)[p]? = (frameBody h)[p - sizeofEspPayloadHeader]? := by
  rw [frame_eq, List.getElem?_append_right (by rw [EspPayloadHeader.length_toBytes]; exact hp),
    EspPayloadHeader.length_toBytes]

/-- Every payload byte is covered by the checksum. -/
theorem Sendable.not_accepts_payload (hs : Sendable h) {p : ℕ}
    (hp : sizeofEspPayloadHeader ≤ p)
    (hin : p - sizeofEspPayloadHeader < h.payloadLen) {v : UInt8}
    (hv : (frame h)[p]? ≠ some v) :
    ¬ Accepts (frameHeader h) ((frameBody h).set (p - sizeofEspPayloadHeader) v) := by
  have hq : p - sizeofEspPayloadHeader < h.data.length := by
    rw [InterfaceBufferHandle.length_data]
    exact hin
  have hset := byteSum_set h.data _ v hq
  have hold : h.data[p - sizeofEspPayloadHeader] ≠ v := by
    intro heq
    apply hv
    rw [frameBody_getElem? h hp, frameBody, List.getElem?_append_left hq,
      List.getElem?_eq_getElem hq, heq]
  refine hs.not_accepts_of_shift rfl hold ?_
  rw [coveredSum, hs.len_frameHeader, List.take_set, frameBody,
    List.take_left' h.length_data]
  omega

/-- The padding is not looked at. -/
theorem Sendable.receiveBranch_padding (hs : Sendable h) (ht : h.ifType.toNat < 16)
    (hn : h.ifNum.toNat < 16) {q : ℕ} (hq : h.payloadLen ≤ q) (v : UInt8)
    {rx : SpiBuffer} (hrx : rx.1 = (frameHeader h).toBytes ++ (frameBody h).set q v) :
    ∃ h', receiveBranch rx = some h' ∧ h.SamePacket h' := by
  have htake : ((frameBody h).set q v).take h.payloadLen = h.data := by
    rw [List.take_set_of_le hq, frameBody, List.take_left' h.length_data]
  have hacc : Accepts (frameHeader h) ((frameBody h).set q v) := by
    refine ⟨?_, ?_, rfl, ?_⟩
    · exact hs.len_frameHeader.symm ▸ hs.1
    · exact hs.len_frameHeader.symm ▸ hs.2
    · rw [coveredSum, hs.len_frameHeader, htake, hs.checksum_frameHeader]
  obtain ⟨h', hsome, htype, hnum, hpay, hlen⟩ := exists_receiveBranch hrx hacc
  refine ⟨h', hsome, ?_, ?_, ?_, ?_⟩
  · exact htype.trans (ofNat_toNat_bitField ht)
  · exact hnum.trans (ofNat_toNat_bitField hn)
  · exact hlen.trans hs.len_frameHeader
  · rw [InterfaceBufferHandle.data, hpay, hlen, hs.len_frameHeader, htake]

/-- A changed length moves the end of the covered region. The header sum changes
by the byte, the payload sum by the part that is cut off. -/
theorem coveredSum_setByte_len {p : ℕ} (hp : p = 2 ∨ p = 3) (v : UInt8) :
    coveredSum ((frameHeader h).setByte p v) (frameBody h) +
        ((frameHeader h).toBytes.getD p 0).toNat +
          byteSum (h.data.drop ((frameHeader h).setByte p v).len.toNat) =
      byteSum (frameHeader h).clearChecksum.toBytes + byteSum h.data + v.toNat := by
  have hlt : p < sizeofEspPayloadHeader := by
    simp only [sizeofEspPayloadHeader]
    omega
  have hsum := (frameHeader h).byteSum_setByte v hlt (by omega) (by omega)
  have hcut := byteSum_take_padded h.data (maxPayloadSize - h.payloadLen)
    ((frameHeader h).setByte p v).len.toNat
  rw [coveredSum, frameBody]
  omega

theorem Sendable.accepts_len_iff (hs : Sendable h) {p : ℕ} (hp : p = 2 ∨ p = 3)
    (v : UInt8) :
    Accepts ((frameHeader h).setByte p v) (frameBody h) ↔
      1 ≤ ((frameHeader h).setByte p v).len.toNat ∧
        ((frameHeader h).setByte p v).len.toNat ≤ maxPayloadSize ∧
        (byteSum (frameHeader h).clearChecksum.toBytes + byteSum h.data) % 65536 =
          coveredSum ((frameHeader h).setByte p v) (frameBody h) % 65536 := by
  have hlt : p < sizeofEspPayloadHeader := by
    simp only [sizeofEspPayloadHeader]
    omega
  have hck := (frameHeader h).checksum_setByte v hlt (by omega) (by omega)
  have hoff : ((frameHeader h).setByte p v).offset = UInt16.ofNat sizeofEspPayloadHeader := by
    rcases hp with rfl | rfl <;>
      simp [EspPayloadHeader.setByte, EspPayloadHeader.toBytes, EspPayloadHeader.ofBytes,
        frameHeader, txHeader]
  rw [Accepts, hck, hs.checksum_frameHeader]
  constructor
  · intro hacc
    exact ⟨hacc.1, hacc.2.1, hacc.2.2.2⟩
  · intro hacc
    exact ⟨hacc.1, hacc.2.1, hoff, hacc.2.2⟩

/-- The bytes that a length with the high byte `v` cuts off. -/
def cutOff (h : InterfaceBufferHandle) (v : UInt8) : ℕ := 256 * (h.payloadLen / 256 - v.toNat)

/-- The packet without its last `n` bytes. -/
structure CutBy (h : InterfaceBufferHandle) (n : ℕ) (h' : InterfaceBufferHandle) : Prop where
  ifType : h'.ifType = h.ifType
  ifNum : h'.ifNum = h.ifNum
  payloadLen : h'.payloadLen = h.payloadLen - n
  data : h'.data = h.data.take (h.payloadLen - n)

/-- The change of the high length byte that the checksum does not see. -/
def Cancels (h : InterfaceBufferHandle) (p : ℕ) (v : UInt8) : Prop :=
  p = 3 ∧ v.toNat < h.payloadLen / 256 ∧
    256 * (h.payloadLen / 256 - v.toNat) < h.payloadLen ∧
    (h.payloadLen / 256 - v.toNat +
      byteSum (h.data.drop (h.payloadLen - 256 * (h.payloadLen / 256 - v.toNat)))) %
        65536 = 0

/-- Lowering the length by less than 256 cuts off too little to go around the
checksum, and raising it takes in padding only. -/
theorem Sendable.not_accepts_lowByte (hs : Sendable h) {v : UInt8}
    (hv : (frame h)[2]? ≠ some v) :
    ¬ Accepts ((frameHeader h).setByte 2 v) (frameBody h) := by
  intro hacc
  obtain ⟨-, -, hmod⟩ := (hs.accepts_len_iff (Or.inl rfl) v).1 hacc
  have hne := (getD_of_frame_ne (by decide) hv).2
  have hold : ((frameHeader h).toBytes.getD 2 0).toNat = h.payloadLen % 256 := by
    change (lowByte (frameHeader h).len).toNat = _
    rw [toNat_lowByte, hs.len_frameHeader]
  have hnew : ((frameHeader h).setByte 2 v).len.toNat =
      v.toNat + 256 * (h.payloadLen / 256) := by
    rw [EspPayloadHeader.len_setByte_low, toNat_le16, toNat_highByte, hs.len_frameHeader]
  have hcov := coveredSum_setByte_len (h := h) (Or.inl rfl) v
  have hcut := byteSum_le (h.data.drop ((frameHeader h).setByte 2 v).len.toNat)
  rw [List.length_drop, InterfaceBufferHandle.length_data] at hcut
  have hvne : v.toNat ≠ h.payloadLen % 256 := by
    rw [← hold]
    exact fun heq => hne (UInt8.toNat_inj.1 heq).symm
  have hvlt : v.toNat < 256 := v.toNat_lt
  omega

theorem Sendable.accepts_highByte_iff (hs : Sendable h) {v : UInt8}
    (hv : (frame h)[3]? ≠ some v) :
    Accepts ((frameHeader h).setByte 3 v) (frameBody h) ↔ Cancels h 3 v := by
  have hmax : h.payloadLen ≤ 1588 := hs.2
  have hne := (getD_of_frame_ne (by decide) hv).2
  have hold : ((frameHeader h).toBytes.getD 3 0).toNat = h.payloadLen / 256 := by
    change (highByte (frameHeader h).len).toNat = _
    rw [toNat_highByte, hs.len_frameHeader]
  have hnew : ((frameHeader h).setByte 3 v).len.toNat =
      h.payloadLen % 256 + 256 * v.toNat := by
    rw [EspPayloadHeader.len_setByte_high, toNat_le16, toNat_lowByte, hs.len_frameHeader]
  have hcov := coveredSum_setByte_len (h := h) (Or.inr rfl) v
  have hvne : v.toNat ≠ h.payloadLen / 256 := by
    rw [← hold]
    exact fun heq => hne (UInt8.toNat_inj.1 heq).symm
  have hvlt : v.toNat < 256 := v.toNat_lt
  rw [hs.accepts_len_iff (Or.inr rfl), hnew, Cancels, maxPayloadSize, maxSpiBufferSize,
    sizeofEspPayloadHeader]
  rw [hold, hnew] at hcov
  rcases Nat.lt_or_gt_of_ne hvne with hlow | hhigh
  · have hrest : h.payloadLen % 256 + 256 * v.toNat =
        h.payloadLen - 256 * (h.payloadLen / 256 - v.toNat) := by omega
    rw [hrest] at hcov ⊢
    constructor
    · intro hacc
      obtain ⟨hpos, -, hmod⟩ := hacc
      exact ⟨rfl, hlow, by omega, by omega⟩
    · intro hcancel
      obtain ⟨-, -, hpos, hmod⟩ := hcancel
      exact ⟨by omega, by omega, by omega⟩
  · have hnil : byteSum (h.data.drop (h.payloadLen % 256 + 256 * v.toNat)) = 0 := by
      rw [List.drop_eq_nil_of_le, byteSum_nil]
      rw [InterfaceBufferHandle.length_data]
      omega
    rw [hnil] at hcov
    constructor
    · intro hacc
      obtain ⟨-, -, hmod⟩ := hacc
      omega
    · intro hcancel
      obtain ⟨-, hlow, -⟩ := hcancel
      omega

/-- The length that a lowered high byte leaves. -/
theorem Sendable.len_setByte_high_of_lt (hs : Sendable h) {v : UInt8}
    (hv : v.toNat < h.payloadLen / 256) :
    ((frameHeader h).setByte 3 v).len.toNat = h.payloadLen - cutOff h v := by
  rw [EspPayloadHeader.len_setByte_high, toNat_le16, toNat_lowByte, hs.len_frameHeader, cutOff]
  omega

/-- A change that cancels out cuts the end off. -/
theorem Sendable.receiveBranch_cut (hs : Sendable h) (ht : h.ifType.toNat < 16)
    (hn : h.ifNum.toNat < 16) {p : ℕ} {v : UInt8} (hv : (frame h)[p]? ≠ some v)
    (hcancel : Cancels h p v) {rx : SpiBuffer} (hrx : rx.1 = (frame h).set p v) :
    ∃ h', receiveBranch rx = some h' ∧ CutBy h (cutOff h v) h' := by
  obtain rfl := hcancel.1
  have hacc := (hs.accepts_highByte_iff hv).2 hcancel
  have hrx' := hrx.trans (frame_set_header h (by decide) v)
  obtain ⟨h', hsome, htype, hnum, hpay, hlen⟩ := exists_receiveBranch hrx' hacc
  obtain ⟨hifType, hifNum⟩ := (frameHeader h).interface_setByte v (by decide : 3 ≠ 0)
  rw [hifType] at htype
  rw [hifNum] at hnum
  have hrest := hlen.trans (hs.len_setByte_high_of_lt hcancel.2.1)
  refine ⟨h', hsome, ?_, ?_, hrest, ?_⟩
  · exact htype.trans (ofNat_toNat_bitField ht)
  · exact hnum.trans (ofNat_toNat_bitField hn)
  · have hle : h.payloadLen - cutOff h v ≤ h.data.length := by
      rw [h.length_data]
      exact Nat.sub_le _ _
    rw [InterfaceBufferHandle.data, hpay, hrest, frameBody, List.take_append_of_le_length hle]

/-- A frame with one byte changed is dropped or brings its own packet, unless the
change cancels out in the checksum. -/
theorem Sendable.receiveBranch_corrupted_iff (hs : Sendable h) (ht : h.ifType.toNat < 16)
    (hn : h.ifNum.toNat < 16) {p : ℕ} (hp : p < maxSpiBufferSize) {v : UInt8}
    (hv : (frame h)[p]? ≠ some v) {rx : SpiBuffer} (hrx : rx.1 = (frame h).set p v) :
    (receiveBranch rx = none ∨ ∃ h', receiveBranch rx = some h' ∧ h.SamePacket h') ↔
      ¬ Cancels h p v := by
  rcases Nat.lt_or_ge p sizeofEspPayloadHeader with hhead | hbody
  · have hrx' := hrx.trans (frame_set_header h hhead v)
    by_cases h₃ : p = 3
    · subst h₃
      rw [← hs.accepts_highByte_iff hv]
      constructor
      · intro hor hacc
        obtain ⟨h', hsome, -, -, -, hlen⟩ := exists_receiveBranch hrx' hacc
        rcases hor with hnone | hsame
        · rw [hsome] at hnone
          cases hnone
        · obtain ⟨h'', hsome', -, -, hlen', -⟩ := hsame
          rw [hsome, Option.some.injEq] at hsome'
          subst hsome'
          obtain ⟨-, hlow, hpos, -⟩ := (hs.accepts_highByte_iff hv).1 hacc
          rw [hlen', EspPayloadHeader.len_setByte_high, toNat_le16, toNat_lowByte,
            hs.len_frameHeader] at hlen
          omega
      · intro hacc
        exact Or.inl (receiveBranch_eq_none hrx' hacc)
    · have hnot : ¬ Accepts ((frameHeader h).setByte p v) (frameBody h) := by
        by_cases h₂ : p = 2
        · subst h₂
          exact hs.not_accepts_lowByte hv
        · by_cases hoff : p = 4 ∨ p = 5
          · exact not_accepts_offset hoff hv
          · by_cases hck : p = 6 ∨ p = 7
            · exact hs.not_accepts_checksum hck hv
            · exact hs.not_accepts_header hhead (by omega) hv
      constructor
      · intro _ hcancel
        exact h₃ hcancel.1
      · intro _
        exact Or.inl (receiveBranch_eq_none hrx' hnot)
  · have hrx' := hrx.trans (frame_set_body h hbody v)
    have hcancel : ¬ Cancels h p v := by
      intro hcancel
      rw [hcancel.1] at hbody
      exact absurd hbody (by decide)
    refine ⟨fun _ => hcancel, fun _ => ?_⟩
    rcases Nat.lt_or_ge (p - sizeofEspPayloadHeader) h.payloadLen with hin | hpad
    · exact Or.inl (receiveBranch_eq_none hrx' (hs.not_accepts_payload hbody hin hv))
    · exact Or.inr (hs.receiveBranch_padding ht hn hpad v hrx')

end Corrupted

/-- For every frame of `get_tx_buffer` and every change of exactly one byte, the
receive path drops the frame or queues the packet that was sent, except when the
change cancels out in the checksum: then it queues the packet without the bytes that
the changed length cuts off. -/
theorem corrupted_frame_dropped_or_intact_iff (ifaceType ifaceNum : UInt8) (wlen : UInt16)
    (b : WBuffer wlen) (ht : ifaceType.toNat < 16) (hn : ifaceNum.toNat < 16)
    (hpos : 1 ≤ wlen.toNat) (hmax : wlen.toNat ≤ maxPayloadSize) :
    ∃ (h : InterfaceBufferHandle) (fr : SpiBuffer),
      (sendToSlave ifaceType ifaceNum wlen (some b) true).queued = some h ∧
        h.data = b.1.take wlen.toNat ∧ (getTxBuffer (some h)).sendbuf = some fr.1 ∧
        ∀ (p : ℕ) (v : UInt8) (rx : SpiBuffer) (txbuff : Option (List UInt8)),
          p < maxSpiBufferSize → fr.1[p]? ≠ some v → rx.1 = fr.1.set p v →
          (((spiTransactionEsp32s2 txbuff .HAL_OK rx true).queued = none ∨
              ∃ h', (spiTransactionEsp32s2 txbuff .HAL_OK rx true).queued = some h' ∧
                h.SamePacket h') ↔ ¬ Cancels h p v) ∧
          (Cancels h p v →
            ∃ h', (spiTransactionEsp32s2 txbuff .HAL_OK rx true).queued = some h' ∧
              CutBy h (cutOff h v) h') := by
  have hs : Sendable (txHandle ifaceType ifaceNum b) := ⟨hpos, hmax⟩
  refine ⟨_, ⟨frame _, hs.length_frame⟩, sendToSlave_of_le ifaceType ifaceNum b hpos hmax,
    rfl, by rw [hs.getTxBuffer_eq], ?_⟩
  intro p v rx txbuff hp hv hrx
  rw [spiTransactionEsp32s2, spiTransaction_queued, if_pos ⟨rfl, rfl⟩]
  exact ⟨hs.receiveBranch_corrupted_iff ht hn hp hv hrx,
    fun hcancel => hs.receiveBranch_cut ht hn hv hcancel hrx⟩

/-- 600 payload bytes whose last 512 add up to `2 ^ 16 - 2`. -/
def cancellingPayload : WBuffer 600 :=
  ⟨List.replicate 343 0 ++ (254 :: List.replicate 256 255), by
    rw [List.length_append, List.length_cons, List.length_replicate, List.length_replicate]
    decide⟩

theorem cancels_cancellingPayload : Cancels (txHandle 0 0 cancellingPayload) 3 0 := by
  have hcut : byteSum ((txHandle 0 0 cancellingPayload).data.drop 88) = 65534 := by
    decide +kernel
  have h600 : (txHandle 0 0 cancellingPayload).payloadLen = 600 := rfl
  have h88 : 600 - 256 * (600 / 256 - (0 : UInt8).toNat) = 88 := by decide
  rw [Cancels, h600, h88, hcut]
  decide

/-- Of the 600 bytes, a change of the first one is seen, and the high length byte 0 leaves
the first 88. -/
theorem corrupted_frame_cancelling_payload :
    ∃ (h : InterfaceBufferHandle) (fr : SpiBuffer),
      (sendToSlave 0 0 600 (some cancellingPayload) true).queued = some h ∧
        (getTxBuffer (some h)).sendbuf = some fr.1 ∧
        (∀ rx : SpiBuffer, fr.1[12]? ≠ some 8 → rx.1 = fr.1.set 12 8 →
          (spiTransactionEsp32s2 none .HAL_OK rx true).queued = none ∨
            ∃ h', (spiTransactionEsp32s2 none .HAL_OK rx true).queued = some h' ∧
              h.SamePacket h') ∧
        ∀ rx : SpiBuffer, fr.1[3]? ≠ some 0 → rx.1 = fr.1.set 3 0 →
          ∃ h', (spiTransactionEsp32s2 none .HAL_OK rx true).queued = some h' ∧
            CutBy h 512 h' := by
  obtain ⟨h, fr, hq, -, hfr, hall⟩ := corrupted_frame_dropped_or_intact_iff 0 0 600
    cancellingPayload (by decide) (by decide) (by decide) (by decide)
  have hh : h = txHandle 0 0 cancellingPayload := by
    rw [sendToSlave_of_le 0 0 cancellingPayload (by decide) (by decide)] at hq
    exact (Option.some.inj hq).symm
  refine ⟨h, fr, hq, hfr, fun rx hv hrx => ?_, fun rx hv hrx => ?_⟩
  · exact (hall 12 8 rx none (by decide) hv hrx).1.2 fun hcancel => absurd hcancel.1 (by decide)
  · have hcancel : Cancels h 3 0 := by
      rw [hh]
      exact cancels_cancellingPayload
    have hcut : cutOff h 0 = 512 := by
      rw [hh]
      rfl
    rw [← hcut]
    exact (hall 3 0 rx none (by decide) hv hrx).2 hcancel

/-- With the high byte of the length changed from 2 to 0, a frame of 600 bytes is
delivered as its first 88 bytes. -/
theorem corrupted_length_delivered :
    ∃ (h h' : InterfaceBufferHandle) (fr rx : SpiBuffer),
      (sendToSlave 0 0 600 (some cancellingPayload) true).queued = some h ∧
        (getTxBuffer (some h)).sendbuf = some fr.1 ∧ fr.1[3]? = some 2 ∧
        rx.1 = fr.1.set 3 0 ∧
        (spiTransactionEsp32s2 none .HAL_OK rx true).queued = some h' ∧
        h.payloadLen = 600 ∧ h'.payloadLen = 88 ∧ ¬ h.SamePacket h' := by
  have hs : Sendable (txHandle 0 0 cancellingPayload) := by
    constructor <;> decide
  have hlen : (List.set (frame (txHandle 0 0 cancellingPayload)) 3 0).length =
      maxSpiBufferSize := by
    rw [List.length_set, hs.length_frame]
  have hold : (frame (txHandle 0 0 cancellingPayload))[3]? = some 2 := rfl
  have hne : (frame (txHandle 0 0 cancellingPayload))[3]? ≠ some 0 := by
    rw [hold]
    decide
  have hbytes : (⟨_, hlen⟩ : SpiBuffer).1 = (frame (txHandle 0 0 cancellingPayload)).set 3 0 := rfl
  obtain ⟨h', hrecv, hcut⟩ := hs.receiveBranch_cut (by decide) (by decide) hne
    cancels_cancellingPayload hbytes
  have h88 : h'.payloadLen = 88 := hcut.payloadLen
  refine ⟨txHandle 0 0 cancellingPayload, h', ⟨frame _, hs.length_frame⟩, ⟨_, hlen⟩,
    sendToSlave_of_le 0 0 cancellingPayload (by decide) (by decide),
    by rw [hs.getTxBuffer_eq], hold, rfl, ?_, rfl, h88, ?_⟩
  · rw [spiTransactionEsp32s2, spiTransaction_queued, if_pos ⟨rfl, rfl⟩]
    exact hrecv
  · intro hsame
    have h600 : h'.payloadLen = 600 := hsame.2.2.1
    omega

end Spi

end EspHosted
