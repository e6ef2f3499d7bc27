import EspHosted.Driver.SpiDrv
import Mathlib.Tactic.IntervalCases

/-!
# The SPI frame is a faithful encoding

`frame` is the closed form of the buffer that `get_tx_buffer` builds: header,
payload, zero padding. `receiveBranch_eq_some_iff` says when a received buffer is
accepted and what is delivered. Together they give the two round trips: a frame
is read back as the packet it was built from, and an accepted buffer agrees with
the frame rebuilt from its packet on every byte the receiver looks at.
-/

namespace EspHosted

open EspHosted.Bytes

namespace Spi

/-- What `compute_checksum` adds up for a header with its checksum field cleared
and the payload it announces. -/
def coveredSum (hd : EspPayloadHeader) (body : List UInt8) : ℕ :=
  byteSum hd.clearChecksum.toBytes + byteSum (body.take hd.len.toNat)

/-- The checksum `get_tx_buffer` stores. -/
def txChecksum (h : InterfaceBufferHandle) : UInt16 :=
  UInt16.ofNat (coveredSum (txHeader h (UInt16.ofNat h.payloadLen) 0) h.data)

/-- The frame of a handle: header, payload, zeros up to the buffer size. -/
def frame (h : InterfaceBufferHandle) : List UInt8 :=
  (txHeader h (UInt16.ofNat h.payloadLen) (txChecksum h)).toBytes ++
    (h.data ++ List.replicate (maxPayloadSize - h.payloadLen) 0)

/-- A length that `send_to_slave` lets through. -/
def Sendable (h : InterfaceBufferHandle) : Prop :=
  1 ≤ h.payloadLen ∧ h.payloadLen ≤ maxPayloadSize

section Frame

variable {h : InterfaceBufferHandle}

theorem sendable_of_sendToSlave {ifaceType ifaceNum : UInt8} {wlen : UInt16}
    {wbuffer : Option (WBuffer wlen)} {queueSend : Bool}
    (hq : (sendToSlave ifaceType ifaceNum wlen wbuffer queueSend).queued = some h) :
    Sendable h := by
  obtain ⟨b, -, hpos, hmax, rfl⟩ := sendToSlave_queued hq
  exact ⟨hpos, hmax⟩

theorem Sendable.toNat_len (hs : Sendable h) :
    (UInt16.ofNat h.payloadLen).toNat = h.payloadLen := by
  have hmax : h.payloadLen ≤ 1588 := hs.2
  rw [UInt16.toNat_ofNat']
  omega

theorem Sendable.length_frame (hs : Sendable h) :
    (frame h).length = maxSpiBufferSize := by
  have hmax : h.payloadLen ≤ 1588 := hs.2
  simp only [frame, List.length_append, EspPayloadHeader.length_toBytes,
    InterfaceBufferHandle.length_data, List.length_replicate, maxPayloadSize,
    maxSpiBufferSize, sizeofEspPayloadHeader]
  omega

theorem Sendable.take_data (hs : Sendable h) (rest : List UInt8) :
    (h.data ++ rest).take (UInt16.ofNat h.payloadLen).toNat = h.data := by
  rw [hs.toNat_len]
  exact List.take_left' h.length_data

theorem Sendable.take_frame (hs : Sendable h) (checksum : UInt16) (rest : List UInt8) :
    ((txHeader h (UInt16.ofNat h.payloadLen) checksum).toBytes ++ (h.data ++ rest)).take
        (UInt16.ofNat sizeofEspPayloadHeader + UInt16.ofNat h.payloadLen).toNat =
      (txHeader h (UInt16.ofNat h.payloadLen) checksum).toBytes ++ h.data := by
  have hmax : h.payloadLen ≤ 1588 := hs.2
  have hsize : (UInt16.ofNat sizeofEspPayloadHeader).toNat = 12 := rfl
  rw [← List.append_assoc]
  apply List.take_left'
  rw [List.length_append, EspPayloadHeader.length_toBytes,
    InterfaceBufferHandle.length_data, UInt16.toNat_add, hsize, hs.toNat_len]
  simp only [sizeofEspPayloadHeader]
  omega

/-- The stores of `get_tx_buffer`, one after the other, leave the frame. -/
theorem Sendable.getTxBuffer_eq (hs : Sendable h) :
    getTxBuffer (some h) =
      { sendbuf := some (frame h), isValidTxBuf := true, freeBufHandle := true } := by
  have hpos : 1 ≤ h.payloadLen := hs.1
  have hlen : (UInt16.ofNat h.payloadLen).toNat = h.payloadLen := hs.toNat_len
  have hne : UInt16.ofNat h.payloadLen ≠ 0 := by
    intro h0
    rw [h0] at hlen
    exact absurd hlen.symm (Nat.ne_of_gt hpos)
  have hcopy : h.payload.take (min (UInt16.ofNat h.payloadLen).toNat maxPayloadSize) =
      h.data := by
    rw [hlen, Nat.min_eq_left hs.2]
    rfl
  have hheader : patch (List.replicate maxSpiBufferSize 0) 0
      (txHeader h (UInt16.ofNat h.payloadLen) 0).toBytes =
        (txHeader h (UInt16.ofNat h.payloadLen) 0).toBytes ++
          List.replicate maxPayloadSize 0 :=
    patch_replicate maxSpiBufferSize 0 _
  have hpayload : patch ((txHeader h (UInt16.ofNat h.payloadLen) 0).toBytes ++
      List.replicate maxPayloadSize 0) sizeofEspPayloadHeader h.data =
        (txHeader h (UInt16.ofNat h.payloadLen) 0).toBytes ++
          (h.data ++ List.replicate (maxPayloadSize - h.payloadLen) 0) := by
    have hcopy := patch_append_replicate
      (txHeader h (UInt16.ofNat h.payloadLen) 0).toBytes h.data maxPayloadSize 0
      (by rw [InterfaceBufferHandle.length_data]; exact hs.2)
    rwa [InterfaceBufferHandle.length_data] at hcopy
  have hchecksum : computeChecksum ((txHeader h (UInt16.ofNat h.payloadLen) 0).toBytes ++
      (h.data ++ List.replicate (maxPayloadSize - h.payloadLen) 0))
      (UInt16.ofNat sizeofEspPayloadHeader + UInt16.ofNat h.payloadLen) =
        txChecksum h := by
    have htake : h.data.take (UInt16.ofNat h.payloadLen).toNat = h.data := by
      simpa using hs.take_data []
    rw [← UInt16.toNat_inj, toNat_computeChecksum, hs.take_frame, txChecksum,
      UInt16.toNat_ofNat', byteSum_append, coveredSum]
    change _ = (_ + byteSum (h.data.take (UInt16.ofNat h.payloadLen).toNat)) % 65536
    rw [htake]
    rfl
  simp only [getTxBuffer, hne, if_false, hcopy, hheader, hpayload, hchecksum]
  rfl

end Frame

section Receive

theorem patch_checksum (hd : EspPayloadHeader) (body : List UInt8) :
    patch (hd.toBytes ++ body) 6 [0, 0] = hd.clearChecksum.toBytes ++ body := by
  simp [patch, EspPayloadHeader.clearChecksum, EspPayloadHeader.toBytes, lowByte, highByte]

theorem take_covered (hd : EspPayloadHeader) (body : List UInt8)
    (hlen : hd.len.toNat ≤ maxPayloadSize)
    (hoff : hd.offset = UInt16.ofNat sizeofEspPayloadHeader) :
    (hd.clearChecksum.toBytes ++ body).take (hd.len + hd.offset).toNat =
      hd.clearChecksum.toBytes ++ body.take hd.len.toNat := by
  have hlen' : hd.len.toNat ≤ 1588 := hlen
  have hsize : (UInt16.ofNat sizeofEspPayloadHeader).toNat = 12 := rfl
  have hsum : (hd.len + hd.offset).toNat =
      hd.clearChecksum.toBytes.length + hd.len.toNat := by
    rw [UInt16.toNat_add, hoff, hsize, EspPayloadHeader.length_toBytes]
    simp only [sizeofEspPayloadHeader]
    omega
  rw [hsum]
  exact List.take_length_add_append _

/-- When a received buffer is accepted, and the handle it is delivered in. -/
theorem receiveBranch_eq_some_iff {rx : SpiBuffer} {hd : EspPayloadHeader}
    {body : List UInt8} (hrx : rx.1 = hd.toBytes ++ body) (h' : InterfaceBufferHandle) :
    receiveBranch rx = some h' ↔
      1 ≤ hd.len.toNat ∧ hd.len.toNat ≤ maxPayloadSize ∧
        hd.offset = UInt16.ofNat sizeofEspPayloadHeader ∧
        hd.checksum.toNat = coveredSum hd body % 65536 ∧
        h'.ifType = UInt8.ofNat hd.ifType.toNat ∧ h'.ifNum = UInt8.ofNat hd.ifNum.toNat ∧
        h'.payload = body ∧ h'.payloadLen = hd.len.toNat := by
  have hof : EspPayloadHeader.ofBytes rx.1 = hd := by
    rw [hrx]
    exact EspPayloadHeader.ofBytes_toBytes_append hd body
  have hclear : patch rx.1 6 [0, 0] = hd.clearChecksum.toBytes ++ body := by
    rw [hrx]
    exact patch_checksum hd body
  have hdrop : (patch rx.1 6 [0, 0]).drop sizeofEspPayloadHeader = body := by
    rw [hclear]
    exact List.drop_left' (EspPayloadHeader.length_toBytes _)
  unfold receiveBranch
  simp only [hof]
  by_cases hrej : hd.len = 0 ∨ maxPayloadSize < hd.len.toNat ∨
      hd.offset ≠ UInt16.ofNat sizeofEspPayloadHeader
  · rw [dif_pos hrej]
    constructor
    · intro hnone
      cases hnone
    · intro hacc
      obtain ⟨hpos, hmax, hoff, -⟩ := hacc
      rcases hrej with h0 | h1 | h2
      · rw [h0] at hpos
        exact absurd hpos (by decide)
      · omega
      · exact absurd hoff h2
  · rw [dif_neg hrej]
    simp only [not_or, Nat.not_lt, ne_eq, not_not] at hrej
    obtain ⟨hne, hmax, hoff⟩ := hrej
    have hpos : 1 ≤ hd.len.toNat := by
      rcases Nat.eq_zero_or_pos hd.len.toNat with h0 | hpos
      · exact absurd (UInt16.toNat_inj.1 h0) hne
      · exact hpos
    have hsum : (computeChecksum (patch rx.1 6 [0, 0]) (hd.len + hd.offset)).toNat =
        coveredSum hd body % 65536 := by
      rw [toNat_computeChecksum, hclear, take_covered hd body hmax hoff, byteSum_append]
      rfl
    have hck : computeChecksum (patch rx.1 6 [0, 0]) (hd.len + hd.offset) = hd.checksum ↔
        hd.checksum.toNat = coveredSum hd body % 65536 := by
      rw [← hsum, ← UInt16.toNat_inj]
      exact eq_comm
    by_cases hsame : computeChecksum (patch rx.1 6 [0, 0]) (hd.len + hd.offset) = hd.checksum
    · rw [if_pos hsame, Option.some.injEq]
      constructor
      · intro heq
        subst heq
        exact ⟨hpos, hmax, hoff, hck.1 hsame, rfl, rfl, hdrop, rfl⟩
      · rintro ⟨-, -, -, -, ht, hn, hp, hl⟩
        exact InterfaceBufferHandle.ext ht.symm hn.symm (hdrop.trans hp.symm) hl.symm
    · rw [if_neg hsame]
      constructor
      · intro hnone
        cases hnone
      · intro hacc
        exact absurd (hck.2 hacc.2.2.2.1) hsame

/-- `receiveBranch_eq_some_iff` at the header and body of the buffer itself. -/
theorem exists_header_body (rx : SpiBuffer) :
    ∃ body, rx.1 = (EspPayloadHeader.ofBytes rx.1).toBytes ++ body ∧
      body.length = maxPayloadSize := by
  have hrx : rx.1.length = 1600 := rx.2
  have hsize : sizeofEspPayloadHeader ≤ rx.1.length := by
    rw [hrx, sizeofEspPayloadHeader]
    omega
  obtain ⟨body, hbody⟩ := EspPayloadHeader.exists_toBytes_append hsize
  refine ⟨body, hbody, ?_⟩
  have hlen := congrArg List.length hbody
  rw [List.length_append, EspPayloadHeader.length_toBytes, hrx] at hlen
  simp only [sizeofEspPayloadHeader, maxPayloadSize, maxSpiBufferSize] at hlen ⊢
  omega

end Receive

/-! ## Decoding what was encoded -/

section RoundTrip

variable {h : InterfaceBufferHandle}

/-- The bit-field keeps an interface number below 16. -/
theorem ofNat_toNat_bitField {x : UInt8} (hx : x.toNat < 16) :
    UInt8.ofNat (BitVec.ofNat 4 x.toNat).toNat = x := by
  rw [BitVec.toNat_ofNat, Nat.mod_eq_of_lt hx, UInt8.ofNat_toNat]

theorem Sendable.toNat_txChecksum (hs : Sendable h) (checksum : UInt16)
    (rest : List UInt8) :
    (txChecksum h).toNat =
      coveredSum (txHeader h (UInt16.ofNat h.payloadLen) checksum) (h.data ++ rest) %
        65536 := by
  have hdata : h.data.take (UInt16.ofNat h.payloadLen).toNat = h.data := by
    simpa using hs.take_data []
  have hrest := hs.take_data rest
  rw [txChecksum, UInt16.toNat_ofNat', coveredSum, coveredSum]
  change (_ + byteSum (h.data.take (UInt16.ofNat h.payloadLen).toNat)) % _ =
    (_ + byteSum ((h.data ++ rest).take (UInt16.ofNat h.payloadLen).toNat)) % _
  rw [hdata, hrest]
  rfl

/-- The frame of a packet is accepted, and it brings that packet. -/
theorem Sendable.receiveBranch_frame (hs : Sendable h) (ht : h.ifType.toNat < 16)
    (hn : h.ifNum.toNat < 16) :
    ∃ h', receiveBranch ⟨frame h, hs.length_frame⟩ = some h' ∧ h.SamePacket h' := by
  have hmax : h.payloadLen ≤ maxPayloadSize := hs.2
  have hle : h.payloadLen ≤
      (h.data ++ List.replicate (maxPayloadSize - h.payloadLen) 0).length := by
    rw [List.length_append, InterfaceBufferHandle.length_data]
    omega
  let h' : InterfaceBufferHandle :=
    { ifType := h.ifType, ifNum := h.ifNum
      payload := h.data ++ List.replicate (maxPayloadSize - h.payloadLen) 0
      payloadLen := h.payloadLen, payloadLen_le := hle }
  refine ⟨h', ?_, rfl, rfl, rfl, ?_⟩
  · have hframe : (⟨frame h, hs.length_frame⟩ : SpiBuffer).1 = frame h := rfl
    rw [receiveBranch_eq_some_iff hframe]
    refine ⟨?_, ?_, rfl, hs.toNat_txChecksum _ _, ?_, ?_, rfl, hs.toNat_len.symm⟩
    · exact hs.toNat_len.symm ▸ hs.1
    · exact hs.toNat_len.symm ▸ hs.2
    · exact (ofNat_toNat_bitField ht).symm
    · exact (ofNat_toNat_bitField hn).symm
  · exact List.take_left' h.length_data

/-- The bytes of the header that the receiver does not read back: flags, checksum,
the reserved bytes and the sequence number. -/
def freeHeaderBytes : List ℕ := [1, 6, 7, 8, 9, 10, 11]

/-- Rebuilding the frame of an accepted buffer gives the buffer back on header and
payload, the free header bytes apart. -/
theorem frame_of_receiveBranch {rx : SpiBuffer} {h' : InterfaceBufferHandle}
    (hacc : receiveBranch rx = some h') :
    Sendable h' ∧ ∀ i < sizeofEspPayloadHeader + h'.payloadLen, i ∉ freeHeaderBytes →
      (frame h')[i]? = rx.1[i]? := by
  obtain ⟨body, hbody, hlen⟩ := exists_header_body rx
  obtain ⟨hpos, hmax, hoff, -, ht, hn, hp, hl⟩ :=
    (receiveBranch_eq_some_iff hbody h').1 hacc
  have hs : Sendable h' := ⟨hl ▸ hpos, hl ▸ hmax⟩
  refine ⟨hs, ?_⟩
  intro i hi hfree
  have hdata : h'.data = body.take h'.payloadLen := by rw [InterfaceBufferHandle.data, hp]
  have htype : BitVec.ofNat 4 h'.ifType.toNat = (EspPayloadHeader.ofBytes rx.1).ifType := by
    apply BitVec.eq_of_toNat_eq
    have hb := (EspPayloadHeader.ofBytes rx.1).ifType.isLt
    rw [ht, BitVec.toNat_ofNat, UInt8.toNat_ofNat']
    omega
  have hnum : BitVec.ofNat 4 h'.ifNum.toNat = (EspPayloadHeader.ofBytes rx.1).ifNum := by
    apply BitVec.eq_of_toNat_eq
    have hb := (EspPayloadHeader.ofBytes rx.1).ifNum.isLt
    rw [hn, BitVec.toNat_ofNat, UInt8.toNat_ofNat']
    omega
  have hlen16 : UInt16.ofNat h'.payloadLen = (EspPayloadHeader.ofBytes rx.1).len := by
    rw [hl, UInt16.ofNat_toNat]
  rcases Nat.lt_or_ge i sizeofEspPayloadHeader with hhead | hpay
  · rw [frame, List.getElem?_append_left hhead]
    conv_rhs => rw [hbody, List.getElem?_append_left hhead]
    simp only [EspPayloadHeader.toBytes, txHeader, htype, hnum, hlen16, hoff]
    simp only [sizeofEspPayloadHeader] at hhead
    simp only [freeHeaderBytes, List.mem_cons, List.not_mem_nil, or_false, not_or] at hfree
    interval_cases i <;> first | omega | rfl
  · have hin : i - sizeofEspPayloadHeader < h'.data.length := by
      rw [InterfaceBufferHandle.length_data]
      omega
    rw [frame, List.getElem?_append_right hpay, EspPayloadHeader.length_toBytes,
      List.getElem?_append_left hin, hdata, List.getElem?_take_of_lt (by omega)]
    conv_rhs => rw [hbody, List.getElem?_append_right hpay, EspPayloadHeader.length_toBytes]

end RoundTrip

/-- What `send_to_slave` accepts comes back from either transaction function as it
was sent, and what either of them accepts is rebuilt by `get_tx_buffer` on header
and payload. -/
theorem spi_frame_round_trip :
    (∀ (ifaceType ifaceNum : UInt8) (wlen : UInt16) (b : WBuffer wlen),
      ifaceType.toNat < 16 → ifaceNum.toNat < 16 →
      1 ≤ wlen.toNat → wlen.toNat ≤ maxPayloadSize →
      ∃ h, (sendToSlave ifaceType ifaceNum wlen (some b) true).queued = some h ∧
        h.ifType = ifaceType ∧ h.ifNum = ifaceNum ∧ h.payloadLen = wlen.toNat ∧
        h.data = b.1.take wlen.toNat ∧
        ∃ fr : SpiBuffer, (getTxBuffer (some h)).sendbuf = some fr.1 ∧
          ∀ txbuff,
            (∃ h₁, (spiTransactionEsp32 txbuff .HAL_OK fr true).queued = some h₁ ∧
              h.SamePacket h₁) ∧
            (∃ h₂, (spiTransactionEsp32s2 txbuff .HAL_OK fr true).queued = some h₂ ∧
              h.SamePacket h₂)) ∧
    (∀ (rx : SpiBuffer) (txbuff : Option (List UInt8)) (h' : InterfaceBufferHandle),
      (spiTransactionEsp32 txbuff .HAL_OK rx true).queued = some h' ∨
        (spiTransactionEsp32s2 txbuff .HAL_OK rx true).queued = some h' →
      ∃ fr, (getTxBuffer (some h')).sendbuf = some fr ∧
        ∀ i < sizeofEspPayloadHeader + h'.payloadLen, i ∉ freeHeaderBytes →
          fr[i]? = rx.1[i]?) := by
  constructor
  · intro ifaceType ifaceNum wlen b ht hn hpos hmax
    have hs : Sendable (txHandle ifaceType ifaceNum b) := ⟨hpos, hmax⟩
    refine ⟨_, sendToSlave_of_le ifaceType ifaceNum b hpos hmax, rfl, rfl, rfl, rfl,
      ⟨frame _, hs.length_frame⟩, by rw [hs.getTxBuffer_eq], ?_⟩
    intro txbuff
    obtain ⟨h', hrecv, hsame⟩ := hs.receiveBranch_frame ht hn
    constructor
    · refine ⟨h', ?_, hsame⟩
      rw [spiTransactionEsp32, spiTransaction_queued, if_pos ⟨rfl, rfl⟩, hrecv]
    · refine ⟨h', ?_, hsame⟩
      rw [spiTransactionEsp32s2, spiTransaction_queued, if_pos ⟨rfl, rfl⟩, hrecv]
  · intro rx txbuff h' hor
    have hrecv : receiveBranch rx = some h' := by
      rcases hor with hesp32 | hesp32s2
      · rw [spiTransactionEsp32, spiTransaction_queued, if_pos ⟨rfl, rfl⟩] at hesp32
        exact hesp32
      · rw [spiTransactionEsp32s2, spiTransaction_queued, if_pos ⟨rfl, rfl⟩] at hesp32s2
        exact hesp32s2
    obtain ⟨hs, hbytes⟩ := frame_of_receiveBranch hrecv
    exact ⟨frame h', by rw [hs.getTxBuffer_eq], hbytes⟩

/-- 300 bytes to the soft-AP interface and back, and the frame rebuilt from them. -/
theorem spi_frame_round_trip_300_bytes :
    ∃ (rx : SpiBuffer) (h' : InterfaceBufferHandle),
      (spiTransactionEsp32s2 none .HAL_OK rx true).queued = some h' ∧ h'.ifType = espApIf ∧
        h'.data = List.replicate 300 7 ∧
        ∃ fr, (getTxBuffer (some h')).sendbuf = some fr ∧ fr[311]? = rx.1[311]? := by
  have hlen : (300 : UInt16).toNat ≤ (List.replicate 300 (7 : UInt8)).length :=
    List.length_replicate.ge
  obtain ⟨h, -, htype, -, hpayloadLen, hdata, rx, -, hback⟩ :=
    spi_frame_round_trip.1 espApIf 0 300 ⟨List.replicate 300 7, hlen⟩ (by decide) (by decide)
      (by decide) (by decide)
  obtain ⟨h', hrecv, htype', -, hlen', hdata'⟩ := (hback none).2
  obtain ⟨fr, hfr, hbytes⟩ := spi_frame_round_trip.2 rx none h' (Or.inr hrecv)
  have h300 : h'.payloadLen = 300 := hlen'.trans hpayloadLen
  have htake : (List.replicate 300 (7 : UInt8)).take (300 : UInt16).toNat =
      List.replicate 300 7 := List.take_of_length_le List.length_replicate.le
  refine ⟨rx, h', hrecv, htype'.trans htype, (hdata'.trans hdata).trans htake, fr, hfr,
    hbytes 311 ?_ (by decide)⟩
  rw [h300]
  decide

end Spi

end EspHosted
