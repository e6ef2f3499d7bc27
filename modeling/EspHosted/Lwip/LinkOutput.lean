import EspHosted.Driver.Netdev
import EspHosted.Driver.SpiFrame

/-!
# The transmit path of lwIP

`myifLinkOutput` gathers a `pbuf` chain into one block and passes it to
`network_write`. The first half of this file says what `network_write` owes its caller
and when it pays: the result, and one owner for each block of the packet. The second
half follows a chain down to its SPI frame.

The length of the gathered packet is an `int`, and the field it is stored in a
`uint16_t`.
-/

namespace EspHosted

namespace Net

open EspHosted.Bytes EspHosted.Ledger
open Spi (WBuffer sendToSlave txHandle getTxBuffer frame Sendable)

/-- One `struct pbuf` of a chain. -/
structure Pbuf where
  len : UInt16
  payload : WBuffer len

namespace Pbuf

/-- The bytes of a segment. -/
def data (q : Pbuf) : List UInt8 := q.payload.1.take q.len.toNat

@[simp] theorem length_data (q : Pbuf) : q.data.length = q.len.toNat := by
  rw [data, List.length_take]
  exact Nat.min_eq_left q.payload.2

end Pbuf

/-- The bytes of a chain, in order. -/
def chainData (p : List Pbuf) : List UInt8 := p.flatMap Pbuf.data

@[simp] theorem chainData_cons (q : Pbuf) (p : List Pbuf) :
    chainData (q :: p) = q.data ++ chainData p := rfl

/-- The first loop of `myif_link_output`. The sum is an `int` in the source, which it fits
for less than `2 ^ 31` bytes. -/
def packetSize (p : List Pbuf) : ℕ :=
  p.foldl (fun packetSize q => packetSize + q.len.toNat) 0

/-- The second loop: the segments are copied behind each other into the fresh block. -/
def gather (fresh : List UInt8) (p : List Pbuf) : List UInt8 × ℕ :=
  p.foldl
    (fun (buf : List UInt8 × ℕ) q => (patch buf.1 buf.2 q.data, buf.2 + q.len.toNat))
    (fresh, 0)

section Gather

theorem foldl_len (p : List Pbuf) (n : ℕ) :
    p.foldl (fun packetSize q => packetSize + q.len.toNat) n = n + (chainData p).length := by
  induction p generalizing n with
  | nil => rfl
  | cons q p ih =>
      rw [List.foldl_cons, ih, chainData_cons, List.length_append, Pbuf.length_data,
        Nat.add_assoc]

theorem packetSize_eq (p : List Pbuf) : packetSize p = (chainData p).length := by
  rw [packetSize, foldl_len, Nat.zero_add]

/-- Behind what is already copied, the loop writes the rest of the chain. -/
theorem foldl_patch (p : List Pbuf) (copied rest : List UInt8)
    (h : rest.length = (chainData p).length) :
    p.foldl
        (fun (buf : List UInt8 × ℕ) q => (patch buf.1 buf.2 q.data, buf.2 + q.len.toNat))
        (copied ++ rest, copied.length) =
      (copied ++ chainData p, copied.length + rest.length) := by
  induction p generalizing copied rest with
  | nil =>
      have hrest : rest = [] := List.length_eq_zero_iff.1 h
      rw [hrest]
      rfl
  | cons q p ih =>
      rw [chainData_cons, List.length_append] at h
      have htake : (rest.take q.data.length).length = q.data.length := by
        rw [List.length_take, h]
        exact Nat.min_eq_left (Nat.le_add_right _ _)
      have hdrop : (rest.drop q.data.length).length = (chainData p).length := by
        rw [List.length_drop, h]
        exact Nat.add_sub_cancel_left _ _
      have hpatch : patch (copied ++ rest) copied.length q.data =
          copied ++ q.data ++ rest.drop q.data.length := by
        have hcopy := patch_append copied _ (rest.drop q.data.length) q.data htake
        rwa [List.append_assoc, List.take_append_drop] at hcopy
      have hoffset : copied.length + q.len.toNat = (copied ++ q.data).length := by
        rw [List.length_append, Pbuf.length_data]
      rw [List.foldl_cons, hpatch, hoffset, ih _ _ hdrop, chainData_cons, List.append_assoc,
        hdrop, h, List.length_append, Nat.add_assoc]

/-- Whatever the block held before, it holds the chain. -/
theorem gather_eq {fresh : List UInt8} {p : List Pbuf} (h : fresh.length = packetSize p) :
    (gather fresh p).1 = chainData p := by
  rw [packetSize_eq] at h
  have hfold := foldl_patch p [] fresh h
  rw [List.nil_append, List.nil_append, List.length_nil] at hfold
  rw [gather, hfold]

theorem length_gather {fresh : List UInt8} {p : List Pbuf} (h : fresh.length = packetSize p) :
    (gather fresh p).1.length = packetSize p := by
  rw [gather_eq h, packetSize_eq]

end Gather

/-- A block as `malloc(packet_size)` returns it. -/
abbrev FreshBlock (p : List Pbuf) := { b : List UInt8 // b.length = packetSize p }

/-- The packet that `myif_link_output` hands to `network_write`. -/
def sndBuffer (p : List Pbuf) (fresh : FreshBlock p) : EspPbuf where
  len := UInt16.ofNat (packetSize p)
  payload := some
    ⟨(gather fresh.1 p).1, by
      rw [length_gather fresh.2, UInt16.toNat_ofNat']
      exact Nat.mod_le _ _⟩

/-- `err_t`: the one value that `myif_link_output` returns. -/
inductive ErrT where
  | ERR_OK
  deriving DecidableEq

/-- `myif_link_output` -/
def myifLinkOutput (staHandle : Option (Option Netdev)) (p : List Pbuf) (fresh : FreshBlock p)
    (queueSend : Bool) : ErrT × WriteResult :=
  (.ERR_OK, networkWrite staHandle (some (sndBuffer p fresh)) queueSend)

section Write

/-- The block is released, or it is on `to_slave_queue`. -/
def Owned (log : List (HeapEvent TxBlock)) (b : TxBlock) : Prop :=
  log.count (.free b) + log.count (.handOver b) = 1

/-- The result of a transmission tells what became of the packet, and no block of it is
left without an owner. -/
structure Truthful (buffer : Option EspPbuf) (r : WriteResult) : Prop where
  queued : r.ret = .STM_OK → ∃ h buf payload, r.queued = some h ∧ buffer = some buf ∧
    buf.payload = some payload ∧ h.payloadLen = buf.len.toNat ∧
      h.data = payload.1.take buf.len.toNat
  refused : r.ret = .STM_FAIL → r.queued = none
  netBuf : buffer.isSome → Owned r.log .netBuf
  payload : ∀ buf, buffer = some buf → buf.payload.isSome → Owned r.log .payload

/-- The handle leads to a device that is up and can transmit. -/
def Transmits (netHandle : Option (Option Netdev)) (priv : EspPrivate) : Prop :=
  ∃ ndev, netHandle = some (some ndev) ∧ ndev.state = .UP ∧
    ndev.netOps = some { netdevXmit := true } ∧ ndev.priv = some priv

theorem networkWrite_of_transmits {netHandle : Option (Option Netdev)} {priv : EspPrivate}
    (h : Transmits netHandle priv) (buffer : EspPbuf) (queueSend : Bool) :
    ∃ ndev, ndev.priv = some priv ∧
      networkWrite netHandle (some buffer) queueSend = espNetdevXmit ndev buffer queueSend := by
  obtain ⟨ndev, rfl, hup, hops, hpriv⟩ := h
  refine ⟨ndev, hpriv, ?_⟩
  simp only [networkWrite, hup, hops]

/-- A transmission that gets to the driver is truthful, whatever the packet is. -/
theorem truthful_espNetdevXmit {ndev : Netdev} {priv : EspPrivate}
    (hpriv : ndev.priv = some priv) (buffer : EspPbuf) (queueSend : Bool) :
    Truthful (some buffer) (espNetdevXmit ndev buffer queueSend) := by
  obtain ⟨len, payload⟩ := buffer
  simp only [espNetdevXmit, hpriv, sendToSlave]
  cases payload with
  | none =>
      constructor
      · intro h
        cases h
      · exact fun _ => rfl
      · exact fun _ => rfl
      · intro buf hbuf hpayload
        cases hbuf
        cases hpayload
  | some payload =>
      dsimp only
      split
      · constructor
        · intro h
          cases h
        · exact fun _ => rfl
        · exact fun _ => rfl
        · exact fun _ _ _ => rfl
      · cases queueSend with
        | true =>
            constructor
            · exact fun _ => ⟨_, _, payload, rfl, rfl, rfl, rfl, rfl⟩
            · intro h
              cases h
            · exact fun _ => rfl
            · exact fun _ _ _ => rfl
        | false =>
            constructor
            · intro h
              cases h
            · exact fun _ => rfl
            · exact fun _ => rfl
            · exact fun _ _ _ => rfl

/-- Without such a device nothing happens to the packet. -/
theorem networkWrite_of_not_transmits {netHandle : Option (Option Netdev)}
    (h : ∀ priv, ¬ Transmits netHandle priv) (buffer : EspPbuf) (queueSend : Bool) :
    (networkWrite netHandle (some buffer) queueSend).queued = none ∧
      (networkWrite netHandle (some buffer) queueSend).log = [] := by
  match netHandle with
  | none => exact ⟨rfl, rfl⟩
  | some none => exact ⟨rfl, rfl⟩
  | some (some ndev) =>
      simp only [networkWrite]
      split
      · rename_i hup hops
        cases hpriv : ndev.priv with
        | none =>
            simp only [espNetdevXmit, hpriv]
            exact ⟨trivial, trivial⟩
        | some priv => exact absurd ⟨ndev, rfl, hup, hops, hpriv⟩ (h priv)
      · exact ⟨rfl, rfl⟩

theorem truthful_networkWrite_iff (netHandle : Option (Option Netdev))
    (buffer : Option EspPbuf) (queueSend : Bool) :
    Truthful buffer (networkWrite netHandle buffer queueSend) ↔
      buffer = none ∨ ∃ priv, Transmits netHandle priv := by
  cases buffer with
  | none =>
      refine iff_of_true ?_ (Or.inl rfl)
      have hfail : networkWrite netHandle none queueSend =
          { ret := .STM_FAIL, queued := none, log := [] } := by
        match netHandle with
        | none => rfl
        | some none => rfl
        | some (some ndev) => rfl
      rw [hfail]
      constructor
      · intro h
        cases h
      · exact fun _ => rfl
      · intro h
        cases h
      · intro buf h
        cases h
  | some buffer =>
      constructor
      · intro h
        by_contra hnot
        have hpriv : ∀ priv, ¬ Transmits netHandle priv :=
          fun priv ht => hnot (Or.inr ⟨priv, ht⟩)
        have howned := h.netBuf rfl
        rw [Owned, (networkWrite_of_not_transmits hpriv buffer queueSend).2] at howned
        cases howned
      · rintro (hnone | ⟨priv, ht⟩)
        · cases hnone
        · obtain ⟨ndev, hpriv, heq⟩ := networkWrite_of_transmits ht buffer queueSend
          rw [heq]
          exact truthful_espNetdevXmit hpriv buffer queueSend

end Write

section Link

variable {staHandle : Option (Option Netdev)} {p : List Pbuf} {fresh : FreshBlock p}
  {queueSend : Bool}

/-- `ERR_OK` means that the packet was queued. -/
def LinkTruthful (p : List Pbuf) (r : ErrT × WriteResult) : Prop :=
  r.1 = .ERR_OK → ∃ h, r.2.queued = some h ∧ h.data = chainData p

/-- A length that a frame can carry. -/
def Fits (n : ℕ) : Prop := 1 ≤ n ∧ n ≤ maxPayloadSize

instance (n : ℕ) : Decidable (Fits n) := by
  unfold Fits
  infer_instance

theorem toNat_ofNat_of_fits {n : ℕ} (h : Fits n) : (UInt16.ofNat n).toNat = n := by
  have hmax : n ≤ 1588 := h.2
  rw [UInt16.toNat_ofNat']
  exact Nat.mod_eq_of_lt (Nat.lt_of_le_of_lt hmax (by decide))

theorem queued_sendToSlave (ifaceType ifaceNum : UInt8) {wlen : UInt16} (b : WBuffer wlen)
    (queueSend : Bool) :
    (sendToSlave ifaceType ifaceNum wlen (some b) queueSend).queued =
      if Fits wlen.toNat ∧ queueSend = true then some (txHandle ifaceType ifaceNum b)
      else none := by
  split
  · rename_i h
    obtain ⟨⟨hpos, hmax⟩, rfl⟩ := h
    exact Spi.sendToSlave_of_le ifaceType ifaceNum b hpos hmax
  · rename_i h
    rw [Option.eq_none_iff_forall_ne_some]
    intro hdl hq
    obtain ⟨b', hb, hpos, hmax, -⟩ := Spi.sendToSlave_queued hq
    cases queueSend with
    | true => exact h ⟨⟨hpos, hmax⟩, rfl⟩
    | false =>
        simp only [sendToSlave, Bool.false_eq_true, if_false] at hq
        split at hq
        · cases hq
        · cases hq

/-- The handle that carries the gathered chain. -/
def linkHandle (priv : EspPrivate) (p : List Pbuf) (fresh : FreshBlock p) :
    InterfaceBufferHandle where
  ifType := priv.ifType
  ifNum := priv.ifNum
  payload := (gather fresh.1 p).1
  payloadLen := packetSize p % 65536
  payloadLen_le := by
    rw [length_gather fresh.2]
    exact Nat.mod_le _ _

theorem data_linkHandle (priv : EspPrivate) (p : List Pbuf) (fresh : FreshBlock p) :
    (linkHandle priv p fresh).data = (chainData p).take (packetSize p % 65536) := by
  rw [InterfaceBufferHandle.data]
  change (gather fresh.1 p).1.take (packetSize p % 65536) = _
  rw [gather_eq fresh.2]

/-- The chain is queued when the length that is left of it in the field fits. -/
theorem queued_myifLinkOutput {priv : EspPrivate} (ht : Transmits staHandle priv) :
    (myifLinkOutput staHandle p fresh queueSend).2.queued =
      if Fits (packetSize p % 65536) ∧ queueSend = true then some (linkHandle priv p fresh)
      else none := by
  obtain ⟨ndev, hpriv, heq⟩ := networkWrite_of_transmits ht (sndBuffer p fresh) queueSend
  have hmod : (UInt16.ofNat (packetSize p)).toNat = packetSize p % 65536 := UInt16.toNat_ofNat'
  simp only [myifLinkOutput]
  rw [heq, espNetdevXmit, hpriv]
  simp only [sndBuffer]
  have hfits : Fits (UInt16.ofNat (packetSize p)).toNat ∧ queueSend = true ↔
      Fits (packetSize p % 65536) ∧ queueSend = true := by
    rw [hmod]
  rw [queued_sendToSlave]
  by_cases hcond : Fits (packetSize p % 65536) ∧ queueSend = true
  · rw [if_pos (hfits.2 hcond), if_pos hcond]
    exact congrArg some (InterfaceBufferHandle.ext rfl rfl rfl hmod)
  · rw [if_neg (fun h => hcond (hfits.1 h)), if_neg hcond]

/-- The whole chain is queued exactly when the device transmits, the chain fits into a
frame, and the queue takes it. -/
theorem linkTruthful_iff :
    LinkTruthful p (myifLinkOutput staHandle p fresh queueSend) ↔
      (∃ priv, Transmits staHandle priv) ∧ Fits (packetSize p) ∧ queueSend = true := by
  constructor
  · intro h
    obtain ⟨hdl, hq, hdata⟩ := h rfl
    by_cases ht : ∃ priv, Transmits staHandle priv
    · obtain ⟨priv, ht⟩ := ht
      rw [queued_myifLinkOutput ht] at hq
      split at hq
      · rename_i hfits
        cases hq
        have hlen := congrArg List.length hdata
        rw [InterfaceBufferHandle.length_data, ← packetSize_eq] at hlen
        have hmod : packetSize p % 65536 = packetSize p := hlen
        rw [hmod] at hfits
        exact ⟨⟨priv, ht⟩, hfits⟩
      · cases hq
    · have hnone := (networkWrite_of_not_transmits (fun priv hp => ht ⟨priv, hp⟩)
        (sndBuffer p fresh) queueSend).1
      rw [myifLinkOutput, hnone] at hq
      cases hq
  · rintro ⟨⟨priv, ht⟩, hfits, hsend⟩ -
    have hmod : packetSize p % 65536 = packetSize p := by
      rw [← UInt16.toNat_ofNat']
      exact toNat_ofNat_of_fits hfits
    refine ⟨linkHandle priv p fresh, ?_, ?_⟩
    · rw [queued_myifLinkOutput ht, hmod, if_pos ⟨hfits, hsend⟩]
    · rw [data_linkHandle, hmod, packetSize_eq]
      exact List.take_length

/-- The result of a transmission is the truth, and no block is left behind, exactly when
the device transmits or there was no packet; and `ERR_OK` is the truth exactly when,
besides, the chain fits and is queued. -/
theorem transmit_truthful_iff (netHandle : Option (Option Netdev)) (buffer : Option EspPbuf)
    (p : List Pbuf) (fresh : FreshBlock p) (queueSend : Bool) :
    (Truthful buffer (networkWrite netHandle buffer queueSend) ↔
        buffer = none ∨ ∃ priv, Transmits netHandle priv) ∧
      (LinkTruthful p (myifLinkOutput netHandle p fresh queueSend) ↔
        (∃ priv, Transmits netHandle priv) ∧ Fits (packetSize p) ∧ queueSend = true) := by
  constructor
  · exact truthful_networkWrite_iff netHandle buffer queueSend
  · exact linkTruthful_iff

/-- A station that is not opened. -/
def downStation : Netdev where
  name := []
  netOps := some { netdevXmit := true }
  state := .DOWN
  netHandle := none
  rxQ := none
  priv := some { ifType := espStaIf, ifNum := 0 }

/-- A packet of one byte. -/
def onePbuf : Pbuf := { len := 1, payload := WBuffer.single 7 }

/-- The packet is neither queued nor released, and both results say that it was sent. -/
theorem down_station_reports_success :
    ¬ Truthful (some ⟨1, some (WBuffer.single 7)⟩)
        (networkWrite (some (some downStation)) (some ⟨1, some (WBuffer.single 7)⟩) true) ∧
      ¬ LinkTruthful [onePbuf]
        (myifLinkOutput (some (some downStation)) [onePbuf] ⟨[0], rfl⟩ true) := by
  constructor
  · intro h
    obtain ⟨hdl, buf, payload, hq, -⟩ := h.queued rfl
    cases hq
  · intro h
    obtain ⟨hdl, hq, -⟩ := h rfl
    cases hq

end Link

/-! ## From the chain to the frame -/

section Frame

/-- A frame of the station interface that carries the packet. -/
structure CarriesPacket (sendbuf data : List UInt8) : Prop where
  length : sendbuf.length = maxSpiBufferSize
  ifType : (EspPayloadHeader.ofBytes sendbuf).ifType.toNat = espStaIf.toNat
  ifNum : (EspPayloadHeader.ofBytes sendbuf).ifNum.toNat = 0
  len : (EspPayloadHeader.ofBytes sendbuf).len.toNat = data.length
  offset : (EspPayloadHeader.ofBytes sendbuf).offset.toNat = sizeofEspPayloadHeader
  body : sendbuf.drop sizeofEspPayloadHeader =
    data ++ List.replicate (maxPayloadSize - data.length) 0
  checksum : computeChecksum (patch sendbuf 6 [0, 0])
      ((EspPayloadHeader.ofBytes sendbuf).len + (EspPayloadHeader.ofBytes sendbuf).offset) =
    (EspPayloadHeader.ofBytes sendbuf).checksum

/-- The frame that the chain becomes when `get_tx_buffer` takes it from the queue. -/
def linkFrame (staHandle : Option (Option Netdev)) (p : List Pbuf) (fresh : FreshBlock p) :
    Option (List UInt8) :=
  match (myifLinkOutput staHandle p fresh true).2.queued with
  | none => none
  | some h => (getTxBuffer (some h)).sendbuf

theorem carriesPacket_frame {h : InterfaceBufferHandle} (hs : Sendable h)
    (htype : h.ifType = espStaIf) (hnum : h.ifNum = 0) : CarriesPacket (frame h) h.data := by
  have hof : EspPayloadHeader.ofBytes (frame h) =
      Spi.txHeader h (UInt16.ofNat h.payloadLen) (Spi.txChecksum h) :=
    EspPayloadHeader.ofBytes_toBytes_append _ _
  constructor
  · exact hs.length_frame
  · rw [hof, Spi.txHeader, htype]
    rfl
  · rw [hof, Spi.txHeader, hnum]
    rfl
  · rw [hof, InterfaceBufferHandle.length_data]
    exact hs.toNat_len
  · rw [hof]
    rfl
  · rw [InterfaceBufferHandle.length_data]
    exact List.drop_left' (EspPayloadHeader.length_toBytes _)
  · rw [hof, frame, Spi.patch_checksum, ← UInt16.toNat_inj, toNat_computeChecksum,
      Spi.take_covered _ _ (hs.toNat_len.trans_le hs.2) rfl, byteSum_append]
    exact (hs.toNat_txChecksum _ _).symm

variable {staHandle : Option (Option Netdev)}

/-- The frame is that of the gathered chain, if the length left in the field fits. -/
theorem linkFrame_eq {priv : EspPrivate} (ht : Transmits staHandle priv) (p : List Pbuf)
    (fresh : FreshBlock p) :
    linkFrame staHandle p fresh =
      if Fits (packetSize p % 65536) then some (frame (linkHandle priv p fresh)) else none := by
  rw [linkFrame, queued_myifLinkOutput ht]
  by_cases hfits : Fits (packetSize p % 65536)
  · have hs : Sendable (linkHandle priv p fresh) := hfits
    rw [if_pos ⟨hfits, rfl⟩, if_pos hfits]
    simp only [hs.getTxBuffer_eq]
  · rw [if_neg (fun h => hfits h.1), if_neg hfits]

/-- On the open station interface with room in the queue, a chain that fits becomes one
frame that carries it. A longer chain becomes none, unless its length has lost its upper
bits on the way into the field. The last part speaks of chains of less than `2 ^ 31` bytes,
for which `packetSize` is the `int` of the source. -/
theorem link_output_frame
    (ht : Transmits staHandle { ifType := espStaIf, ifNum := 0 }) (p : List Pbuf)
    (fresh : FreshBlock p) :
    (Fits (chainData p).length →
        ∃ sendbuf, linkFrame staHandle p fresh = some sendbuf ∧
          CarriesPacket sendbuf (chainData p)) ∧
      (maxPayloadSize < (chainData p).length → (chainData p).length < 65536 →
        linkFrame staHandle p fresh = none) ∧
      (65536 ≤ (chainData p).length →
        (linkFrame staHandle p fresh ≠ none ↔ Fits ((chainData p).length % 65536))) := by
  have hframe := linkFrame_eq ht p fresh
  rw [packetSize_eq] at hframe
  refine ⟨?_, ?_, ?_⟩
  · intro hfits
    have hmod : (chainData p).length % 65536 = (chainData p).length := by
      rw [← UInt16.toNat_ofNat']
      exact toNat_ofNat_of_fits hfits
    rw [hmod, if_pos hfits] at hframe
    refine ⟨_, hframe, ?_⟩
    have hs : Sendable (linkHandle { ifType := espStaIf, ifNum := 0 } p fresh) := by
      change Fits (packetSize p % 65536)
      rw [packetSize_eq, hmod]
      exact hfits
    have hcarries := carriesPacket_frame hs rfl rfl
    rw [data_linkHandle, packetSize_eq, hmod, List.take_length] at hcarries
    exact hcarries
  · intro hlong hshort
    rw [Nat.mod_eq_of_lt hshort, if_neg (fun h => Nat.not_le_of_lt hlong h.2)] at hframe
    exact hframe
  · intro _
    rw [hframe]
    by_cases hfits : Fits ((chainData p).length % 65536)
    · rw [if_pos hfits]
      exact iff_of_true (Option.some_ne_none _) hfits
    · rw [if_neg hfits]
      exact iff_of_false (fun h => h rfl) hfits

/-- The station interface after `network_open`. -/
def upStation : Netdev where
  name := []
  netOps := some { netdevXmit := true }
  state := .UP
  netHandle := some 0
  rxQ := some []
  priv := some { ifType := espStaIf, ifNum := 0 }

theorem transmits_upStation :
    Transmits (some (some upStation)) { ifType := espStaIf, ifNum := 0 } :=
  ⟨upStation, rfl, rfl, rfl, rfl⟩

/-- A chain of 65537 bytes. -/
def longChain : List Pbuf :=
  [ { len := 65535, payload := ⟨List.replicate 65535 0, by rw [List.length_replicate]; decide⟩ },
    { len := 2, payload := ⟨List.replicate 2 0, by rw [List.length_replicate]; decide⟩ } ]

/-- The chain is too long, and one byte of it is sent. -/
theorem long_chain_sent :
    ¬ ∀ fresh : FreshBlock longChain, maxPayloadSize < (chainData longChain).length →
      linkFrame (some (some upStation)) longChain fresh = none := by
  intro h
  have hsize : packetSize longChain = 65537 := by decide
  have hlong : maxPayloadSize < (chainData longChain).length := by
    rw [← packetSize_eq, hsize]
    decide
  have hfits : Fits (packetSize longChain % 65536) := by
    rw [hsize]
    decide
  have hnone := h ⟨List.replicate (packetSize longChain) 0, List.length_replicate⟩ hlong
  rw [linkFrame_eq transmits_upStation, if_pos hfits] at hnone
  cases hnone

/-- A packet in two segments. -/
def twoSegments : List Pbuf :=
  [ { len := 3, payload := ⟨[8, 0, 69], by decide⟩ },
    { len := 2, payload := ⟨[7, 9, 11], by decide⟩ } ]

theorem link_output_frame_two_segments :
    ∃ sendbuf,
      linkFrame (some (some upStation)) twoSegments ⟨List.replicate 5 0, rfl⟩ = some sendbuf ∧
        CarriesPacket sendbuf [8, 0, 69, 7, 9] :=
  (link_output_frame transmits_upStation twoSegments ⟨List.replicate 5 0, rfl⟩).1 (by decide)

end Frame

end Net

end EspHosted
