import EspHosted.Driver.ReceiveLedger
import EspHosted.Lib.Slice
import EspHosted.Lwip.LinkOutput

/-!
# The receive path of lwIP

`staRxCallback` takes a packet from `network_read`, scatters it over a fresh `pbuf`
chain and passes the chain to the input function of the interface. How the packet
is split into segments is the choice of `pbuf_alloc`, which may also fail; what
`gnetif.input` answers is a parameter as well.

The last theorem follows a chain over the link: from `myifLinkOutput` to the frame, and
from the frame to the chain that the other side passes on.
-/

namespace EspHosted

namespace Net

open EspHosted.Bytes EspHosted.Ledger
open Receive (rxPacket)
open Spi (RxHandle SpiBuffer WBuffer frame payloadLen_le_of_receiveBranch receiveBranch Sendable)

/-- `err_t` as `gnetif.input` returns it. -/
abbrev InputErr := Int8

/-- `ERR_OK` -/
def inputOk : InputErr := 0

/-- A chain that `pbuf_alloc(PBUF_RAW, length, PBUF_POOL)` returns. -/
structure PbufChain (length : UInt16) where
  pbufs : List Pbuf
  nonempty : pbufs ≠ []
  total : packetSize pbufs = length.toNat

/-- `pbuf_alloc`, with `none` for the pool that has run out. -/
abbrev PbufPool := (length : UInt16) → Option (PbufChain length)

/-- `memcpy(q->payload, &src[l], q->len)` -/
def Pbuf.copyFrom (q : Pbuf) (src : List UInt8) (l : ℕ) : Pbuf where
  len := q.len
  payload :=
    ⟨patch q.payload.1 0 (slice src l q.len.toNat), by
      have hroom := q.payload.2
      have hcopied : (slice src l q.len.toNat).length ≤ q.len.toNat := List.length_take_le _ _
      rw [length_patch (by omega)]
      exact hroom⟩

/-- The copy loop, from offset `l` on. -/
def scatter (src : List UInt8) : ℕ → List Pbuf → List Pbuf
  | _, [] => []
  | l, q :: p => q.copyFrom src l :: scatter src (l + q.len.toNat) p

/-- The copy loop reads behind the end of `src`. -/
def scatterOverread (src : List UInt8) : ℕ → List Pbuf → Bool
  | _, [] => false
  | l, q :: p =>
      decide (src.length < l + q.len.toNat) || scatterOverread src (l + q.len.toNat) p

/-- What `sta_rx_callback` does outside of itself: the calls of `gnetif.input` and of
`pbuf_free`, with `NULL` as `none`, and the blocks of the packet. -/
structure RxCallbackResult where
  inputs : List (Option (List Pbuf))
  pbufFrees : List (Option (List Pbuf))
  log : List (HeapEvent RxBlock)
  overread : Bool

/-- The bytes behind `rx_buffer->payload`. -/
def EspPbuf.bytes (rxBuffer : EspPbuf) : List UInt8 :=
  match rxBuffer.payload with
  | none => []
  | some payload => payload.1

/-- `sta_rx_callback`, from what `network_read` returned on. -/
def staRxCallback (pbufAlloc : PbufPool) (input : Option (List Pbuf) → InputErr)
    (rxBuffer : Option EspPbuf) : RxCallbackResult :=
  match rxBuffer with
  | none => { inputs := [], pbufFrees := [], log := [], overread := false }
  | some rxBuffer =>
      let alloc := pbufAlloc rxBuffer.len
      let p := alloc.map fun chain => scatter rxBuffer.bytes 0 chain.pbufs
      { inputs := [p]
        pbufFrees := if input p = inputOk then [] else [p]
        log := rxBuffer.payloadBlock.map .free ++ [.free .netBuf]
        overread := alloc.any fun chain => scatterOverread rxBuffer.bytes 0 chain.pbufs }

section Scatter

theorem Pbuf.data_copyFrom (q : Pbuf) {src : List UInt8} {l : ℕ}
    (h : l + q.len.toNat ≤ src.length) : (q.copyFrom src l).data = slice src l q.len.toNat := by
  have hdata : (q.copyFrom src l).data =
      (patch q.payload.1 0 (slice src l q.len.toNat)).take q.len.toNat := rfl
  rw [hdata, patch, List.take_zero, List.nil_append]
  exact List.take_left' (length_slice h)

theorem length_chainData_cons (q : Pbuf) (p : List Pbuf) :
    (chainData (q :: p)).length = q.len.toNat + (chainData p).length := by
  simp

/-- From any offset on, the chain receives as many bytes as it has room for. -/
theorem chainData_scatter {src : List UInt8} (p : List Pbuf) {l : ℕ}
    (h : l + (chainData p).length ≤ src.length) :
    chainData (scatter src l p) = slice src l (chainData p).length := by
  induction p generalizing l with
  | nil => simp [scatter, chainData, slice]
  | cons q p ih =>
      rw [length_chainData_cons] at h
      have hhead : l + q.len.toNat ≤ src.length := by omega
      have htail : l + q.len.toNat + (chainData p).length ≤ src.length := by omega
      rw [scatter, chainData_cons, q.data_copyFrom hhead, ih htail, length_chainData_cons,
        slice_add]

theorem scatterOverread_eq_false {src : List UInt8} (p : List Pbuf) {l : ℕ}
    (h : l + (chainData p).length ≤ src.length) : scatterOverread src l p = false := by
  induction p generalizing l with
  | nil => rfl
  | cons q p ih =>
      rw [length_chainData_cons] at h
      have hhead : ¬ src.length < l + q.len.toNat := by omega
      have htail : l + q.len.toNat + (chainData p).length ≤ src.length := by omega
      simp [scatterOverread, hhead, ih htail]

/-- However the packet is split, the chain holds it. -/
theorem PbufChain.chainData_scatter {len : UInt16} (chain : PbufChain len)
    (payload : WBuffer len) :
    chainData (scatter payload.1 0 chain.pbufs) = payload.1.take len.toNat := by
  have htotal : (chainData chain.pbufs).length = len.toNat := by
    rw [← packetSize_eq, chain.total]
  have hroom := payload.2
  rw [Net.chainData_scatter chain.pbufs (by omega), htotal, slice, List.drop_zero]

theorem PbufChain.scatterOverread_eq_false {len : UInt16} (chain : PbufChain len)
    (payload : WBuffer len) : scatterOverread payload.1 0 chain.pbufs = false := by
  have htotal : (chainData chain.pbufs).length = len.toNat := by
    rw [← packetSize_eq, chain.total]
  have hroom := payload.2
  exact Net.scatterOverread_eq_false chain.pbufs (by omega)

end Scatter

section Receive

variable {len : UInt16}

/-- The packet reaches lwIP intact or is dropped, and every block of it has one owner. -/
structure ReceivedCleanly (pbufAlloc : PbufPool) (input : Option (List Pbuf) → InputErr)
    (payload : WBuffer len) (r : RxCallbackResult) : Prop where
  once : r.inputs.length ≤ 1
  intact : ∀ p ∈ r.inputs, ∃ chain, p = some chain ∧
    chainData chain = payload.1.take len.toNat
  dropped : pbufAlloc len = none → r.inputs = []
  chainFreed : r.pbufFrees = r.inputs.filter fun p => input p ≠ inputOk
  netBuf : r.log.count (.free .netBuf) = 1
  payload : r.log.count (.free .payload) = 1
  inBounds : r.overread = false

/-- With a chain, the packet is passed on once and whole. -/
theorem staRxCallback_of_chain {pbufAlloc : PbufPool} {chain : PbufChain len}
    (h : pbufAlloc len = some chain) (input : Option (List Pbuf) → InputErr)
    (payload : WBuffer len) :
    let p := some (scatter payload.1 0 chain.pbufs)
    staRxCallback pbufAlloc input (some { len := len, payload := some payload }) =
      { inputs := [p]
        pbufFrees := if input p = inputOk then [] else [p]
        log := [.free .payload, .free .netBuf]
        overread := false } := by
  simp [staRxCallback, EspPbuf.bytes, EspPbuf.payloadBlock, h,
    chain.scatterOverread_eq_false payload]

/-- Without a chain, `gnetif.input` gets a null pointer. -/
theorem inputs_of_no_chain {pbufAlloc : PbufPool} (h : pbufAlloc len = none)
    (input : Option (List Pbuf) → InputErr) (payload : WBuffer len) :
    (staRxCallback pbufAlloc input (some { len := len, payload := some payload })).inputs =
      [none] := by
  simp [staRxCallback, h]

/-- A packet is received cleanly exactly when `pbuf_alloc` has a chain for it. -/
theorem received_cleanly_iff (pbufAlloc : PbufPool) (input : Option (List Pbuf) → InputErr)
    (payload : WBuffer len) :
    ReceivedCleanly pbufAlloc input payload
        (staRxCallback pbufAlloc input (some { len := len, payload := some payload })) ↔
      (pbufAlloc len).isSome := by
  cases halloc : pbufAlloc len with
  | none =>
      have hinputs := inputs_of_no_chain halloc input payload
      constructor
      · intro h
        have hnil := h.dropped halloc
        rw [hinputs] at hnil
        exact absurd hnil (List.cons_ne_nil _ _)
      · intro h
        exact absurd h Bool.false_ne_true
  | some chain =>
      rw [staRxCallback_of_chain halloc]
      constructor
      · intro _
        rfl
      · intro _
        constructor
        · exact Nat.le_refl 1
        · intro p hp
          rw [List.mem_singleton.1 hp]
          exact ⟨_, rfl, chain.chainData_scatter payload⟩
        · intro hnone
          rw [halloc] at hnone
          exact absurd hnone (Option.some_ne_none chain)
        · by_cases hok : input (some (scatter payload.1 0 chain.pbufs)) = inputOk
          · simp [hok]
          · simp [hok]
        · rfl
        · rfl
        · rfl

/-- With the pool exhausted, a packet of one byte is passed on as a null pointer. -/
theorem null_chain_passed_to_input :
    ¬ ReceivedCleanly (fun _ => none) (fun _ => inputOk) (WBuffer.single 0)
        (staRxCallback (fun _ => none) (fun _ => inputOk)
          (some { len := 1, payload := some (WBuffer.single 0) })) := by
  intro h
  exact List.cons_ne_nil _ _ (h.dropped rfl)

end Receive

section Link

/-- The packet of a frame is as long as its data. -/
theorem toNat_len_rxPacket (bufHandle : RxHandle) :
    (rxPacket bufHandle).len.toNat = bufHandle.1.data.length := by
  have hle := bufHandle.2
  have hmax : maxPayloadSize < 65536 := by decide
  rw [InterfaceBufferHandle.length_data]
  exact UInt16.toNat_ofNat_of_lt' (by omega : bufHandle.1.payloadLen < 65536)

/-- The chain that a frame is passed on as holds its data. -/
theorem staRxCallback_rxPacket {pbufAlloc : PbufPool} {bufHandle : RxHandle}
    {chain : PbufChain (rxPacket bufHandle).len}
    (h : pbufAlloc (rxPacket bufHandle).len = some chain) (input : Option (List Pbuf) → InputErr) :
    ∃ q, (staRxCallback pbufAlloc input (some (rxPacket bufHandle))).inputs = [some q] ∧
      chainData q = bufHandle.1.data := by
  have hlen := toNat_len_rxPacket bufHandle
  let payload : WBuffer (rxPacket bufHandle).len := ⟨bufHandle.1.data, Nat.le_of_eq hlen⟩
  have hdata : chainData (scatter bufHandle.1.data 0 chain.pbufs) = bufHandle.1.data :=
    (chain.chainData_scatter payload).trans (List.take_of_length_le (Nat.le_of_eq hlen.symm))
  exact ⟨_, congrArg RxCallbackResult.inputs (staRxCallback_of_chain h input payload), hdata⟩

variable {staHandle : Option (Option Netdev)} {priv : EspPrivate}

/-- A chain that is sent arrives as a chain of the same bytes, however it is split. -/
theorem chain_arrives (ht : Transmits staHandle priv) (htype : priv.ifType.toNat < 16)
    (hnum : priv.ifNum.toNat < 16) (p : List Pbuf) (fresh : FreshBlock p)
    (hfits : Fits (chainData p).length) :
    ∃ (rx : SpiBuffer) (bufHandle : RxHandle), linkFrame staHandle p fresh = some rx.1 ∧
      receiveBranch rx = some bufHandle.1 ∧
      ∀ (pbufAlloc : PbufPool) (chain : PbufChain (rxPacket bufHandle).len)
        (input : Option (List Pbuf) → InputErr),
        pbufAlloc (rxPacket bufHandle).len = some chain →
        ∃ q, (staRxCallback pbufAlloc input (some (rxPacket bufHandle))).inputs = [some q] ∧
          chainData q = chainData p := by
  have hmod : packetSize p % 65536 = (chainData p).length := by
    rw [packetSize_eq, ← UInt16.toNat_ofNat']
    exact toNat_ofNat_of_fits hfits
  have hs : Sendable (linkHandle priv p fresh) := by
    change Fits (packetSize p % 65536)
    rw [hmod]
    exact hfits
  obtain ⟨h', hrecv, hsame⟩ := hs.receiveBranch_frame htype hnum
  have hdata : h'.data = chainData p := by
    rw [hsame.2.2.2, data_linkHandle, hmod, List.take_length]
  refine ⟨_, ⟨h', payloadLen_le_of_receiveBranch hrecv⟩, ?_, hrecv, ?_⟩
  · rw [linkFrame_eq ht, hmod, if_pos hfits]
  · intro pbufAlloc chain input halloc
    obtain ⟨q, hinputs, hq⟩ := staRxCallback_rxPacket halloc input
    exact ⟨q, hinputs, hq.trans hdata⟩

end Link

end Net

end EspHosted
