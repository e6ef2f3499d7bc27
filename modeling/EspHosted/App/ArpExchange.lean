import EspHosted.App.Arp
import EspHosted.Driver.Netdev
import Mathlib.Data.List.Induction

/-!
# An ARP request and its reply

`sendArpReq` patches the static template `arp_req_tx` and sends a copy of it, so every call
finds what the calls before it have left. `Template` is what they leave alone; the other
fields are overwritten by each call, and so the frame that is sent is `requestFrame` of the
arguments. The responder of another node takes it from there.
-/

namespace EspHosted

namespace App

open EspHosted.Bytes
open Net (EspPbuf Netdev networkWrite)

/-- `arp_req_tx` -/
def arpReqTx : List UInt8 :=
  [0xa0, 0x88, 0xb4, 0xe5, 0xd5, 0x38, 0x3c, 0x71, 0xbf, 0x9a, 0xbc, 0xb8, 0x08, 0x06, 0x00,
    0x01, 0x08, 0x00, 0x06, 0x04, 0x00, 0x01, 0x3c, 0x71, 0xbf, 0x9a, 0xbc, 0xb8, 192, 168, 1,
    233, 0x00, 0x00, 0x00, 0x00, 0x00, 0x00, 192, 168, 1, 206]

/-- A block as `malloc(ARPING_MAX_PKT_SIZE)` returns it. -/
abbrev FreshFrame := { b : List UInt8 // b.length = arpingMaxPktSize }

/-- The arguments of a call, with `NULL` as `none`, and what it finds: the contents of the
block it allocates, and the outcome of `xQueueSend`. -/
structure ArpCall where
  netHandle : Option (Option Netdev)
  srcMac : Option Mac
  srcIp : Option UInt32
  dstMac : Option Mac
  dstIp : Option UInt32
  fresh : FreshFrame
  queueSend : Bool

/-- What a call returns, what it passes to `network_write`, and the template it leaves. -/
structure SendArpResult where
  ret : StmRet
  buffer : Option EspPbuf
  arpReqTx : List UInt8

/-- The packet that holds a copy of the template. -/
def arpBuffer (fresh : FreshFrame) (arpReqTx : List UInt8) : EspPbuf where
  len := 42
  payload := some
    ⟨patch fresh.1 0 (slice arpReqTx 0 arpingMaxPktSize), by
      have hcopied : (slice arpReqTx 0 arpingMaxPktSize).length ≤ arpingMaxPktSize :=
        List.length_take_le _ _
      have hfresh := fresh.2
      rw [length_patch (by omega)]
      exact Nat.le_of_eq hfresh.symm⟩

/-- `send_arp_req` -/
def sendArpReq (arpReqTx : List UInt8) (call : ArpCall) : SendArpResult :=
  match call.netHandle, call.srcMac, call.srcIp, call.dstMac, call.dstIp with
  | some netHandle, some srcMac, some srcIp, some dstMac, some dstIp =>
      let tx := arpingSetMac arpReqTx .SRC (.outside srcMac.1)
      let tx := arpingSetMac tx .SRC_REPEAT (.outside srcMac.1)
      let tx := arpingSetIpaddr tx .DST dstIp
      let tx := arpingSetIpaddr tx .SRC srcIp
      let tx := arpingSetMac tx .DST (.outside dstMac.1)
      let tx := arpingSetMac tx .DST_REPEAT (.outside dstMac.1)
      let buffer := arpBuffer call.fresh tx
      { ret := (networkWrite (some netHandle) (some buffer) call.queueSend).ret
        buffer := some buffer
        arpReqTx := tx }
  | _, _, _, _, _ => { ret := .STM_FAIL, buffer := none, arpReqTx := arpReqTx }

/-- The template after the calls of `earlier`. -/
def templateAfter (earlier : List ArpCall) : List UInt8 :=
  earlier.foldl (fun tx call => (sendArpReq tx call).arpReqTx) arpReqTx

/-- The bytes of a packet. -/
def frameOf (buffer : EspPbuf) : Option (List UInt8) :=
  buffer.payload.map fun payload => payload.1.take buffer.len.toNat

/-- The request for the MAC address of `dstIp`. -/
def requestFrame (srcMac : Mac) (srcIp : UInt32) (dstMac : Mac) (dstIp : UInt32) : Frame where
  dstMac := dstMac
  srcMac := srcMac
  protocol := protocolArp
  hardware := hardwareBytes
  opcode := 1
  srcRepeatMac := srcMac
  srcIp := srcIp
  dstRepeatMac := dstMac
  dstIp := dstIp

/-- The template is a request, from any node to any node. -/
def Template (tx : List UInt8) : Prop :=
  ∃ f : Frame, tx = f.encode ∧ f.protocol = protocolArp ∧ f.hardware = hardwareBytes ∧
    f.opcode = 1

section Send

theorem template_arpReqTx : Template arpReqTx := by
  exact
    ⟨{ dstMac := ⟨[0xa0, 0x88, 0xb4, 0xe5, 0xd5, 0x38], rfl⟩
       srcMac := ⟨[0x3c, 0x71, 0xbf, 0x9a, 0xbc, 0xb8], rfl⟩
       protocol := protocolArp
       hardware := hardwareBytes
       opcode := 1
       srcRepeatMac := ⟨[0x3c, 0x71, 0xbf, 0x9a, 0xbc, 0xb8], rfl⟩
       srcIp := 0xc0a801e9
       dstRepeatMac := ⟨[0x00, 0x00, 0x00, 0x00, 0x00, 0x00], rfl⟩
       dstIp := 0xc0a801ce }, by decide, rfl, rfl, rfl⟩

theorem arpingSetMac_frame (f : Frame) (type : MacType) (mac : Mac) :
    arpingSetMac f.encode type (.outside mac.1) = (f.setMac type mac).encode := by
  have hset := f.arpingSetMac_encode [] type mac
  rwa [List.append_nil, List.append_nil] at hset

theorem arpingSetIpaddr_frame (f : Frame) (type : IpType) (ip : UInt32) :
    arpingSetIpaddr f.encode type ip = (f.setIpaddr type ip).encode := by
  have hset := f.arpingSetIpaddr_encode [] type ip
  rwa [List.append_nil, List.append_nil] at hset

/-- A call with all of its arguments overwrites every address of the template. -/
theorem sendArpReq_of_template {tx : List UInt8} (h : Template tx) (netHandle : Option Netdev)
    (srcMac : Mac) (srcIp : UInt32) (dstMac : Mac) (dstIp : UInt32) (fresh : FreshFrame)
    (queueSend : Bool) :
    let buffer := arpBuffer fresh (requestFrame srcMac srcIp dstMac dstIp).encode
    sendArpReq tx ⟨some netHandle, some srcMac, some srcIp, some dstMac, some dstIp, fresh,
        queueSend⟩ =
      { ret := (networkWrite (some netHandle) (some buffer) queueSend).ret
        buffer := some buffer
        arpReqTx := (requestFrame srcMac srcIp dstMac dstIp).encode } := by
  obtain ⟨f, rfl, hprotocol, hhardware, hopcode⟩ := h
  have hframe : (((((f.setMac .SRC srcMac).setMac .SRC_REPEAT srcMac).setIpaddr .DST
      dstIp).setIpaddr .SRC srcIp).setMac .DST dstMac).setMac .DST_REPEAT dstMac =
      requestFrame srcMac srcIp dstMac dstIp := by
    simp [Frame.setMac, Frame.setIpaddr, requestFrame, hprotocol, hhardware, hopcode]
  simp only [sendArpReq, arpingSetMac_frame, arpingSetIpaddr_frame, hframe]

theorem template_requestFrame (srcMac : Mac) (srcIp : UInt32) (dstMac : Mac) (dstIp : UInt32) :
    Template (requestFrame srcMac srcIp dstMac dstIp).encode :=
  ⟨_, rfl, rfl, rfl, rfl⟩

theorem Template.step {tx : List UInt8} (h : Template tx) (call : ArpCall) :
    Template (sendArpReq tx call).arpReqTx := by
  rcases call with ⟨netHandle, srcMac, srcIp, dstMac, dstIp, fresh, queueSend⟩
  cases netHandle with
  | none => exact h
  | some netHandle =>
      cases srcMac with
      | none => exact h
      | some srcMac =>
          cases srcIp with
          | none => exact h
          | some srcIp =>
              cases dstMac with
              | none => exact h
              | some dstMac =>
                  cases dstIp with
                  | none => exact h
                  | some dstIp =>
                      rw [sendArpReq_of_template h]
                      exact template_requestFrame srcMac srcIp dstMac dstIp

/-- No call leaves anything else than a template. -/
theorem template_templateAfter (earlier : List ArpCall) : Template (templateAfter earlier) := by
  induction earlier using List.reverseRecOn with
  | nil => exact template_arpReqTx
  | append_singleton earlier call ih =>
      rw [templateAfter, List.foldl_append]
      exact ih.step call

theorem frameOf_arpBuffer (fresh : FreshFrame) (f : Frame) :
    frameOf (arpBuffer fresh f.encode) = some f.encode := by
  have hslice : slice f.encode 0 arpingMaxPktSize = f.encode := by
    rw [← f.length_encode, slice_zero_length]
  have hdata : frameOf (arpBuffer fresh f.encode) =
      some ((patch fresh.1 0 (slice f.encode 0 arpingMaxPktSize)).take arpingMaxPktSize) := rfl
  rw [hdata, hslice, patch, List.take_zero, List.nil_append, List.take_left' f.length_encode]

end Send

section Exchange

/-- `reply` tells the node with the addresses `srcMac` and `srcIp` that `dstIp` has the MAC
address `mac`. -/
structure Reply (mac : Mac) (dstIp : UInt32) (srcMac : Mac) (srcIp : UInt32)
    (reply : List UInt8) : Prop where
  length : reply.length = arpingMaxPktSize
  senderMac : slice reply 22 6 = mac.1
  senderIp : slice reply 28 4 = be32Bytes dstIp
  targetMac : slice reply 32 6 = srcMac.1
  targetIp : slice reply 38 4 = be32Bytes srcIp
  fromMac : slice reply 6 6 = mac.1
  toMac : slice reply 0 6 = srcMac.1
  isReply : (isArpPacket reply).toNat = arpReply
  isForMe : isArpPktForMe (some srcIp) reply

theorem reply_requestFrame (srcMac : Mac) (srcIp : UInt32) (dstMac : Mac) (dstIp : UInt32)
    (mac : Mac) :
    Reply mac dstIp srcMac srcIp ((requestFrame srcMac srcIp dstMac dstIp).reply mac).encode := by
  have hmac := ((requestFrame srcMac srcIp dstMac dstIp).reply mac).slice_mac []
  have hip := ((requestFrame srcMac srcIp dstMac dstIp).reply mac).slice_ipaddr []
  have hpacket := isArpPacket_of_isArp ((requestFrame srcMac srcIp dstMac dstIp).reply mac) []
    ⟨rfl, Or.inr rfl⟩
  have hforMe := isArpPktForMe_encode ((requestFrame srcMac srcIp dstMac dstIp).reply mac) [] srcIp
  simp only [List.append_nil] at hmac hip hpacket hforMe
  constructor
  · exact Frame.length_encode _
  · exact hmac .SRC_REPEAT
  · exact hip .SRC
  · exact hmac .DST_REPEAT
  · exact hip .DST
  · exact hmac .SRC
  · exact hmac .DST
  · rw [hpacket]
    rfl
  · exact hforMe.2 rfl

/-- Whatever was sent before, a request is made of its arguments alone; the node that has
the address answers it, and no other node does. -/
theorem arp_exchange (earlier : List ArpCall) (netHandle : Option Netdev) (srcMac : Mac)
    (srcIp : UInt32) (dstMac : Mac) (dstIp : UInt32) (fresh : FreshFrame) (queueSend : Bool) :
    let frame := (requestFrame srcMac srcIp dstMac dstIp).encode
    (sendArpReq (templateAfter earlier) ⟨some netHandle, some srcMac, some srcIp, some dstMac,
        some dstIp, fresh, queueSend⟩).buffer.bind frameOf = some frame ∧
      frame.length = arpingMaxPktSize ∧
      ∀ (ip : UInt32) (mac : Mac) (respLen : Option UInt16),
        let response := (arpReqHandler (some ip) mac (some frame) 42 respLen).response
        if ip = dstIp then
          ∃ reply, response = some reply ∧ Reply mac dstIp srcMac srcIp reply
        else
          response = none := by
  intro frame
  have hlen : (42 : UInt16) ≠ 0 := by decide
  constructor
  · rw [sendArpReq_of_template (template_templateAfter earlier)]
    exact frameOf_arpBuffer fresh _
  · constructor
    · exact Frame.length_encode _
    · intro ip mac respLen response
      by_cases hip : ip = dstIp
      · have hhandler := arpReqHandler_of_request (requestFrame srcMac srcIp dstMac dstIp) [] ip
          mac respLen hlen rfl rfl hip.symm
        rw [List.append_nil] at hhandler
        rw [if_pos hip]
        exact ⟨_, congrArg HandlerResult.response hhandler,
          reply_requestFrame srcMac srcIp dstMac dstIp mac⟩
      · have hhandler := arpReqHandler_of_ne (requestFrame srcMac srcIp dstMac dstIp) [] ip mac
          respLen hlen ⟨rfl, Or.inl rfl⟩ fun heq => hip heq.symm
        rw [List.append_nil] at hhandler
        rw [if_neg hip]
        exact congrArg HandlerResult.response hhandler

end Exchange

end App

end EspHosted
