import EspHosted.Common.ByteOrder
import EspHosted.Lib.Fields

/-!
# ARP

The functions of `arp_server_stub.c` on streams of bytes: the accessors of a packet and
the responder `arpReqHandler`.

A packet is handed over as the bytes from `pkt` on, those behind its end included. Which
of them the responder reads is part of its result, as a list of offsets and lengths.

`Frame` is what the 42 bytes of an ARP packet say. The accessors of the source get and
set its fields, and the responder turns a request into `Frame.reply`.
-/

namespace EspHosted

namespace App

open EspHosted.Bytes EspHosted.Common

/-- `MAC_LEN` bytes. -/
abbrev Mac := { mac : List UInt8 // mac.length = 6 }

/-- `ARPING_MAX_PKT_SIZE` -/
abbrev arpingMaxPktSize : ℕ := 42

/-- `PROTOCOL_ARP` -/
def protocolArp : UInt16 := 0x0806

/-- `ARP_REPLY` -/
def arpReply : ℕ := 2

/-- `MAX_MSG_TYPE_ARPING` -/
def maxMsgTypeArping : ℕ := 3

/-- The values of `ie_type_e` that stand for a MAC address. -/
inductive MacType where
  | SRC
  | SRC_REPEAT
  | DST
  | DST_REPEAT
  deriving DecidableEq

/-- The values of `ie_type_e` that stand for an IP address. -/
inductive IpType where
  | SRC
  | DST
  deriving DecidableEq

/-- `stream_set` -/
def streamSet (stream : List UInt8) (val : Source) (offset len : ℕ) : List UInt8 :=
  copyLoop stream val offset len

/-- `stream_get`: a pointer into the stream. -/
def streamGet (offset : ℕ) : Source := .inside offset

/-- `ARPING_OFFSET_SRC_IP` and `ARPING_OFFSET_DST_IP` -/
def IpType.offset : IpType → ℕ
  | .SRC => 28
  | .DST => 38

/-- `ARPING_OFFSET_SRC_MAC` and its siblings. -/
def MacType.offset : MacType → ℕ
  | .SRC => 6
  | .SRC_REPEAT => 22
  | .DST => 0
  | .DST_REPEAT => 32

/-- `arping_set_ipaddr` -/
def arpingSetIpaddr (stream : List UInt8) (type : IpType) (ip : UInt32) : List UInt8 :=
  let ipNw := htonLong ip
  streamSet stream (.outside (le32Bytes ipNw)) type.offset 4

/-- `arping_get_ipaddr` -/
def arpingGetIpaddr (stream : List UInt8) (type : IpType) : UInt32 :=
  let ipNw := load32 stream type.offset
  htonLong ipNw

/-- `arping_set_mac` -/
def arpingSetMac (stream : List UInt8) (type : MacType) (mac : Source) : List UInt8 :=
  streamSet stream mac type.offset 6

/-- `arping_get_mac` -/
def arpingGetMac (type : MacType) : Source := streamGet type.offset

/-- `arping_set_opcode` -/
def arpingSetOpcode (stream : List UInt8) (opcode : UInt16) : List UInt8 :=
  let opcodeNw := htonShort opcode
  streamSet stream (.outside (le16Bytes opcodeNw)) 20 2

/-- `arping_get_opcode` -/
def arpingGetOpcode (stream : List UInt8) : UInt16 := htonShort (load16 stream 20)

/-- `arping_get_protocol` -/
def arpingGetProtocol (stream : List UInt8) : UInt16 := htonShort (load16 stream 12)

/-- `arping_swap_ip_addresses` -/
def arpingSwapIpAddresses (stream : List UInt8) : List UInt8 :=
  let inSrcIp := arpingGetIpaddr stream .SRC
  let inDstIp := arpingGetIpaddr stream .DST
  let stream := arpingSetIpaddr stream .DST inSrcIp
  arpingSetIpaddr stream .SRC inDstIp

/-- `arping_change_mac_addresses`; `rsp_mac` points into the stream. -/
def arpingChangeMacAddresses (stream : List UInt8) (selfMac : Mac) : List UInt8 :=
  let rspMac := arpingGetMac .SRC
  let stream := arpingSetMac stream .DST rspMac
  let stream := arpingSetMac stream .DST_REPEAT rspMac
  let stream := arpingSetMac stream .SRC (.outside selfMac.1)
  arpingSetMac stream .SRC_REPEAT (.outside selfMac.1)

/-- `is_arp_packet`: the opcode, or zero. -/
def isArpPacket (pkt : List UInt8) : UInt8 :=
  let prot := arpingGetProtocol pkt
  let opcode := arpingGetOpcode pkt
  if protocolArp = prot then
    if opcode.toNat < maxMsgTypeArping then opcode.toUInt8 else 0
  else
    0

/-- `is_same_buff` -/
def isSameBuff (buff1 buff2 : Option (List UInt8)) (len : ℕ) : Bool :=
  match buff1, buff2 with
  | none, none => len = 0
  | some b1, some b2 => (List.range len).all fun idx => b1.getD idx 0 = b2.getD idx 0
  | _, _ => false

/-- `is_arp_pkt_for_me` -/
def isArpPktForMe (srcIp : Option UInt32) (pkt : List UInt8) : Bool :=
  let inDstIp := arpingGetIpaddr pkt .DST
  isSameBuff (some (le32Bytes inDstIp)) (srcIp.map le32Bytes) 4

/-- What `is_arp_packet` reads of the packet. -/
def isArpPacketReads : List (ℕ × ℕ) := [(12, 2), (20, 2)]

/-- What `is_arp_pkt_for_me` reads of the packet. -/
def isArpPktForMeReads : List (ℕ × ℕ) := [(38, 4)]

/-- What `display_arp` reads of the packet. -/
def displayArpReads (arpMsg : UInt8) : List (ℕ × ℕ) :=
  if arpMsg.toNat < maxMsgTypeArping then [(28, 4), (6, 6)] else []

/-- The response, `*resp_len` when there is one, and what was read of the packet. -/
structure HandlerResult where
  response : Option (List UInt8)
  respLen : Option UInt16
  reads : List (ℕ × ℕ)

/-- The response to a request: a copy of its first 42 bytes, rewritten. -/
def arpResponse (srcMac : Mac) (pkt : List UInt8) : List UInt8 :=
  let arpResp := List.replicate arpingMaxPktSize 0
  let arpResp := patch arpResp 0 (slice pkt 0 arpingMaxPktSize)
  let arpResp := arpingSetOpcode arpResp 2
  let arpResp := arpingSwapIpAddresses arpResp
  arpingChangeMacAddresses arpResp srcMac

/-- `arp_req_handler` -/
def arpReqHandler (srcIp : Option UInt32) (srcMac : Mac) (pkt : Option (List UInt8))
    (pktLen : UInt16) (respLen : Option UInt16) : HandlerResult :=
  match pkt with
  | none => { response := none, respLen := respLen.map fun _ => 0, reads := [] }
  | some pkt =>
      if pktLen = 0 then
        { response := none, respLen := respLen.map fun _ => 0, reads := [] }
      else
        let isArpReq := isArpPacket pkt
        let reads := isArpPacketReads
        if isArpReq = 0 then
          { response := none, respLen := respLen, reads := reads }
        else
          let reads := reads ++ isArpPktForMeReads
          if isArpPktForMe srcIp pkt then
            let reads := reads ++ displayArpReads isArpReq
            if arpReply = isArpReq.toNat then
              { response := none, respLen := respLen, reads := reads }
            else
              { response := some (arpResponse srcMac pkt)
                respLen := respLen.map fun _ => pktLen
                reads := reads ++ [(0, arpingMaxPktSize)] }
          else
            { response := none, respLen := respLen, reads := reads }

/-! ## What a frame says -/

/-- The fields of an ARP packet, in their order. `hardware` are the six bytes between the
ethertype and the opcode. -/
structure Frame where
  dstMac : Mac
  srcMac : Mac
  protocol : UInt16
  hardware : { l : List UInt8 // l.length = 6 }
  opcode : UInt16
  srcRepeatMac : Mac
  srcIp : UInt32
  dstRepeatMac : Mac
  dstIp : UInt32

/-- `hardware` for IPv4 on Ethernet. -/
def hardwareBytes : { l : List UInt8 // l.length = 6 } :=
  ⟨[0x00, 0x01, 0x08, 0x00, 0x06, 0x04], rfl⟩

namespace Frame

def fields (f : Frame) : List (List UInt8) :=
  [f.dstMac.1, f.srcMac.1, be16Bytes f.protocol, f.hardware.1, be16Bytes f.opcode,
    f.srcRepeatMac.1, be32Bytes f.srcIp, f.dstRepeatMac.1, be32Bytes f.dstIp]

def widths : List ℕ := [6, 6, 2, 6, 2, 6, 4, 6, 4]

theorem map_length_fields (f : Frame) : f.fields.map List.length = widths := by
  simp [fields, widths, f.dstMac.2, f.srcMac.2, f.hardware.2, f.srcRepeatMac.2,
    f.dstRepeatMac.2]

/-- The frame as it is sent. -/
def encode (f : Frame) : List UInt8 := f.fields.flatten

@[simp] theorem length_encode (f : Frame) : f.encode.length = arpingMaxPktSize := by
  rw [encode, List.length_flatten, f.map_length_fields]
  rfl

theorem exists_fields {fs : List (List UInt8)} (h : fs.map List.length = widths) :
    ∃ f : Frame, f.fields = fs := by
  simp only [widths, List.map_eq_cons_iff, List.map_eq_nil_iff] at h
  obtain ⟨dstMac, _, rfl, hdst, srcMac, _, rfl, hsrc, protocol, _, rfl, hprotocol, hardware, _,
    rfl, hhardware, opcode, _, rfl, hopcode, srcRepeatMac, _, rfl, hsrcRepeat, srcIp, _, rfl,
    hsrcIp, dstRepeatMac, _, rfl, hdstRepeat, dstIp, _, rfl, hdstIp, rfl⟩ := h
  obtain ⟨protocol, rfl⟩ := exists_be16Bytes hprotocol
  obtain ⟨opcode, rfl⟩ := exists_be16Bytes hopcode
  obtain ⟨srcIp, rfl⟩ := exists_be32Bytes hsrcIp
  obtain ⟨dstIp, rfl⟩ := exists_be32Bytes hdstIp
  exact
    ⟨{ dstMac := ⟨dstMac, hdst⟩
       srcMac := ⟨srcMac, hsrc⟩
       protocol := protocol
       hardware := ⟨hardware, hhardware⟩
       opcode := opcode
       srcRepeatMac := ⟨srcRepeatMac, hsrcRepeat⟩
       srcIp := srcIp
       dstRepeatMac := ⟨dstRepeatMac, hdstRepeat⟩
       dstIp := dstIp }, rfl⟩

/-- The bytes of a packet are those of a frame and a rest. -/
theorem exists_encode {m : List UInt8} (h : arpingMaxPktSize ≤ m.length) :
    ∃ f rest, m = encode f ++ rest := by
  obtain ⟨f, hf⟩ := exists_fields (map_length_split widths h)
  exact ⟨f, m.drop widths.sum, by rw [encode, hf, flatten_split]⟩

/-- `arping_set_mac` on the fields. -/
def setMac (f : Frame) (type : MacType) (mac : Mac) : Frame :=
  match type with
  | .SRC => { f with srcMac := mac }
  | .SRC_REPEAT => { f with srcRepeatMac := mac }
  | .DST => { f with dstMac := mac }
  | .DST_REPEAT => { f with dstRepeatMac := mac }

/-- `arping_set_ipaddr` on the fields. -/
def setIpaddr (f : Frame) (type : IpType) (ip : UInt32) : Frame :=
  match type with
  | .SRC => { f with srcIp := ip }
  | .DST => { f with dstIp := ip }

/-- `arping_get_ipaddr` on the fields. -/
def getIpaddr (f : Frame) : IpType → UInt32
  | .SRC => f.srcIp
  | .DST => f.dstIp

/-- `arping_get_mac` on the fields. -/
def getMac (f : Frame) : MacType → Mac
  | .SRC => f.srcMac
  | .SRC_REPEAT => f.srcRepeatMac
  | .DST => f.dstMac
  | .DST_REPEAT => f.dstRepeatMac

section Accessors

variable (f : Frame) (rest : List UInt8)

theorem slice_encode {k : ℕ} {field : List UInt8} (hk : f.fields[k]? = some field) :
    slice (f.encode ++ rest) (widths.take k).sum field.length = field :=
  slice_field f.map_length_fields hk rest

theorem slice_protocol : slice (f.encode ++ rest) 12 2 = be16Bytes f.protocol :=
  f.slice_encode rest (k := 2) rfl

theorem slice_opcode : slice (f.encode ++ rest) 20 2 = be16Bytes f.opcode :=
  f.slice_encode rest (k := 4) rfl

theorem slice_ipaddr (type : IpType) :
    slice (f.encode ++ rest) type.offset 4 = be32Bytes (f.getIpaddr type) := by
  cases type with
  | SRC => exact f.slice_encode rest (k := 6) rfl
  | DST => exact f.slice_encode rest (k := 8) rfl

theorem slice_mac (type : MacType) :
    slice (f.encode ++ rest) type.offset 6 = (f.getMac type).1 := by
  have hfield : ∀ {k : ℕ}, f.fields[k]? = some (f.getMac type).1 →
      slice (f.encode ++ rest) (widths.take k).sum 6 = (f.getMac type).1 := by
    intro k hk
    have hslice := f.slice_encode rest hk
    rwa [(f.getMac type).2] at hslice
  cases type with
  | SRC => exact hfield (k := 1) rfl
  | SRC_REPEAT => exact hfield (k := 5) rfl
  | DST => exact hfield (k := 0) rfl
  | DST_REPEAT => exact hfield (k := 7) rfl

@[simp] theorem arpingGetProtocol_encode : arpingGetProtocol (f.encode ++ rest) = f.protocol := by
  have hslice := f.slice_protocol rest
  rw [← le16Bytes_htonShort] at hslice
  rw [arpingGetProtocol, load16_of_slice hslice, htonShort_htonShort]

@[simp] theorem arpingGetOpcode_encode : arpingGetOpcode (f.encode ++ rest) = f.opcode := by
  have hslice := f.slice_opcode rest
  rw [← le16Bytes_htonShort] at hslice
  rw [arpingGetOpcode, load16_of_slice hslice, htonShort_htonShort]

@[simp] theorem arpingGetIpaddr_encode (type : IpType) :
    arpingGetIpaddr (f.encode ++ rest) type = f.getIpaddr type := by
  have hslice := f.slice_ipaddr rest type
  rw [← le32Bytes_htonLong] at hslice
  rw [arpingGetIpaddr, load32_of_slice hslice, htonLong_htonLong]

/-- A store of a field, from outside of the frame. -/
theorem streamSet_outside {k offset n : ℕ} {field src : List UInt8}
    (hk : f.fields[k]? = some field) (hoffset : (widths.take k).sum = offset)
    (hfield : field.length = n) (hsrc : src.length = n) :
    streamSet (f.encode ++ rest) (.outside src) offset n =
      (f.fields.set k src).flatten ++ rest := by
  have hlen : src.length = field.length := hsrc.trans hfield.symm
  have hend := offset_add_length_le f.map_length_fields hk rest
  rw [← hlen] at hend
  rw [streamSet, ← hoffset, ← hsrc, encode, copyLoop_outside hend]
  exact patch_field f.map_length_fields hk hlen rest

/-- A store of a field that is read from another part of the same frame. -/
theorem streamSet_inside {k offset pos n : ℕ} {field src : List UInt8}
    (hk : f.fields[k]? = some field) (hoffset : (widths.take k).sum = offset)
    (hfield : field.length = n) (hsrc : slice (f.encode ++ rest) pos n = src)
    (hlen : src.length = n) (hpos : pos + n ≤ arpingMaxPktSize)
    (hdisjoint : pos + n ≤ offset ∨ offset + n ≤ pos) :
    streamSet (f.encode ++ rest) (.inside pos) offset n =
      (f.fields.set k src).flatten ++ rest := by
  have hend : offset + n ≤ (f.encode ++ rest).length := by
    rw [← hoffset, ← hfield]
    exact offset_add_length_le f.map_length_fields hk rest
  have hpos' : pos + n ≤ (f.encode ++ rest).length := by
    rw [List.length_append, length_encode]
    omega
  rw [streamSet, copyLoop_inside hend hpos' hdisjoint, hsrc, ← hoffset]
  exact patch_field f.map_length_fields hk (hlen.trans hfield.symm) rest

theorem arpingSetOpcode_encode (opcode : UInt16) :
    arpingSetOpcode (f.encode ++ rest) opcode = { f with opcode := opcode }.encode ++ rest := by
  rw [arpingSetOpcode, le16Bytes_htonShort]
  exact f.streamSet_outside rest (k := 4) rfl rfl rfl rfl

theorem arpingSetIpaddr_encode (type : IpType) (ip : UInt32) :
    arpingSetIpaddr (f.encode ++ rest) type ip = (f.setIpaddr type ip).encode ++ rest := by
  rw [arpingSetIpaddr, le32Bytes_htonLong]
  cases type with
  | SRC => exact f.streamSet_outside rest (k := 6) rfl rfl rfl rfl
  | DST => exact f.streamSet_outside rest (k := 8) rfl rfl rfl rfl

theorem arpingSetMac_encode (type : MacType) (mac : Mac) :
    arpingSetMac (f.encode ++ rest) type (.outside mac.1) =
      (f.setMac type mac).encode ++ rest := by
  cases type with
  | SRC => exact f.streamSet_outside rest (k := 1) rfl rfl f.srcMac.2 mac.2
  | SRC_REPEAT => exact f.streamSet_outside rest (k := 5) rfl rfl f.srcRepeatMac.2 mac.2
  | DST => exact f.streamSet_outside rest (k := 0) rfl rfl f.dstMac.2 mac.2
  | DST_REPEAT => exact f.streamSet_outside rest (k := 7) rfl rfl f.dstRepeatMac.2 mac.2

/-- The destination fields are set from the source field of the same frame. -/
theorem arpingSetMac_srcMac (type : MacType) (htype : type = .DST ∨ type = .DST_REPEAT) :
    arpingSetMac (f.encode ++ rest) type (arpingGetMac .SRC) =
      (f.setMac type f.srcMac).encode ++ rest := by
  have hsrc := f.slice_mac rest .SRC
  obtain rfl | rfl := htype
  · exact f.streamSet_inside rest (k := 0) rfl rfl f.dstMac.2 hsrc f.srcMac.2 (by decide)
      (by decide)
  · exact f.streamSet_inside rest (k := 7) rfl rfl f.dstRepeatMac.2 hsrc f.srcMac.2 (by decide)
      (by decide)

end Accessors

/-- The answer of the node with the given MAC address. -/
def reply (f : Frame) (selfMac : Mac) : Frame :=
  { f with
    dstMac := f.srcMac
    srcMac := selfMac
    opcode := 2
    srcRepeatMac := selfMac
    srcIp := f.dstIp
    dstRepeatMac := f.srcMac
    dstIp := f.srcIp }

theorem arpingSwapIpAddresses_encode (f : Frame) (rest : List UInt8) :
    arpingSwapIpAddresses (f.encode ++ rest) =
      { f with srcIp := f.dstIp, dstIp := f.srcIp }.encode ++ rest := by
  simp only [arpingSwapIpAddresses, arpingGetIpaddr_encode, arpingSetIpaddr_encode]
  rfl

theorem arpingChangeMacAddresses_encode (f : Frame) (rest : List UInt8) (selfMac : Mac) :
    arpingChangeMacAddresses (f.encode ++ rest) selfMac =
      { f with
        dstMac := f.srcMac
        srcMac := selfMac
        srcRepeatMac := selfMac
        dstRepeatMac := f.srcMac }.encode ++ rest := by
  rw [arpingChangeMacAddresses, arpingSetMac_srcMac f rest .DST (Or.inl rfl)]
  rw [show f.srcMac = (f.setMac .DST f.srcMac).srcMac from rfl,
    arpingSetMac_srcMac _ rest .DST_REPEAT (Or.inr rfl), arpingSetMac_encode,
    arpingSetMac_encode]
  rfl

/-- The response is the reply to the frame that the packet begins with. -/
theorem arpResponse_encode (f : Frame) (rest : List UInt8) (srcMac : Mac) :
    arpResponse srcMac (f.encode ++ rest) = (f.reply srcMac).encode := by
  have hcopy : patch (List.replicate arpingMaxPktSize 0) 0
      (slice (f.encode ++ rest) 0 arpingMaxPktSize) = f.encode := by
    have hslice : slice (f.encode ++ rest) 0 arpingMaxPktSize = f.encode :=
      List.take_left' f.length_encode
    rw [hslice, patch_replicate, length_encode]
    exact List.append_nil _
  rw [arpResponse, hcopy]
  have hopcode := f.arpingSetOpcode_encode [] 2
  have hswap := arpingSwapIpAddresses_encode { f with opcode := 2 } []
  have hmac := arpingChangeMacAddresses_encode
    { f with opcode := 2, srcIp := f.dstIp, dstIp := f.srcIp } [] srcMac
  simp only [List.append_nil] at hopcode hswap hmac
  simp only [hopcode, hswap, hmac]
  rfl

/-- An ARP request or an ARP reply. -/
def IsArp (f : Frame) : Prop := f.protocol = protocolArp ∧ (f.opcode = 1 ∨ f.opcode = 2)

end Frame

/-! ## The responder on frames -/

section Handler

variable (f : Frame) (rest : List UInt8)

theorem isSameBuff_iff {b1 b2 : List UInt8} (h : b1.length = b2.length) :
    isSameBuff (some b1) (some b2) b1.length ↔ b1 = b2 := by
  simp only [isSameBuff, List.all_eq_true, List.mem_range, decide_eq_true_eq]
  constructor
  · intro hsame
    apply List.ext_getElem h
    intro i hi hi'
    have hbyte := hsame i hi
    simp only [List.getD_eq_getElem?_getD, List.getElem?_eq_getElem hi,
      List.getElem?_eq_getElem hi', Option.getD_some] at hbyte
    exact hbyte
  · intro heq i _
    rw [heq]

/-- The addresses are compared as they stand in the memory of this machine. -/
theorem isArpPktForMe_encode (ip : UInt32) :
    isArpPktForMe (some ip) (f.encode ++ rest) ↔ f.dstIp = ip := by
  have hlen : (le32Bytes f.dstIp).length = (le32Bytes ip).length := rfl
  simp only [isArpPktForMe, Frame.arpingGetIpaddr_encode, Option.map_some]
  constructor
  · intro h
    exact le32Bytes_injective ((isSameBuff_iff hlen).1 h)
  · intro h
    exact (isSameBuff_iff hlen).2 (congrArg le32Bytes h)

theorem isArpPacket_of_not_isArp (h : ¬ f.IsArp) : isArpPacket (f.encode ++ rest) = 0 := by
  simp only [isArpPacket, Frame.arpingGetProtocol_encode, Frame.arpingGetOpcode_encode]
  by_cases hprotocol : protocolArp = f.protocol
  · by_cases hopcode : f.opcode.toNat < maxMsgTypeArping
    · have hzero : f.opcode = 0 := by
        have hone : ¬ f.opcode = 1 := fun hone => h ⟨hprotocol.symm, Or.inl hone⟩
        have htwo : ¬ f.opcode = 2 := fun htwo => h ⟨hprotocol.symm, Or.inr htwo⟩
        rw [← UInt16.toNat_inj] at hone htwo ⊢
        simp only [maxMsgTypeArping, UInt16.reduceToNat] at hopcode hone htwo ⊢
        omega
      rw [if_pos hprotocol, if_pos hopcode, hzero]
      rfl
    · rw [if_pos hprotocol, if_neg hopcode]
  · rw [if_neg hprotocol]

theorem isArpPacket_of_isArp (h : f.IsArp) :
    isArpPacket (f.encode ++ rest) = f.opcode.toUInt8 := by
  simp only [isArpPacket, Frame.arpingGetProtocol_encode, Frame.arpingGetOpcode_encode]
  obtain ⟨hprotocol, hopcode | hopcode⟩ := h
  · rw [hprotocol, hopcode]
    rfl
  · rw [hprotocol, hopcode]
    rfl

variable (ip : UInt32) (srcMac : Mac) {pktLen : UInt16} (respLen : Option UInt16)

/-- A packet that is no ARP packet is looked at no further. -/
theorem arpReqHandler_of_not_isArp (hlen : pktLen ≠ 0) (h : ¬ f.IsArp) :
    arpReqHandler (some ip) srcMac (some (f.encode ++ rest)) pktLen respLen =
      { response := none, respLen := respLen, reads := [(12, 2), (20, 2)] } := by
  simp [arpReqHandler, hlen, isArpPacket_of_not_isArp f rest h, isArpPacketReads]

/-- Neither is a packet for another node. -/
theorem arpReqHandler_of_ne (hlen : pktLen ≠ 0) (h : f.IsArp) (hip : f.dstIp ≠ ip) :
    arpReqHandler (some ip) srcMac (some (f.encode ++ rest)) pktLen respLen =
      { response := none, respLen := respLen, reads := [(12, 2), (20, 2), (38, 4)] } := by
  have hforMe : ¬ isArpPktForMe (some ip) (f.encode ++ rest) := by
    rw [isArpPktForMe_encode]
    exact hip
  have hpacket := isArpPacket_of_isArp f rest h
  obtain ⟨hprotocol, hopcode | hopcode⟩ := h
  · rw [hopcode] at hpacket
    simp [arpReqHandler, hlen, hpacket, hforMe, isArpPacketReads, isArpPktForMeReads]
  · rw [hopcode] at hpacket
    simp [arpReqHandler, hlen, hpacket, hforMe, isArpPacketReads, isArpPktForMeReads]

/-- A reply is displayed. -/
theorem arpReqHandler_of_reply (hlen : pktLen ≠ 0) (hprotocol : f.protocol = protocolArp)
    (hopcode : f.opcode = 2) (hip : f.dstIp = ip) :
    arpReqHandler (some ip) srcMac (some (f.encode ++ rest)) pktLen respLen =
      { response := none
        respLen := respLen
        reads := [(12, 2), (20, 2), (38, 4), (28, 4), (6, 6)] } := by
  have hforMe := (isArpPktForMe_encode f rest ip).2 hip
  have hpacket := isArpPacket_of_isArp f rest ⟨hprotocol, Or.inr hopcode⟩
  rw [hopcode] at hpacket
  simp [arpReqHandler, hlen, hpacket, hforMe, isArpPacketReads, isArpPktForMeReads,
    displayArpReads, arpReply, maxMsgTypeArping]

/-- A request is answered, with the length of the request. -/
theorem arpReqHandler_of_request (hlen : pktLen ≠ 0) (hprotocol : f.protocol = protocolArp)
    (hopcode : f.opcode = 1) (hip : f.dstIp = ip) :
    arpReqHandler (some ip) srcMac (some (f.encode ++ rest)) pktLen respLen =
      { response := some (f.reply srcMac).encode
        respLen := respLen.map fun _ => pktLen
        reads := [(12, 2), (20, 2), (38, 4), (28, 4), (6, 6), (0, 42)] } := by
  have hforMe := (isArpPktForMe_encode f rest ip).2 hip
  have hpacket := isArpPacket_of_isArp f rest ⟨hprotocol, Or.inl hopcode⟩
  rw [hopcode] at hpacket
  simp [arpReqHandler, hlen, hpacket, hforMe, isArpPacketReads, isArpPktForMeReads,
    displayArpReads, arpReply, maxMsgTypeArping, Frame.arpResponse_encode]

end Handler

end App

end EspHosted
