import EspHosted.App.Arp

/-!
# What the ARP responder answers

`Responds` is what a responder owes: it stays inside of the packet, answers the requests
for its own address and no other packet, and its answer is as long as it says.
`arpReqHandler` looks at the fields of a packet before it looks at its length, and
returns the length of the request for that of the response.

That the list of its reads is complete is `arpReqHandler_congr`.
-/

namespace EspHosted

namespace App

open EspHosted.Bytes

/-- A received packet: its length, and the bytes from its first one on, with those that
happen to lie behind its end. -/
structure Packet where
  len : UInt16
  memory : List UInt8
  covers : len.toNat ≤ memory.length
  room : arpingMaxPktSize ≤ memory.length

/-- The bytes are those of an ARP packet, request or reply. -/
def IsArpMessage (m : List UInt8) : Prop :=
  slice m 12 2 = [0x08, 0x06] ∧ (slice m 20 2 = [0, 1] ∨ slice m 20 2 = [0, 2])

/-- The bytes are those of an ARP request for `ip`. -/
def IsRequestFor (ip : UInt32) (m : List UInt8) : Prop :=
  slice m 12 2 = [0x08, 0x06] ∧ slice m 20 2 = [0, 1] ∧ slice m 38 4 = be32Bytes ip

/-- `resp` answers the request `m`: the addresses change places, and nothing else but the
opcode changes. -/
structure Answers (mac : Mac) (m resp : List UInt8) : Prop where
  length : resp.length = arpingMaxPktSize
  dstMac : slice resp 0 6 = slice m 6 6
  srcMac : slice resp 6 6 = mac.1
  unchanged : slice resp 12 8 = slice m 12 8
  opcode : slice resp 20 2 = [0, 2]
  senderMac : slice resp 22 6 = mac.1
  senderIp : slice resp 28 4 = slice m 38 4
  targetMac : slice resp 32 6 = slice m 6 6
  targetIp : slice resp 38 4 = slice m 28 4

structure Responds (ip : UInt32) (mac : Mac) (p : Packet) (r : HandlerResult) : Prop where
  inBounds : ∀ read ∈ r.reads, read.1 + read.2 ≤ p.len.toNat
  answers : r.response.isSome ↔ arpingMaxPktSize ≤ p.len.toNat ∧ IsRequestFor ip p.memory
  answer : ∀ resp, r.response = some resp → Answers mac p.memory resp
  bounded : r.response.isSome → ∀ n, r.respLen = some n → n.toNat ≤ arpingMaxPktSize

namespace Frame

theorem isArpMessage_encode (f : Frame) (rest : List UInt8) :
    IsArpMessage (f.encode ++ rest) ↔ f.IsArp := by
  have hopcode : ∀ x, be16Bytes f.opcode = be16Bytes x ↔ f.opcode = x := by
    intro x
    exact ⟨be16Bytes_injective, congrArg be16Bytes⟩
  have hprotocol : be16Bytes f.protocol = be16Bytes protocolArp ↔ f.protocol = protocolArp :=
    ⟨be16Bytes_injective, congrArg be16Bytes⟩
  rw [IsArpMessage, slice_protocol, slice_opcode, IsArp, ← hprotocol, ← hopcode, ← hopcode]
  rfl

theorem isRequestFor_encode (f : Frame) (rest : List UInt8) (ip : UInt32) :
    IsRequestFor ip (f.encode ++ rest) ↔
      f.protocol = protocolArp ∧ f.opcode = 1 ∧ f.dstIp = ip := by
  have hopcode : be16Bytes f.opcode = be16Bytes 1 ↔ f.opcode = 1 :=
    ⟨be16Bytes_injective, congrArg be16Bytes⟩
  have hprotocol : be16Bytes f.protocol = be16Bytes protocolArp ↔ f.protocol = protocolArp :=
    ⟨be16Bytes_injective, congrArg be16Bytes⟩
  have hip : be32Bytes f.dstIp = be32Bytes ip ↔ f.dstIp = ip :=
    ⟨be32Bytes_injective, congrArg be32Bytes⟩
  have hdst : slice (f.encode ++ rest) 38 4 = be32Bytes f.dstIp := f.slice_ipaddr rest .DST
  rw [IsRequestFor, slice_protocol, slice_opcode, hdst, hip, ← hprotocol, ← hopcode]
  rfl

/-- The bytes between the addresses and the opcode. -/
theorem slice_unchanged (f : Frame) (rest : List UInt8) :
    slice (f.encode ++ rest) 12 8 = be16Bytes f.protocol ++ f.hardware.1 := by
  have hhardware := f.slice_encode rest (k := 3) rfl
  rw [f.hardware.2] at hhardware
  rw [slice_add _ 12 2 6, slice_protocol]
  exact congrArg _ hhardware

theorem answers_reply (f : Frame) (rest : List UInt8) (mac : Mac) :
    Answers mac (f.encode ++ rest) (f.reply mac).encode := by
  have hmac := (f.reply mac).slice_mac []
  have hip := (f.reply mac).slice_ipaddr []
  have hopcode := (f.reply mac).slice_opcode []
  have hunchanged := (f.reply mac).slice_unchanged []
  simp only [List.append_nil] at hmac hip hopcode hunchanged
  have hsrc := f.slice_mac rest .SRC
  have htwo : be16Bytes 2 = [0, 2] := by decide
  constructor
  · exact length_encode _
  · exact (hmac .DST).trans hsrc.symm
  · exact hmac .SRC
  · exact hunchanged.trans (f.slice_unchanged rest).symm
  · exact hopcode.trans htwo
  · exact hmac .SRC_REPEAT
  · exact (hip .SRC).trans (f.slice_ipaddr rest .DST).symm
  · exact (hmac .DST_REPEAT).trans hsrc.symm
  · exact (hip .DST).trans (f.slice_ipaddr rest .SRC).symm

end Frame

section Reads

variable {f f' : Frame} {rest rest' : List UInt8}

/-- The two packets agree where `reads` says. -/
def Agree (m m' : List UInt8) (reads : List (ℕ × ℕ)) : Prop :=
  ∀ read ∈ reads, slice m read.1 read.2 = slice m' read.1 read.2

theorem Agree.header_eq {reads : List (ℕ × ℕ)}
    (h : Agree (f.encode ++ rest) (f'.encode ++ rest') reads) (hprotocol : (12, 2) ∈ reads)
    (hopcode : (20, 2) ∈ reads) : f.protocol = f'.protocol ∧ f.opcode = f'.opcode := by
  have hp := h _ hprotocol
  have ho := h _ hopcode
  rw [f.slice_protocol, f'.slice_protocol] at hp
  rw [f.slice_opcode, f'.slice_opcode] at ho
  exact ⟨be16Bytes_injective hp, be16Bytes_injective ho⟩

theorem Agree.dstIp_eq {reads : List (ℕ × ℕ)}
    (h : Agree (f.encode ++ rest) (f'.encode ++ rest') reads) (hip : (38, 4) ∈ reads) :
    f.dstIp = f'.dstIp := by
  have hslice := h _ hip
  have hf := f.slice_ipaddr rest .DST
  have hf' := f'.slice_ipaddr rest' .DST
  exact be32Bytes_injective (hf.symm.trans (hslice.trans hf'))

theorem Agree.reply_eq {reads : List (ℕ × ℕ)}
    (h : Agree (f.encode ++ rest) (f'.encode ++ rest') reads)
    (hall : (0, arpingMaxPktSize) ∈ reads) (mac : Mac) :
    (f.reply mac).encode = (f'.reply mac).encode := by
  have hslice : f.encode = f'.encode := by
    have hboth := h _ hall
    have hf : slice (f.encode ++ rest) 0 arpingMaxPktSize = f.encode :=
      List.take_left' f.length_encode
    have hf' : slice (f'.encode ++ rest') 0 arpingMaxPktSize = f'.encode :=
      List.take_left' f'.length_encode
    exact hf.symm.trans (hboth.trans hf')
  have hresponse := f.arpResponse_encode [] mac
  rw [hslice, f'.arpResponse_encode] at hresponse
  exact hresponse.symm

/-- What the handler does depends on nothing else than what it reads. -/
theorem arpReqHandler_congr {m m' : List UInt8} (hm : arpingMaxPktSize ≤ m.length)
    (hm' : arpingMaxPktSize ≤ m'.length) (ip : UInt32) (mac : Mac) (pktLen : UInt16)
    (respLen : Option UInt16)
    (h : Agree m m' (arpReqHandler (some ip) mac (some m) pktLen respLen).reads) :
    arpReqHandler (some ip) mac (some m') pktLen respLen =
      arpReqHandler (some ip) mac (some m) pktLen respLen := by
  obtain ⟨f, rest, rfl⟩ := Frame.exists_encode hm
  obtain ⟨f', rest', rfl⟩ := Frame.exists_encode hm'
  by_cases hlen : pktLen = 0
  · simp [arpReqHandler, hlen]
  · by_cases harp : f.IsArp
    · by_cases hip : f.dstIp = ip
      · obtain ⟨hprotocol, hopcode | hopcode⟩ := harp
        · have hhandler := arpReqHandler_of_request f rest ip mac respLen hlen hprotocol hopcode hip
          rw [hhandler] at h ⊢
          obtain ⟨hp, ho⟩ := h.header_eq (by simp) (by simp)
          have hd := h.dstIp_eq (by simp)
          rw [h.reply_eq (by simp)]
          exact arpReqHandler_of_request f' rest' ip mac respLen hlen (hp ▸ hprotocol)
            (ho ▸ hopcode) (hd ▸ hip)
        · have hhandler := arpReqHandler_of_reply f rest ip mac respLen hlen hprotocol hopcode hip
          rw [hhandler] at h ⊢
          obtain ⟨hp, ho⟩ := h.header_eq (by simp) (by simp)
          have hd := h.dstIp_eq (by simp)
          exact arpReqHandler_of_reply f' rest' ip mac respLen hlen (hp ▸ hprotocol)
            (ho ▸ hopcode) (hd ▸ hip)
      · have hhandler := arpReqHandler_of_ne f rest ip mac respLen hlen harp hip
        rw [hhandler] at h ⊢
        obtain ⟨hp, ho⟩ := h.header_eq (by simp) (by simp)
        have hd := h.dstIp_eq (by simp)
        rw [Frame.IsArp, hp, ho] at harp
        exact arpReqHandler_of_ne f' rest' ip mac respLen hlen harp (hd ▸ hip)
    · have hhandler := arpReqHandler_of_not_isArp f rest ip mac respLen hlen harp
      rw [hhandler] at h ⊢
      obtain ⟨hp, ho⟩ := h.header_eq (by simp) (by simp)
      rw [Frame.IsArp, hp, ho] at harp
      exact arpReqHandler_of_not_isArp f' rest' ip mac respLen hlen harp

end Reads

section Responds

variable {ip : UInt32} {mac : Mac} {p : Packet} {respLen : Option UInt16}

/-- To a packet that is no request, silence is the answer. -/
theorem responds_silent_iff
    (h : ¬ (arpingMaxPktSize ≤ p.len.toNat ∧ IsRequestFor ip p.memory)) (reads : List (ℕ × ℕ)) :
    Responds ip mac p { response := none, respLen := respLen, reads := reads } ↔
      ∀ read ∈ reads, read.1 + read.2 ≤ p.len.toNat := by
  constructor
  · intro hresponds
    exact hresponds.inBounds
  · intro hbounds
    constructor
    · exact hbounds
    · constructor
      · intro hsome
        exact absurd hsome Bool.false_ne_true
      · intro hrequest
        exact absurd hrequest h
    · intro resp hresp
      exact absurd hresp (Option.some_ne_none resp).symm
    · intro hsome
      exact absurd hsome Bool.false_ne_true

/-- An answer to a request is right, but must not be longer than the block it is in. -/
theorem responds_answer_iff {f : Frame} {rest : List UInt8} (hmemory : p.memory = f.encode ++ rest)
    (h : IsRequestFor ip p.memory) (reads : List (ℕ × ℕ))
    (hreads : (∀ read ∈ reads, read.1 + read.2 ≤ p.len.toNat) ↔ arpingMaxPktSize ≤ p.len.toNat) :
    Responds ip mac p
        { response := some (f.reply mac).encode, respLen := some p.len, reads := reads } ↔
      p.len.toNat = arpingMaxPktSize := by
  constructor
  · intro hresponds
    exact Nat.le_antisymm (hresponds.bounded rfl _ rfl) (hreads.1 hresponds.inBounds)
  · intro hlen
    have hle : arpingMaxPktSize ≤ p.len.toNat := Nat.le_of_eq hlen.symm
    constructor
    · exact hreads.2 hle
    · constructor
      · intro _
        exact ⟨hle, h⟩
      · intro _
        rfl
    · intro resp hresp
      rw [← Option.some.inj hresp, hmemory]
      exact f.answers_reply rest mac
    · intro _ n hn
      rw [← Option.some.inj hn]
      exact Nat.le_of_eq hlen

/-- The handler responds as it should exactly to the packets of 42 bytes, to the longer ones
that are no request for it, and to the shorter ones that end behind the opcode and are
neither a request nor a reply. -/
theorem arp_responds_iff (ip : UInt32) (mac : Mac) (p : Packet) (respLen : UInt16) :
    Responds ip mac p (arpReqHandler (some ip) mac (some p.memory) p.len (some respLen)) ↔
      p.len = 0 ∨ p.len.toNat = arpingMaxPktSize ∨
        (arpingMaxPktSize < p.len.toNat ∧ ¬ IsRequestFor ip p.memory) ∨
        (22 ≤ p.len.toNat ∧ p.len.toNat < arpingMaxPktSize ∧ ¬ IsArpMessage p.memory) := by
  obtain ⟨f, rest, hmemory⟩ := Frame.exists_encode p.room
  have hmessage : IsArpMessage p.memory ↔ f.IsArp := by
    rw [hmemory, Frame.isArpMessage_encode]
  have hrequest : IsRequestFor ip p.memory ↔
      f.protocol = protocolArp ∧ f.opcode = 1 ∧ f.dstIp = ip := by
    rw [hmemory, Frame.isRequestFor_encode]
  by_cases hlen : p.len = 0
  · have hhandler : arpReqHandler (some ip) mac (some p.memory) p.len (some respLen) =
        { response := none, respLen := some 0, reads := [] } := by
      simp [arpReqHandler, hlen]
    have hshort : ¬ (arpingMaxPktSize ≤ p.len.toNat ∧ IsRequestFor ip p.memory) := by
      simp [hlen]
    rw [hhandler, responds_silent_iff hshort]
    simp [hlen]
  · by_cases harp : f.IsArp
    · have hmsg : IsArpMessage p.memory := hmessage.2 harp
      by_cases hip : f.dstIp = ip
      · obtain ⟨hprotocol, hopcode | hopcode⟩ := harp
        · have hreq := hrequest.2 ⟨hprotocol, hopcode, hip⟩
          have hhandler :=
            arpReqHandler_of_request f rest ip mac (some respLen) hlen hprotocol hopcode hip
          rw [hmemory, hhandler, ← hmemory, Option.map_some, responds_answer_iff hmemory hreq]
          · simp [hlen, hreq, hmsg, arpingMaxPktSize]
          · simp [arpingMaxPktSize]
            omega
        · have hreq : ¬ IsRequestFor ip p.memory := by
            rw [hrequest, hopcode]
            simp
          have hhandler :=
            arpReqHandler_of_reply f rest ip mac (some respLen) hlen hprotocol hopcode hip
          rw [hmemory, hhandler, ← hmemory, responds_silent_iff fun h => hreq h.2]
          simp [hlen, hreq, hmsg, arpingMaxPktSize]
          omega
      · have hreq : ¬ IsRequestFor ip p.memory := by
          rw [hrequest]
          exact fun h => hip h.2.2
        have hhandler := arpReqHandler_of_ne f rest ip mac (some respLen) hlen harp hip
        rw [hmemory, hhandler, ← hmemory, responds_silent_iff fun h => hreq h.2]
        simp [hlen, hreq, hmsg, arpingMaxPktSize]
        omega
    · have hmsg : ¬ IsArpMessage p.memory := fun h => harp (hmessage.1 h)
      have hreq : ¬ IsRequestFor ip p.memory := by
        rw [hrequest]
        exact fun h => harp ⟨h.1, Or.inl h.2.1⟩
      have hhandler := arpReqHandler_of_not_isArp f rest ip mac (some respLen) hlen harp
      rw [hmemory, hhandler, ← hmemory, responds_silent_iff fun h => hreq h.2]
      simp [hlen, hreq, hmsg, arpingMaxPktSize]
      omega

/-- 192.168.1.206 asks for 192.168.1.233. -/
def exampleRequest : Frame where
  dstMac := ⟨[0xff, 0xff, 0xff, 0xff, 0xff, 0xff], rfl⟩
  srcMac := ⟨[0xa0, 0x88, 0xb4, 0xe5, 0xd5, 0x38], rfl⟩
  protocol := protocolArp
  hardware := hardwareBytes
  opcode := 1
  srcRepeatMac := ⟨[0xa0, 0x88, 0xb4, 0xe5, 0xd5, 0x38], rfl⟩
  srcIp := 0xc0a801ce
  dstRepeatMac := ⟨[0, 0, 0, 0, 0, 0], rfl⟩
  dstIp := 0xc0a801e9

/-- The request, padded to the least length of an Ethernet frame. -/
def paddedRequest : Packet where
  len := 60
  memory := exampleRequest.encode ++ List.replicate 18 0
  covers := by decide
  room := by decide

def exampleMac : Mac := ⟨[0x3c, 0x71, 0xbf, 0x9a, 0xbc, 0xb8], rfl⟩

/-- The response to the padded request is said to be 60 bytes long. -/
theorem padded_request_overstated :
    ¬ Responds 0xc0a801e9 exampleMac paddedRequest
        (arpReqHandler (some 0xc0a801e9) exampleMac (some paddedRequest.memory)
          paddedRequest.len (some 0)) := by
  have hlen : paddedRequest.len ≠ 0 := by decide
  have hhandler : arpReqHandler (some 0xc0a801e9) exampleMac (some paddedRequest.memory)
      paddedRequest.len (some 0) = _ :=
    arpReqHandler_of_request exampleRequest (List.replicate 18 0) 0xc0a801e9 exampleMac (some 0)
      hlen rfl rfl rfl
  rw [hhandler]
  intro h
  have hbounded : (60 : UInt16).toNat ≤ arpingMaxPktSize := h.bounded rfl 60 rfl
  exact absurd hbounded (by decide)

end Responds

end App

end EspHosted
