import EspHosted.Control.CommandLedger
import EspHosted.Control.TlvRoundTrip
import EspHosted.Driver.SpiFrame
import EspHosted.Protobuf.Requests

/-!
# A command as a remote call

The request of a command goes through `esp_hosted_config_payload__pack`, `compose_tlv`,
`send_to_slave` and `get_tx_buffer`, and a slave that has the same code reads it from the
frame. The answer comes back the same way. Only OTA data can be too long for a frame.
-/

namespace EspHosted

open EspHosted.Bytes EspHosted.Control

namespace Protobuf

open Spi (SpiBuffer getTxBuffer receiveBranch WBuffer)

/-! ## The size of a request -/

theorem int32Size_msgType (c : Command) : int32Size (msgType c).toInt32 = 1 := by
  cases c <;> rfl

theorem length_msg (c : Command) :
    (requiredFieldPack (Msg.pack espTable 2) (scalarField 1 .enum 0)
      (.word (msgType c))).length = 2 := by
  rw [length_requiredFieldPack (Msg.length_pack espTable 2), requiredFieldGetPackedSize,
    scalarField, payloadSize, int32Size_msgType]
  rfl

theorem length_payload (c : PayloadCase) (payload : Msg Descriptor 2) :
    (requiredFieldPack (Msg.pack espTable 2) (payloadField c)
      (.message (some payload))).length =
      getTagSize (payloadNumber c) +
        (uint32Size (UInt32.ofNat (Msg.getPackedSize espTable 2 payload)) +
          Msg.getPackedSize espTable 2 payload) :=
  length_requiredFieldPack (Msg.length_pack espTable 2) _ _

section Size

variable {call : Call} {m : Msg Descriptor 3}

/-- A request without OTA data takes 203 bytes at most. -/
theorem Call.length_pack_le (h : call.request = some m)
    (hcommand : call.command ≠ .espOtaWrite) : (Msg.pack espTable 3 m).length ≤ 203 := by
  cases Call.sends h with
  | bare oneofCase =>
      rw [pack_requestOf_none, length_msg]
      decide
  | full c hpayload hsize =>
      have htag := getTagSize_le (payloadNumber c)
      have hsize := hsize hcommand
      have hvarint := uint32Size_le (UInt32.ofNat (Msg.getPackedSize espTable 2 ‹_›))
      rw [pack_requestOf_some, List.length_append, length_msg, length_payload]
      simp only [maxReqPayload] at hsize
      omega

theorem Call.two_le_length_pack (h : call.request = some m) :
    2 ≤ (Msg.pack espTable 3 m).length := by
  cases Call.sends h with
  | bare oneofCase =>
      rw [pack_requestOf_none, length_msg]
  | full c hpayload hsize =>
      rw [pack_requestOf_some, List.length_append, length_msg]
      omega

/-- What OTA data of `n` bytes takes with its tag and its length. -/
def otaPayloadSize (n : ℕ) : ℕ := 1 + (uint32Size (UInt32.ofNat n) + n)

theorem length_pack_espOtaWrite {data : List UInt8}
    (h : espOtaWriteRequest (some data) = some m) :
    (Msg.pack espTable 3 m).length =
      4 + (uint32Size (UInt32.ofNat (otaPayloadSize data.length)) +
        otaPayloadSize data.length) := by
  have hpayload : Msg.getPackedSize espTable 2 (reqPayload .cmdOTAWrite [bytesMember data]) =
      otaPayloadSize data.length := rfl
  rw [espOtaWriteRequest] at h
  split_ifs at h
  cases h
  change (Msg.pack espTable 3 (requestOf (msgType .espOtaWrite) (payloadNumber .cmdOtaWrite)
    (some (reqPayload .cmdOTAWrite [bytesMember data])))).length = _
  have htag : getTagSize (payloadNumber .cmdOtaWrite) = 2 := rfl
  rw [pack_requestOf_some, List.length_append, length_msg, length_payload, hpayload, htag]
  omega

theorem uint32Size_ofNat {n : ℕ} (h : n < 2 ^ 32) :
    (n < 2 ^ 14 → uint32Size (UInt32.ofNat n) ≤ 2) ∧
      (2 ^ 7 ≤ n → 2 ≤ uint32Size (UInt32.ofNat n)) := by
  have hn : (UInt32.ofNat n).toNat = n := UInt32.toNat_ofNat_of_lt h
  rw [uint32Size, hn]
  split_ifs <;> omega

/-- A TLV message of the request fits a frame, OTA data up to 1566 bytes included. -/
theorem Call.fits_iff (h : call.request = some m)
    (hsize : (Msg.pack espTable 3 m).length < 2 ^ 32) :
    tlvHeaderLength + (Msg.pack espTable 3 m).length ≤ maxPayloadSize ↔
      ∀ data, call = .espOtaWrite (some data) → data.length ≤ 1566 := by
  have hheader : tlvHeaderLength = 13 := rfl
  have hmax : maxPayloadSize = 1588 := rfl
  have hota : ∀ data, call = .espOtaWrite (some data) →
      (tlvHeaderLength + (Msg.pack espTable 3 m).length ≤ maxPayloadSize ↔
        data.length ≤ 1566) := by
    rintro data rfl
    have hlength := length_pack_espOtaWrite h
    rw [otaPayloadSize] at hlength
    have hdata := uint32Size_ofNat (n := data.length) (by omega)
    have hpayload := uint32Size_ofNat
      (n := 1 + (uint32Size (UInt32.ofNat data.length) + data.length)) (by omega)
    omega
  by_cases hcommand : call.command = .espOtaWrite
  · cases call with
    | espOtaWrite otaData =>
        cases otaData with
        | none => cases h
        | some data =>
            rw [hota data rfl]
            constructor
            · rintro hle data' heq
              cases heq
              exact hle
            · intro hle
              exact hle data rfl
    | _ => cases hcommand
  · have hle := Call.length_pack_le h hcommand
    refine iff_of_true (by omega) ?_
    rintro data rfl
    exact absurd rfl hcommand

end Size

/-! ## The way to the slave -/

/-- `tx_data` and `tx_len` of a request. -/
def txData (m : Msg Descriptor 3) (h : espHostedConfigPayloadGetPackedSize m < 2 ^ 32) :
    TxData (UInt32.ofNat (espHostedConfigPayloadGetPackedSize m)) :=
  ⟨espHostedConfigPayloadPack m,
    (Msg.length_pack espTable 3 m).trans (UInt32.toNat_ofNat_of_lt h).symm⟩

/-- What `parse_tlv` and `esp_hosted_config_payload__unpack` make of a message. -/
def readControl (data : List UInt8) : Option (Msg Descriptor 3) :=
  (parseTlv (data.take tlvHeaderLength)).proLen.bind fun valLen =>
    Msg.unpack espTable 3 .configPayload ((data.drop tlvHeaderLength).take valLen.toNat)

/-- The handle goes out in a frame that brings the whole request. -/
def Delivers (h : InterfaceBufferHandle) (m : Msg Descriptor 3) : Prop :=
  ∃ fr : SpiBuffer, (getTxBuffer (some h)).sendbuf = some fr.1 ∧
    ∃ h', receiveBranch fr = some h' ∧ h'.data = tlvOf (espHostedConfigPayloadPack m) ∧
      readControl h'.data = some (transmitted m)

theorem length_tlvOf (v : List UInt8) : (tlvOf v).length = tlvHeaderLength + v.length := by
  rw [tlvOf, composeTlv_eq, Block.calloc_store_zero, List.length_take, List.length_append,
    List.length_replicate]
  omega

/-- A frame has no room for more. -/
theorem Delivers.length_le {h : InterfaceBufferHandle} {m : Msg Descriptor 3}
    (hm : Delivers h m) : tlvHeaderLength + (Msg.pack espTable 3 m).length ≤ maxPayloadSize := by
  obtain ⟨fr, -, h', hreceive, hdata, -⟩ := hm
  have hlength := congrArg List.length hdata
  rw [length_tlvOf, InterfaceBufferHandle.length_data] at hlength
  have hle := (Spi.frame_of_receiveBranch hreceive).1.2
  exact hlength.symm.trans_le hle

/-- A message that `compose_tlv` made is read back. -/
theorem readControl_tlvOf {v : List UInt8} (hv : v.length < 65536) :
    readControl (tlvOf v) = Msg.unpack espTable 3 .configPayload v := by
  have hlen : (UInt16.ofNat v.length).toNat = v.length := by
    rw [UInt16.toNat_ofNat']
    omega
  have hparse : (parseTlv ((tlvOf v).take tlvHeaderLength)).proLen =
      some (UInt16.ofNat v.length) := by
    rw [parseTlv_take_eq_some_iff (by rw [length_tlvOf]; omega), tlvOf_eq hv]
    exact List.take_left' (length_tlvHeader _)
  have hdrop : (tlvOf v).drop tlvHeaderLength = v := by
    rw [tlvOf_eq hv]
    exact List.drop_left' (length_tlvHeader _)
  rw [readControl, hparse, Option.bind_some, hlen, hdrop, List.take_length]

section Queue

variable {env : TransportEnv} {serialHdl : SerialHandle}

/-- A request that fits is put on the queue whole, under the numbers of the interface. -/
theorem sendRequest_queued {txLen : UInt32} (request : TxData txLen)
    (hfits : tlvHeaderLength + txLen.toNat ≤ maxPayloadSize)
    (hserial : env.serialIfG = some serialHdl) (hstate : serialHdl.state = .ACTIVE)
    (hqueue : env.queueSend = true) :
    ∃ q, (sendRequest env request).queued = some q ∧ Spi.Sendable q ∧
      q.ifType = serialHdl.ifType ∧ q.ifNum = serialHdl.ifNum ∧ q.data = tlvOf request.1 := by
  have hheader : tlvHeaderLength = 13 := rfl
  have hmax : maxPayloadSize = 1588 := rfl
  have hbufLen : (bufLenOf (UInt16.ofNat txLen.toNat)).toNat = tlvHeaderLength + txLen.toNat := by
    rw [toNat_bufLenOf, UInt16.toNat_ofNat']
    omega
  have hwlen : (UInt16.ofNat (bufLenOf (UInt16.ofNat txLen.toNat)).toNat).toNat =
      tlvHeaderLength + txLen.toNat := by
    rw [UInt16.ofNat_toNat, hbufLen]
  obtain ⟨writeBuf, hsent⟩ := sendRequest_toExchange env request
  have hqueued : (sendRequest env request).queued =
      some (Spi.txHandle serialHdl.ifType serialHdl.ifNum writeBuf) := by
    have hacc : Accepted (UInt16.ofNat (bufLenOf (UInt16.ofNat txLen.toNat)).toNat)
        env.queueSend := ⟨by omega, by omega, hqueue⟩
    have hcount : (bufLenOf (UInt16.ofNat txLen.toNat)).toNat ≠ 0 := by omega
    rw [hsent]
    simp only [exchange, hcount, if_false, hserial,
      espHostedDriverWrite_of_accepted hstate hcount writeBuf hacc]
    split <;> rfl
  refine ⟨_, hqueued, ⟨?_, ?_⟩, rfl, rfl, ?_⟩
  · exact hwlen.ge.trans' (by omega)
  · exact hwlen.le.trans hfits
  · rcases ((request_not_truncated_iff env request).2 (by omega)).outcome with
      ⟨-, hnone⟩ | ⟨q, hq, hdata⟩
    · rw [hqueued] at hnone
      cases hnone
    · rw [hqueued] at hq
      cases hq
      rw [hdata, tlvOf_eq (by rw [request.2]; omega), request.2]

variable {call : Call} {m : Msg Descriptor 3}

/-- What the queue gets of a request that fits a frame is delivered. -/
theorem delivers_of_fits (h : call.request = some m)
    (hsize : espHostedConfigPayloadGetPackedSize m < 2 ^ 32)
    (hfits : tlvHeaderLength + (Msg.pack espTable 3 m).length ≤ maxPayloadSize)
    (hserial : env.serialIfG = some serialHdl) (hstate : serialHdl.state = .ACTIVE)
    (hqueue : env.queueSend = true) (htype : serialHdl.ifType.toNat < 16)
    (hnum : serialHdl.ifNum.toNat < 16) :
    ∃ q, (sendRequest env (txData m hsize)).queued = some q ∧ Delivers q m := by
  have hmax : maxPayloadSize = 1588 := rfl
  have hpacked : MAX_PACKED = 268435424 := rfl
  have htxLen : (UInt32.ofNat (espHostedConfigPayloadGetPackedSize m)).toNat =
      (Msg.pack espTable 3 m).length :=
    (UInt32.toNat_ofNat_of_lt hsize).trans (Msg.length_pack espTable 3 m).symm
  obtain ⟨q, hqueued, hsendable, hqtype, hqnum, hdata⟩ :=
    sendRequest_queued (txData m hsize) (htxLen ▸ hfits) hserial hstate hqueue
  obtain ⟨h', hreceive, -, -, -, hsame⟩ :=
    hsendable.receiveBranch_frame (hqtype ▸ htype) (hqnum ▸ hnum)
  have htlv : h'.data = tlvOf (espHostedConfigPayloadPack m) := hsame.trans hdata
  refine ⟨q, hqueued, ⟨Spi.frame q, hsendable.length_frame⟩, ?_, h', hreceive, htlv, ?_⟩
  · rw [hsendable.getTxBuffer_eq]
  · rw [htlv, readControl_tlvOf (by rw [espHostedConfigPayloadPack]; omega)]
    exact Call.unpack_pack h (by omega)

end Queue

/-- Through an active interface and a queue with room, a request gets to the slave exactly
when it is not OTA data of more than 1566 bytes: the frame brings all of it, and the slave
unpacks what the command has filled in, less a case without a message. -/
theorem request_delivered_iff {call : Call} {m : Msg Descriptor 3} (h : call.request = some m)
    (hsize : espHostedConfigPayloadGetPackedSize m < 2 ^ 32) {env : TransportEnv}
    {serialHdl : SerialHandle} (hserial : env.serialIfG = some serialHdl)
    (hstate : serialHdl.state = .ACTIVE) (hqueue : env.queueSend = true)
    (htype : serialHdl.ifType.toNat < 16) (hnum : serialHdl.ifNum.toNat < 16) :
    (∃ q, (sendRequest env (txData m hsize)).queued = some q ∧ Delivers q m) ↔
      ∀ data, call = .espOtaWrite (some data) → data.length ≤ 1566 := by
  have hlength : (Msg.pack espTable 3 m).length < 2 ^ 32 :=
    (Msg.length_pack espTable 3 m).trans_lt hsize
  rw [← Call.fits_iff h hlength]
  constructor
  · rintro ⟨q, -, hm⟩
    exact hm.length_le
  · intro hfits
    exact delivers_of_fits h hsize hfits hserial hstate hqueue htype hnum

/-- A call of `wifi_set_mode(WIFI_MODE_APSTA)`, and the memory it needs. -/
theorem request_delivered_iff_set_mode :
    ∃ m, (Call.wifiSetMode 3).request = some m ∧ ∃ hsize,
      ∃ q, (sendRequest silentEnv (txData m hsize)).queued = some q ∧ Delivers q m :=
  ⟨_, rfl, by decide, (request_delivered_iff (rfl : (Call.wifiSetMode 3).request = some _) _
    rfl rfl rfl (by decide) (by decide)).2 fun _ heq => by cases heq⟩

/-! ## The way back -/

section Back

variable {env : TransportEnv} {serialHdl : SerialHandle}

/-- The answer that waits is what the exchange returns. -/
theorem sendRequest_returns {txLen : UInt32} (request : TxData txLen)
    (hfits : tlvHeaderLength + txLen.toNat ≤ maxPayloadSize)
    (hserial : env.serialIfG = some serialHdl) (hstate : serialHdl.state = .ACTIVE)
    (hqueue : env.queueSend = true) {d : Reply} (hread : env.read.Hands d.message) :
    (sendRequest env request).readBuf = some d.1 ∧
      (sendRequest env request).proLen.getD 0 ≠ 0 := by
  have hheader : tlvHeaderLength = 13 := rfl
  have hmax : maxPayloadSize = 1588 := rfl
  have hbufLen : (bufLenOf (UInt16.ofNat txLen.toNat)).toNat = tlvHeaderLength + txLen.toNat := by
    rw [toNat_bufLenOf, UInt16.toNat_ofNat']
    omega
  have hwlen : (UInt16.ofNat (bufLenOf (UInt16.ofNat txLen.toNat)).toNat).toNat =
      tlvHeaderLength + txLen.toNat := by
    rw [UInt16.ofNat_toNat, hbufLen]
  obtain ⟨hbuf, hlen, -⟩ := d.returns hread (by decide : timeoutPserialResp ≠ 0)
  obtain ⟨writeBuf, hsent⟩ := sendRequest_toExchange env request
  obtain ⟨q, hexchange⟩ := exchange_of_accepted writeBuf tlvHeaderLength timeoutPserialResp
    ⟨serialHdl, hserial, hstate⟩ (by omega) ⟨by omega, by omega, hqueue⟩
  rw [hexchange] at hsent
  refine ⟨(congrArg Exchange.readBuf hsent).trans hbuf, ?_⟩
  have hproLen := congrArg Exchange.proLen hsent
  simp only [hbuf, Option.bind_some] at hproLen
  rw [hproLen]
  obtain ⟨l, hl, hld⟩ := Option.map_eq_some_iff.1 hlen
  rw [hl, Option.getD_some]
  rintro rfl
  have hpos := d.2.1
  rw [← hld] at hpos
  exact absurd hpos (by decide)

theorem run_of_answer (c : Command) {txLen : UInt32} (hne : txLen ≠ 0) (request : TxData txLen)
    (hfits : tlvHeaderLength + txLen.toNat ≤ maxPayloadSize)
    (hserial : env.serialIfG = some serialHdl) (hstate : serialHdl.state = .ACTIVE)
    (hqueue : env.queueSend = true) {d : Reply} (hread : env.read.Hands d.message)
    (confused : Confused) :
    (c.run env request espHostedConfigPayloadUnpack confused).queued =
        (sendRequest env request).queued ∧
      (c.run env request espHostedConfigPayloadUnpack confused).response =
        (espHostedConfigPayloadUnpack d.1).map fun resp => (c.handle resp confused).1 := by
  obtain ⟨hbuf, hlen⟩ := sendRequest_returns request hfits hserial hstate hqueue hread
  simp only [Command.run, hne, if_false, hbuf, hlen]
  cases espHostedConfigPayloadUnpack d.1 with
  | none => exact ⟨rfl, rfl⟩
  | some resp => exact ⟨rfl, rfl⟩

end Back

/-- A command does not confuse its own response with another. -/
theorem handle_of_own (c : Command) (hasMsg : Bool) (msg : Int32)
    (contents : Contents c.respCase.structType) (confused confused' : Confused) :
    c.handle ⟨hasMsg, msg, some ⟨c.respCase, contents⟩⟩ confused =
      ((c.handle ⟨hasMsg, msg, some ⟨c.respCase, contents⟩⟩ confused').1, false) := by
  cases c <;> rfl

/-- A slave: what it answers a request with, a message that it can pack and send. -/
structure Slave where
  answer : Msg Descriptor 3 → Msg Descriptor 3
  valid : ∀ m, Msg.Valid (fun s => 0 ∉ s) (fun tag => tag ≠ 0) espTable 3 .configPayload (answer m)
  size : ∀ m, 1 ≤ (Msg.pack espTable 3 (answer m)).length ∧
    tlvHeaderLength + (Msg.pack espTable 3 (answer m)).length ≤ maxPayloadSize

/-- The packed answer. -/
def Slave.reply (slave : Slave) (m : Msg Descriptor 3) : Reply :=
  ⟨Msg.pack espTable 3 (slave.answer m), slave.size m⟩

theorem Slave.unpack_reply (slave : Slave) (m : Msg Descriptor 3) :
    espHostedConfigPayloadUnpack (slave.reply m).1 = some (configPayloadOf (slave.answer m)) := by
  have hmax : maxPayloadSize = 1588 := rfl
  have hpacked : MAX_PACKED = 268435424 := rfl
  have hsize := (slave.size m).2
  change (Msg.unpack espTable 3 .configPayload (Msg.pack espTable 3 (slave.answer m))).map
    configPayloadOf = _
  rw [Msg.unpack_pack espTable_wellFormed (slave.valid m) (by omega), Option.map_some]

/-- A command is a call of the slave. Its frame brings the slave the request, and when the
answer to that request waits, the command makes its result of this answer; of its own
response without reading it as anything else. -/
theorem remote_call (slave : Slave) {call : Call} {m : Msg Descriptor 3}
    (h : call.request = some m)
    (hota : ∀ data, call = .espOtaWrite (some data) → data.length ≤ 1566)
    (hsize : espHostedConfigPayloadGetPackedSize m < 2 ^ 32) {env : TransportEnv}
    {serialHdl : SerialHandle} (hserial : env.serialIfG = some serialHdl)
    (hstate : serialHdl.state = .ACTIVE) (hqueue : env.queueSend = true)
    (htype : serialHdl.ifType.toNat < 16) (hnum : serialHdl.ifNum.toNat < 16)
    (hread : env.read.Hands (slave.reply (transmitted m)).message) (confused : Confused) :
    (∃ q, (call.command.run env (txData m hsize) espHostedConfigPayloadUnpack confused).queued =
        some q ∧ Delivers q m) ∧
    (call.command.run env (txData m hsize) espHostedConfigPayloadUnpack confused).response =
      some (call.command.handle (configPayloadOf (slave.answer (transmitted m))) confused).1 ∧
    ∀ payload, oneofAt (slave.answer (transmitted m)).body 1 =
        (payloadNumber call.command.respCase, some payload) →
      ∀ confused', (call.command.handle (configPayloadOf (slave.answer (transmitted m)))
        confused) = ((call.command.handle (configPayloadOf (slave.answer (transmitted m)))
          confused').1, false) := by
  have hlength : (Msg.pack espTable 3 m).length = espHostedConfigPayloadGetPackedSize m :=
    Msg.length_pack espTable 3 m
  have hfits := (Call.fits_iff h (hlength.trans_lt hsize)).2 hota
  have htxLen : (UInt32.ofNat (espHostedConfigPayloadGetPackedSize m)).toNat =
      (Msg.pack espTable 3 m).length :=
    (UInt32.toNat_ofNat_of_lt hsize).trans hlength.symm
  have hne : UInt32.ofNat (espHostedConfigPayloadGetPackedSize m) ≠ 0 := by
    intro hzero
    have hpos := Call.two_le_length_pack h
    rw [← htxLen, hzero] at hpos
    exact absurd hpos (by decide)
  obtain ⟨hqueued, hresponse⟩ := run_of_answer call.command hne (txData m hsize)
    (htxLen ▸ hfits) hserial hstate hqueue hread confused
  refine ⟨?_, ?_, ?_⟩
  · rw [hqueued]
    exact delivers_of_fits h hsize hfits hserial hstate hqueue htype hnum
  · rw [hresponse, slave.unpack_reply, Option.map_some]
  · intro payload hpayload confused'
    rw [configPayloadOf, payloadOf_of_set hpayload]
    exact handle_of_own call.command _ _ _ confused confused'

/-- A slave that confirms every mode. -/
def confirming : Slave where
  answer _ := requestOf 5 (payloadNumber .respSetWifiMode)
    (some (reqPayload .respSetMode [intMember 0]))
  valid _ := valid_requestOf 5
    (isPayload_reqPayload (.cons (isMember_int 1 0 0) .nil))
  size _ := by decide

/-- The interface is active, and the answer of the slave waits. -/
def confirmedEnv : TransportEnv where
  serialIfG := some { ifType := 2, ifNum := 0, state := .ACTIVE, queue := [] }
  queueSend := true
  read := envWith (confirming.reply (reqOf .wifiGetMode)).message

/-- `wifi_set_mode(WIFI_MODE_APSTA)` reaches the slave and returns `SUCCESS`. -/
theorem remote_call_set_mode :
    ∃ m, (Call.wifiSetMode 3).request = some m ∧ ∃ hsize,
      (∃ q, (Command.wifiSetMode.run confirmedEnv (txData m hsize) espHostedConfigPayloadUnpack
        clearedMemory).queued = some q ∧ Delivers q m) ∧
      ((Command.wifiSetMode.run confirmedEnv (txData m hsize) espHostedConfigPayloadUnpack
        clearedMemory).response.map fun r => r.ret.isSuccess) = some true := by
  refine ⟨_, rfl, by decide, ?_⟩
  have hread : confirmedEnv.read.Hands
      (confirming.reply (transmitted (reqOf .wifiGetMode))).message :=
    envWith_hands (by decide)
  obtain ⟨hdelivers, hresponse, -⟩ := remote_call confirming
    (rfl : (Call.wifiSetMode 3).request = some _) (fun _ heq => by cases heq) (by decide) rfl rfl
    rfl (by decide) (by decide) hread clearedMemory
  refine ⟨hdelivers, (congrArg (Option.map fun r => r.ret.isSuccess) hresponse).trans ?_⟩
  decide +kernel

end Protobuf

end EspHosted
