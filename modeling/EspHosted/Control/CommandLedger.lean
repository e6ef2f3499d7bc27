import EspHosted.Control.ResponseType
import EspHosted.Control.ReadSound
import EspHosted.Control.Transport

/-!
# The heap blocks of a command

Every command has the same frame around its request and its response, so there is
one log of what it allocates and releases. The buffer of the request is handed to
the SPI driver, which releases it when `get_tx_buffer` has copied it, and once more
on the way back through the label `err`.
-/

namespace EspHosted

open EspHosted.Bytes EspHosted.Ledger

namespace Control

open Spi (WBuffer)

/-- The commands that allocate a struct for the payload of the request. -/
def Command.hasReqPayload : Command → Bool
  | wifiGetMac | wifiSetMac | wifiSetMode | wifiSetApConfig | wifiSetSoftapConfig
  | wifiSetPowerSaveMode | espOtaWrite => true
  | wifiGetMode | wifiGetApConfig | wifiDisconnectAp | wifiGetSoftapConfig
  | wifiStopSoftap | wifiApScanList | wifiConnectedStationsList | wifiGetPowerSaveMode
  | espOtaBegin | espOtaEnd => false

/-- The result of a command, and its log. -/
structure CommandResult where
  response : Option Response
  queued : Option InterfaceBufferHandle
  log : List (HeapEvent Buffer)

/-- A command behind the test of its arguments: `request` is the packed request,
`unpack` is `esp_hosted_config_payload__unpack`. The labels `err1`, `err2` and `err3`
and the way out after a success release the same blocks; the log has the order of
the labels. -/
def Command.run (c : Command) (env : TransportEnv) {txLen : UInt32}
    (request : TxData txLen) (unpack : List UInt8 → Option EspHostedConfigPayload)
    (confused : Confused) : CommandResult :=
  let allocated : List (HeapEvent Buffer) :=
    if c.hasReqPayload then [.alloc .reqPayload] else []
  let err3 : List (HeapEvent Buffer) := if c.hasReqPayload then [.free .reqPayload] else []
  let err2 := .free .txData :: err3
  let err1 := .free .rxData :: err2
  if txLen = 0 then
    { response := none, queued := none, log := allocated ++ err3 }
  else
    let sent := sendRequest env request
    let log := allocated ++ [.alloc .txData] ++ sent.log
    match sent.readBuf with
    | none => { response := none, queued := sent.queued, log := log ++ err2 }
    | some rxData =>
        if sent.proLen.getD 0 = 0 then
          { response := none, queued := sent.queued, log := log ++ err2 }
        else
          match unpack rxData with
          | none => { response := none, queued := sent.queued, log := log ++ err1 }
          | some resp =>
              { response := some (c.handle resp confused).1, queued := sent.queued
                log := log ++ [.alloc .resp] ++ err1 ++ [.free .resp] }

/-- `get_tx_buffer` releases the buffer of the handle it takes from the queue. -/
def getTxBufferLog (queued : Option InterfaceBufferHandle) : List (HeapEvent Buffer) :=
  if (Spi.getTxBuffer queued).freeBufHandle then [.free .writeBuf] else []

/-- Whatever the order of the command and the SPI driver, their common log is
settled. -/
def CommandResult.Balanced (r : CommandResult) : Prop :=
  ∀ log, log.Perm (r.log ++ getTxBufferLog r.queued) → Settled log

/-- The bytes `parse_tlv` sees of a message. -/
def headerOf (m : List UInt8) : List UInt8 :=
  (headerCopy m tlvHeaderLength).1.bytes ++ (headerCopy m tlvHeaderLength).2

/-- A message waits whose header declares `valLen` bytes. -/
def ReadEnv.Answers (env : ReadEnv) (valLen : UInt16) : Prop :=
  ∃ m, env.Hands m ∧ (parseTlv (headerOf m.1)).proLen = some valLen

section Read

variable {env : ReadEnv}

theorem serialRead_log {serialHdl : SerialHandle} {m : Message}
    (h : (serialRead serialHdl).payload = some m) :
    (serialRead serialHdl).log = [.alloc .message] := by
  unfold serialRead at h ⊢
  split at h
  · split at h
    · cases h
    · simp
  · cases h

theorem mem_serialRead_log {serialHdl : SerialHandle} {e : HeapEvent Buffer}
    (h : e ∈ (serialRead serialHdl).log) : e = .alloc .message := by
  unfold serialRead at h
  split at h
  · split at h
    · cases h
    · exact List.mem_singleton.1 h
  · cases h

/-- An answer with a header leaves the caller the read buffer only. -/
theorem espHostedDriverRead_of_answers {valLen : UInt16} (h : env.Answers valLen)
    {wait : UInt8} (hwait : wait ≠ 0) :
    ∃ v, (espHostedDriverRead env tlvHeaderLength wait).buf = some v ∧
    (espHostedDriverRead env tlvHeaderLength wait).bufLen = some valLen ∧
    (espHostedDriverRead env tlvHeaderLength wait).log =
      [.alloc .message, .alloc .header, .free .header, .alloc .rxData, .free .message] := by
  obtain ⟨m, henv, hparse⟩ := h
  obtain ⟨serialHdl, hserial, hread⟩ := henv.serialRead
  have hcall : ¬ (tlvHeaderLength = 0 ∨ wait = 0) := by
    intro h
    exact h.elim (by decide) hwait
  have hlog := serialRead_log hread
  rw [headerOf] at hparse
  simp [espHostedDriverRead, hcall, henv.readSemaphore, henv.osSemaphoreWait, hserial, hread,
    hparse, hlog]

/-- Without such an answer nothing is returned, and only the blocks of the message are
taken and released. -/
theorem espHostedDriverRead_of_not_answers (h : ∀ valLen, ¬ env.Answers valLen)
    (wait : UInt8) :
    (espHostedDriverRead env tlvHeaderLength wait).buf = none ∧
    ∀ e ∈ (espHostedDriverRead env tlvHeaderLength wait).log,
      e ∈ [.alloc .message, .alloc .header, .free .header, .free .message] := by
  by_cases hcall : tlvHeaderLength = 0 ∨ wait = 0
  · simp [espHostedDriverRead, hcall]
  by_cases hsem : env.readSemaphore = false
  · simp [espHostedDriverRead, hcall, hsem]
  by_cases hwait : env.osSemaphoreWait = false
  · simp [espHostedDriverRead, hcall, hsem, hwait]
  cases hserial : env.serialIfG with
  | none => simp [espHostedDriverRead, hcall, hsem, hwait, hserial]
  | some serialHdl =>
      cases hread : (serialRead serialHdl).payload with
      | none =>
          simp only [espHostedDriverRead, hcall, hsem, hwait, hserial, hread, if_false,
            Bool.true_eq_false, true_and]
          intro e he
          rw [mem_serialRead_log he]
          exact List.mem_cons_self
      | some m =>
          have hands : env.Hands m :=
            ⟨Bool.eq_true_of_not_eq_false hsem, Bool.eq_true_of_not_eq_false hwait,
              serialHdl, hserial, hread⟩
          have hlog := serialRead_log hread
          cases hparse : (parseTlv (headerOf m.1)).proLen with
          | none =>
              rw [headerOf] at hparse
              simp [espHostedDriverRead, hcall, hsem, hwait, hserial, hread, hparse, hlog]
          | some valLen => exact absurd ⟨m, hands, hparse⟩ (h valLen)

end Read

section Exchange

variable {env : TransportEnv} {count : ℕ} (writeBuf : WBuffer (UInt16.ofNat count))
  (readLen : ℕ) (wait : UInt8)

/-- A request that is not written is released by the caller alone. -/
theorem exchange_of_not_written (h : count = 0 ∨ ¬ Active env.serialIfG) :
    exchange env count writeBuf readLen wait =
      { readBuf := none, proLen := none, queued := none
        log := [.alloc .writeBuf, .alloc .driverHandle, .free .writeBuf,
          .free .driverHandle] } := by
  by_cases hcount : count = 0
  · simp [exchange, hcount]
  · have hactive := h.resolve_left hcount
    simp [exchange, hcount, espHostedDriverWrite_of_not_active hactive writeBuf]

/-- A request that `send_to_slave` refuses is released there and by the caller. -/
theorem exchange_of_not_accepted (hactive : Active env.serialIfG) (hcount : count ≠ 0)
    (hacc : ¬ Accepted (UInt16.ofNat count) env.queueSend) :
    exchange env count writeBuf readLen wait =
      { readBuf := none, proLen := none, queued := none
        log := [.alloc .writeBuf, .alloc .driverHandle, .free .writeBuf, .free .writeBuf,
          .free .driverHandle] } := by
  simp [exchange, hcount, espHostedDriverWrite_of_not_accepted hactive hcount writeBuf hacc]

theorem exchange_of_accepted (hactive : Active env.serialIfG) (hcount : count ≠ 0)
    (hacc : Accepted (UInt16.ofNat count) env.queueSend) :
    ∃ h, exchange env count writeBuf readLen wait =
      { readBuf := (espHostedDriverRead env.read readLen wait).buf
        proLen :=
          (espHostedDriverRead env.read readLen wait).buf.bind fun _ =>
            (espHostedDriverRead env.read readLen wait).bufLen
        queued := some h
        log :=
          [.alloc .writeBuf, .alloc .driverHandle, .handOver .writeBuf] ++
            (espHostedDriverRead env.read readLen wait).log ++
            if (espHostedDriverRead env.read readLen wait).buf.isSome then
              [.free .driverHandle]
            else
              [.free .writeBuf, .free .driverHandle] } := by
  obtain ⟨serialHdl, hserial, hstate⟩ := hactive
  refine ⟨Spi.txHandle serialHdl.ifType serialHdl.ifNum writeBuf, ?_⟩
  simp only [exchange, hcount, if_false, hserial,
    espHostedDriverWrite_of_accepted hstate hcount writeBuf hacc]
  cases hbuf : (espHostedDriverRead env.read readLen wait).buf with
  | none => simp
  | some v => simp

end Exchange

theorem answers_unique {env : ReadEnv} {l l' : UInt16} (h : env.Answers l)
    (h' : env.Answers l') : l = l' := by
  obtain ⟨m, henv, hparse⟩ := h
  obtain ⟨m', henv', hparse'⟩ := h'
  obtain ⟨serialHdl, hserial, hread⟩ := henv.serialRead
  obtain ⟨serialHdl', hserial', hread'⟩ := henv'.serialRead
  rw [hserial] at hserial'
  cases hserial'
  rw [hread] at hread'
  cases hread'
  rw [hparse] at hparse'
  exact Option.some.inj hparse'

theorem balanced_iff (r : CommandResult) :
    r.Balanced ↔ Settled (r.log ++ getTxBufferLog r.queued) := by
  constructor
  · intro h
    exact h _ (List.Perm.refl _)
  · intro h log hperm
    exact (settled_of_perm hperm).2 h

@[simp] theorem getTxBufferLog_none : getTxBufferLog none = [] := rfl

@[simp] theorem getTxBufferLog_some (h : InterfaceBufferHandle) :
    getTxBufferLog (some h) = [.free .writeBuf] := by
  by_cases hlen : UInt16.ofNat h.payloadLen = 0
  · simp [getTxBufferLog, Spi.getTxBuffer, hlen]
  · simp [getTxBufferLog, Spi.getTxBuffer, hlen]

/-- The request is empty, or is not written at all, or is taken by the SPI driver and
answered in time by a message with some data. -/
def Orderly (env : TransportEnv) (txLen : UInt32) : Prop :=
  txLen = 0 ∨ bufLenOf (UInt16.ofNat txLen.toNat) = 0 ∨ ¬ Active env.serialIfG ∨
    (Accepted (bufLenOf (UInt16.ofNat txLen.toNat)) env.queueSend ∧
      ∃ valLen, valLen ≠ 0 ∧ env.read.Answers valLen)

/-- The exchange of a command; its first read is as long as the TLV header. -/
theorem sendRequest_toExchange (env : TransportEnv) {txLen : UInt32}
    (request : TxData txLen) :
    ∃ writeBuf, (sendRequest env request).toExchange =
      exchange env (bufLenOf (UInt16.ofNat txLen.toNat)).toNat writeBuf tlvHeaderLength
        timeoutPserialResp := by
  have hread : (bufLenOf (UInt16.ofNat txLen.toNat) - UInt16.ofNat txLen.toNat).toNat =
      tlvHeaderLength := by
    rw [bufLenOf, UInt16.add_sub_cancel]
    rfl
  rw [← hread]
  exact ⟨_, rfl⟩

section Balanced

variable (c : Command) {env : TransportEnv} {txLen : UInt32} (request : TxData txLen)
  (unpack : List UInt8 → Option EspHostedConfigPayload) (confused : Confused)

theorem balanced_of_empty (hempty : txLen = 0) :
    (c.run env request unpack confused).Balanced := by
  rw [balanced_iff]
  simp only [Command.run, hempty, if_true]
  cases c.hasReqPayload <;> decide

variable (hne : txLen ≠ 0)

include hne

/-- A request that is not written stays with the command. -/
theorem balanced_of_not_written
    (h : (bufLenOf (UInt16.ofNat txLen.toNat)).toNat = 0 ∨ ¬ Active env.serialIfG) :
    (c.run env request unpack confused).Balanced := by
  obtain ⟨writeBuf, hsent⟩ := sendRequest_toExchange env request
  rw [exchange_of_not_written _ _ _ h] at hsent
  rw [balanced_iff]
  simp only [Command.run, hne, if_false, hsent]
  cases c.hasReqPayload <;> decide

variable (hcount : (bufLenOf (UInt16.ofNat txLen.toNat)).toNat ≠ 0)
  (hactive : Active env.serialIfG)

include hcount hactive

/-- A refused request is released by `send_to_slave` and by `err`. -/
theorem not_balanced_of_refused
    (hrefused : ¬ Accepted (bufLenOf (UInt16.ofNat txLen.toNat)) env.queueSend) :
    ¬ (c.run env request unpack confused).Balanced := by
  obtain ⟨writeBuf, hsent⟩ := sendRequest_toExchange env request
  rw [← UInt16.ofNat_toNat (x := bufLenOf _)] at hrefused
  rw [exchange_of_not_accepted _ _ _ hactive hcount hrefused] at hsent
  rw [balanced_iff]
  refine not_settled_of_count_ne .writeBuf ?_
  simp only [Command.run, hne, if_false, hsent]
  cases c.hasReqPayload <;> decide

variable (hacc : Accepted (bufLenOf (UInt16.ofNat txLen.toNat)) env.queueSend)

include hacc

/-- A request without an answer is released by the SPI driver and by `err`. -/
theorem not_balanced_of_unanswered (hnone : ∀ valLen, ¬ env.read.Answers valLen) :
    ¬ (c.run env request unpack confused).Balanced := by
  obtain ⟨writeBuf, hsent⟩ := sendRequest_toExchange env request
  rw [← UInt16.ofNat_toNat (x := bufLenOf _)] at hacc
  obtain ⟨h, hexchange⟩ := exchange_of_accepted writeBuf tlvHeaderLength
    timeoutPserialResp hactive hcount hacc
  obtain ⟨hbuf, hlog⟩ := espHostedDriverRead_of_not_answers hnone timeoutPserialResp
  have hother : ∀ e : HeapEvent Buffer, e ∉ [.alloc .message, .alloc .header, .free .header,
      .free .message] → (espHostedDriverRead env.read tlvHeaderLength
        timeoutPserialResp).log.count e = 0 := by
    intro e he
    exact List.count_eq_zero.2 fun hmem => he (hlog e hmem)
  rw [hexchange, hbuf] at hsent
  rw [balanced_iff]
  refine not_settled_of_count_ne .writeBuf ?_
  simp only [Command.run, hne, if_false, hsent, List.count_append]
  rw [hother (.free .writeBuf) (by decide), hother (.alloc .writeBuf) (by decide)]
  cases c.hasReqPayload <;> simp

/-- After an answer only an empty read buffer is left over. -/
theorem balanced_iff_of_answers {valLen : UInt16} (hanswer : env.read.Answers valLen) :
    (c.run env request unpack confused).Balanced ↔ valLen ≠ 0 := by
  obtain ⟨writeBuf, hsent⟩ := sendRequest_toExchange env request
  rw [← UInt16.ofNat_toNat (x := bufLenOf _)] at hacc
  obtain ⟨h, hexchange⟩ := exchange_of_accepted writeBuf tlvHeaderLength
    timeoutPserialResp hactive hcount hacc
  obtain ⟨v, hbuf, hbufLen, hlog⟩ :=
    espHostedDriverRead_of_answers hanswer (by decide : timeoutPserialResp ≠ 0)
  rw [hexchange, hbuf, hbufLen, hlog] at hsent
  rw [balanced_iff]
  by_cases hzero : valLen = 0
  · refine iff_of_false ?_ (not_not.2 hzero)
    refine not_settled_of_count_ne .rxData ?_
    subst hzero
    simp only [Command.run, hne, if_false, hsent]
    cases c.hasReqPayload <;> simp
  · refine iff_of_true ?_ hzero
    simp only [Command.run, hne, if_false, hsent]
    cases unpack v <;> cases c.hasReqPayload <;> simp [hzero] <;> decide

end Balanced

/-- Every block of a command is released exactly once, by the command or by the SPI
driver, exactly when the command is orderly. -/
theorem command_balanced_iff (c : Command) (env : TransportEnv) {txLen : UInt32}
    (request : TxData txLen) (unpack : List UInt8 → Option EspHostedConfigPayload)
    (confused : Confused) :
    (c.run env request unpack confused).Balanced ↔ Orderly env txLen := by
  by_cases hempty : txLen = 0
  · exact iff_of_true (balanced_of_empty c request unpack confused hempty) (Or.inl hempty)
  by_cases hcount : (bufLenOf (UInt16.ofNat txLen.toNat)).toNat = 0
  · exact iff_of_true
      (balanced_of_not_written c request unpack confused hempty (Or.inl hcount))
      (Or.inr (Or.inl (UInt16.toNat_inj.1 hcount)))
  by_cases hactive : Active env.serialIfG
  swap
  · exact iff_of_true
      (balanced_of_not_written c request unpack confused hempty (Or.inr hactive))
      (Or.inr (Or.inr (Or.inl hactive)))
  have horderly : Orderly env txLen ↔
      Accepted (bufLenOf (UInt16.ofNat txLen.toNat)) env.queueSend ∧
        ∃ valLen, valLen ≠ 0 ∧ env.read.Answers valLen := by
    constructor
    · intro h
      rcases h with h | h | h | h
      · exact absurd h hempty
      · exact absurd (congrArg UInt16.toNat h) hcount
      · exact absurd hactive h
      · exact h
    · intro h
      exact Or.inr (Or.inr (Or.inr h))
  rw [horderly]
  by_cases hacc : Accepted (bufLenOf (UInt16.ofNat txLen.toNat)) env.queueSend
  · by_cases hanswer : ∃ valLen, env.read.Answers valLen
    · obtain ⟨valLen, hvalLen⟩ := hanswer
      rw [balanced_iff_of_answers c request unpack confused hempty hcount hactive hacc hvalLen]
      constructor
      · intro hne
        exact ⟨hacc, valLen, hne, hvalLen⟩
      · intro h
        obtain ⟨-, valLen', hne, hvalLen'⟩ := h
        exact answers_unique hvalLen' hvalLen ▸ hne
    · rw [not_exists] at hanswer
      refine iff_of_false ?_ ?_
      · exact not_balanced_of_unanswered c request unpack confused hempty hcount hactive hacc
          hanswer
      · intro h
        obtain ⟨-, valLen, -, hvalLen⟩ := h
        exact hanswer valLen hvalLen
  · exact iff_of_false
      (not_balanced_of_refused c request unpack confused hempty hcount hactive hacc)
      (fun h => hacc h.1)

/-- A packed request without a payload. -/
def bareRequest : TxData 2 := ⟨[8, 2], rfl⟩

/-- The request goes out and is not answered in time: its buffer is released
twice. -/
theorem unanswered_request_freed_twice :
    ¬ (Command.wifiGetMode.run silentEnv bareRequest (fun _ => none)
      clearedMemory).Balanced := by
  intro h
  have hsettled := (balanced_iff _).1 h
  revert hsettled
  decide

end Control

end EspHosted
