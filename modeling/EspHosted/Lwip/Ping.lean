import EspHosted.Common.ByteOrder
import EspHosted.Lib.Sample

/-!
# The statistics of a ping

`ping_thread` sends requests and `ping_recv` waits for their answers. A request that was
sent counts as answered or as lost; an answer to an earlier request turns a loss into an
answer. At the end the sum of the times is divided by the number of requests that were
asked for, and the losses by the number of those that were sent.

All counters are words and wrap around.
-/

namespace EspHosted

namespace Lwip

namespace Ping

open EspHosted.Bytes
open Common (htonShort)
open Sample

/-- `PING_ID` -/
def pingId : UInt16 := 0xAFAF

/-- `sizeof(struct ip_hdr) + sizeof(struct icmp_echo_hdr)` -/
def sizeofHeaders : ℕ := 28

/-- `ping_info_t`; nothing of the statistics depends on `size`. -/
structure PingInfo where
  pingTime : UInt32
  pingMinTime : UInt32
  pingMaxTime : UInt32
  pingAvgTime : UInt32
  pingLostNum : UInt32
  pingRecvNum : UInt32
  count : UInt32
  pingSeqNum : UInt16

/-- `ping_result_t` -/
structure PingResult where
  minTime : UInt32
  maxTime : UInt32
  avgTime : UInt32
  totalNum : UInt32
  lostNum : UInt32
  recvNum : UInt32

/-- A packet that `lwip_recvfrom` returns: the buffer, the length, and the time it is then.
A raw socket returns no empty packet; the loop of `ping_recv` would end at one. -/
structure Packet where
  buf : List UInt8
  len : ℕ
  len_pos : 0 < len
  now : UInt32

/-- One turn of the loop of `ping_thread`: whether the request is sent, the time it is then,
the packets that arrive before the receive timeout, and `g_ping_exit` at the end. -/
structure Round where
  sent : Bool
  now : UInt32
  packets : List Packet
  pingExit : Bool

/-- `IPH_HL(iphdr) * 4` -/
def headerLength (p : Packet) : ℕ := (p.buf.getD 0 0 &&& 0x0f).toNat * 4

/-- `iecho->id` -/
def echoId (p : Packet) : UInt16 := load16 p.buf (headerLength p + 4)

/-- `iecho->seqno` -/
def echoSeqno (p : Packet) : UInt16 := load16 p.buf (headerLength p + 6)

/-- The answer to the request with number `seq` -/
def isReply (seq : UInt16) (p : Packet) : Bool :=
  sizeofHeaders ≤ p.len && echoId p = pingId && echoSeqno p = htonShort seq

/-- An answer to another request -/
def isLate (seq : UInt16) (p : Packet) : Bool :=
  sizeofHeaders ≤ p.len && echoId p = pingId && echoSeqno p ≠ htonShort seq

/-- The counters after a reply that took `curTime`. -/
def countReply (info : PingInfo) (curTime : UInt32) : PingInfo :=
  { info with
    pingMinTime :=
      if info.pingMinTime = 0 ∨ info.pingMinTime > curTime then curTime else info.pingMinTime
    pingMaxTime :=
      if info.pingMaxTime = 0 ∨ info.pingMaxTime < curTime then curTime else info.pingMaxTime
    pingAvgTime := info.pingAvgTime + curTime
    pingRecvNum := info.pingRecvNum + 1 }

/-- `ping_recv`, with the packets up to the timeout -/
def pingRecv (info : PingInfo) : List Packet → PingInfo
  | [] => { info with pingLostNum := info.pingLostNum + 1 }
  | p :: packets =>
      if sizeofHeaders ≤ p.len then
        let curTime := p.now - info.pingTime
        if echoId p = pingId ∧ echoSeqno p = htonShort info.pingSeqNum then
          countReply info curTime
        else if echoId p = pingId then
          pingRecv
            { info with
              pingRecvNum := info.pingRecvNum + 1
              pingLostNum := info.pingLostNum - 1 }
            packets
        else
          pingRecv info packets
      else
        pingRecv info packets

/-- The variables of `ping_thread` -/
structure State where
  residualCount : UInt32
  sendCount : UInt32
  info : PingInfo

/-- `ping_send`: a request takes the next number, also when it is not sent. -/
def pingSend (info : PingInfo) : PingInfo := { info with pingSeqNum := info.pingSeqNum + 1 }

/-- One turn of the loop of `ping_thread` -/
def pingTurn (s : State) (r : Round) : State :=
  let info := pingSend s.info
  let s :=
    if r.sent then
      { s with
        sendCount := s.sendCount + 1
        info := pingRecv { info with pingTime := r.now } r.packets }
    else
      { s with info := info }
  { s with residualCount := if s.info.count ≠ 0 then s.residualCount - 1 else 1 }

/-- The loop of `ping_thread`; `none` if it does not end with the last of the turns. -/
def pingLoop (s : State) : List Round → Option State
  | [] => none
  | r :: rounds =>
      let s := pingTurn s r
      if s.residualCount > 0 ∧ r.pingExit = false then pingLoop s rounds
      else if rounds.isEmpty then some s
      else none

/-- The variables before the loop -/
def pingStart (count : UInt32) : State where
  residualCount := count
  sendCount := 0
  info :=
    { pingTime := 0, pingMinTime := 0, pingMaxTime := 0, pingAvgTime := 0, pingLostNum := 0,
      pingRecvNum := 0, count := count, pingSeqNum := 0 }

/-- What `ping_thread` has at its end: the result, the percentage, and what it divided by. -/
structure Finished where
  result : PingResult
  loss : UInt32
  divisors : List UInt32

/-- `ping_thread` behind its loop -/
def pingFinish (s : State) : Finished :=
  let avgTime := s.info.pingAvgTime / s.info.count
  let result : PingResult :=
    { minTime := s.info.pingMinTime
      maxTime := s.info.pingMaxTime
      avgTime := avgTime
      totalNum := s.sendCount
      lostNum := s.info.pingLostNum
      recvNum := s.info.pingRecvNum }
  { result := result
    loss := result.lostNum * 100 / result.totalNum
    divisors := [s.info.count, result.totalNum] }

/-- `ping_thread`; without its socket or its packet it ends with no result. -/
def pingThread (count : UInt32) (socket malloc : Bool) (rounds : List Round) :
    Option (Option Finished) :=
  if socket && malloc then (pingLoop (pingStart count) rounds).map fun s => some (pingFinish s)
  else some none

/-! ## What was sent and received -/

/-- The requests that were sent, with their numbers. -/
def requests (rounds : List Round) : List (Round × ℕ) :=
  (rounds.zipIdx 1).filter fun r => r.1.sent

def sentCount (rounds : List Round) : ℕ := (requests rounds).length

/-- The late answers that a request receives before its own. -/
def lates (seq : UInt16) (packets : List Packet) : ℕ :=
  (packets.takeWhile fun p => !isReply seq p).countP (isLate seq)

def lateCount (rounds : List Round) : ℕ :=
  ((requests rounds).map fun r => lates (UInt16.ofNat r.2) r.1.packets).sum

/-- The time that the answer to a request took. -/
def replyTime (r : Round × ℕ) : Option ℕ :=
  (r.1.packets.find? (isReply (UInt16.ofNat r.2))).map fun p => (p.now - r.1.now).toNat

def times (rounds : List Round) : List ℕ := (requests rounds).filterMap replyTime

/-- The answers and losses add up, nothing is divided by zero, and the average is between the
least and the greatest time. -/
structure Consistent (r : Finished) (rounds : List Round) : Prop where
  total : r.result.recvNum.toNat + r.result.lostNum.toNat = sentCount rounds
  divisors : ∀ d ∈ r.divisors, d ≠ 0
  ordered : times rounds ≠ [] →
    r.result.minTime ≤ r.result.avgTime ∧ r.result.avgTime ≤ r.result.maxTime

/-- The number of requests was given, and one was sent; there are no more answers than
requests; and of the times since the last answer that took none, if there are any, one is not
above the sum of all times divided by the number that was given. -/
structure Countable (count : UInt32) (rounds : List Round) : Prop where
  given : count ≠ 0
  sent : 0 < sentCount rounds
  answers : ((times rounds).length + lateCount rounds) % 2 ^ 32 ≤ sentCount rounds
  average : sinceZero (times rounds) = [] ∨
    ∃ t ∈ sinceZero (times rounds), t * count.toNat ≤ (times rounds).sum % 2 ^ 32

section Recv

variable {seq : UInt16} {p : Packet} {packets : List Packet}

/-- The counters after `n` late answers. -/
def countLates (n : ℕ) (info : PingInfo) : PingInfo :=
  { info with
    pingRecvNum := info.pingRecvNum + UInt32.ofNat n
    pingLostNum := info.pingLostNum - UInt32.ofNat n }

theorem countLates_zero (info : PingInfo) : countLates 0 info = info := by
  simp [countLates]

theorem countLates_succ (n : ℕ) (info : PingInfo) :
    countLates n
        { info with
          pingRecvNum := info.pingRecvNum + 1
          pingLostNum := info.pingLostNum - 1 } =
      countLates (n + 1) info := by
  have hrecv : info.pingRecvNum + 1 + UInt32.ofNat n =
      info.pingRecvNum + UInt32.ofNat (n + 1) := by
    rw [UInt32.ofNat_add]
    grind
  have hlost : info.pingLostNum - 1 - UInt32.ofNat n =
      info.pingLostNum - UInt32.ofNat (n + 1) := by
    rw [UInt32.ofNat_add]
    grind
  rw [countLates, countLates, hrecv, hlost]

theorem lates_of_isLate (hp : isLate seq p = true) :
    lates seq (p :: packets) = lates seq packets + 1 := by
  have hreply : isReply seq p = false := by
    simp only [isLate, Bool.and_eq_true, decide_eq_true_eq] at hp
    simp [isReply, hp.2]
  rw [lates, List.takeWhile_cons_of_pos (by rw [hreply]; rfl), List.countP_cons_of_pos hp]
  rfl

theorem lates_of_ignored (hreply : isReply seq p = false) (hp : isLate seq p = false) :
    lates seq (p :: packets) = lates seq packets := by
  rw [lates, List.takeWhile_cons_of_pos (by rw [hreply]; rfl),
    List.countP_cons_of_neg (by rw [hp]; exact Bool.false_ne_true)]
  rfl

theorem lates_of_isReply (hreply : isReply seq p = true) : lates seq (p :: packets) = 0 := by
  rw [lates, List.takeWhile_cons_of_neg (by rw [hreply]; exact Bool.false_ne_true)]
  rfl

theorem pingRecv_of_isReply {info : PingInfo} (hreply : isReply info.pingSeqNum p = true) :
    pingRecv info (p :: packets) = countReply info (p.now - info.pingTime) := by
  simp only [isReply, Bool.and_eq_true, decide_eq_true_eq] at hreply
  simp only [pingRecv, hreply, if_true, and_self]

theorem pingRecv_of_isLate {info : PingInfo} (hlate : isLate info.pingSeqNum p = true) :
    pingRecv info (p :: packets) =
      pingRecv
        { info with
          pingRecvNum := info.pingRecvNum + 1
          pingLostNum := info.pingLostNum - 1 }
        packets := by
  simp only [isLate, Bool.and_eq_true, decide_eq_true_eq] at hlate
  simp only [pingRecv, hlate, if_true, and_false, if_false]

theorem pingRecv_of_ignored {info : PingInfo} (hreply : isReply info.pingSeqNum p = false)
    (hlate : isLate info.pingSeqNum p = false) :
    pingRecv info (p :: packets) = pingRecv info packets := by
  rw [pingRecv]
  by_cases hlen : sizeofHeaders ≤ p.len
  · by_cases hid : echoId p = pingId
    · by_cases hseq : echoSeqno p = htonShort info.pingSeqNum
      · simp [isReply, hlen, hid, hseq] at hreply
      · simp [isLate, hlen, hid, hseq] at hlate
    · simp only [hlen, hid, if_true, if_false, false_and]
  · rw [if_neg hlen]

/-- `ping_recv` counts the late answers, and then the answer or a loss. -/
theorem pingRecv_eq (info : PingInfo) (packets : List Packet) :
    pingRecv info packets =
      match packets.find? (isReply info.pingSeqNum) with
      | some p =>
          countReply (countLates (lates info.pingSeqNum packets) info) (p.now - info.pingTime)
      | none =>
          let info := countLates (lates info.pingSeqNum packets) info
          { info with pingLostNum := info.pingLostNum + 1 } := by
  induction packets generalizing info with
  | nil =>
      rw [show lates info.pingSeqNum [] = 0 from rfl, countLates_zero]
      rfl
  | cons p packets ih =>
      cases hreply : isReply info.pingSeqNum p with
      | true =>
          rw [pingRecv_of_isReply hreply, List.find?_cons_of_pos hreply, lates_of_isReply hreply,
            countLates_zero]
      | false =>
          rw [List.find?_cons_of_neg (by rw [hreply]; exact Bool.false_ne_true)]
          cases hlate : isLate info.pingSeqNum p with
          | true =>
              rw [pingRecv_of_isLate hlate, ih, lates_of_isLate hlate, ← countLates_succ]
          | false => rw [pingRecv_of_ignored hreply hlate, ih, lates_of_ignored hreply hlate]

end Recv

section Turn

variable {rounds : List Round} {r : Round} {s : State}

theorem requests_concat_sent (h : r.sent = true) (rounds : List Round) :
    requests (rounds ++ [r]) = requests rounds ++ [(r, rounds.length + 1)] := by
  rw [requests, List.zipIdx_append, List.filter_append, Nat.add_comm]
  simp [requests, h]

theorem requests_concat_unsent (h : r.sent = false) (rounds : List Round) :
    requests (rounds ++ [r]) = requests rounds := by
  rw [requests, List.zipIdx_append, List.filter_append]
  simp [requests, h]

section Sent

variable (rounds : List Round) (hr : r.sent = true)

include hr

theorem sentCount_concat_sent : sentCount (rounds ++ [r]) = sentCount rounds + 1 := by
  rw [sentCount, requests_concat_sent hr, List.length_append]
  rfl

theorem lateCount_concat_sent :
    lateCount (rounds ++ [r]) =
      lateCount rounds + lates (UInt16.ofNat (rounds.length + 1)) r.packets := by
  rw [lateCount, requests_concat_sent hr, List.map_append, List.sum_append, lateCount]
  rfl

theorem times_concat_sent :
    times (rounds ++ [r]) = times rounds ++ (replyTime (r, rounds.length + 1)).toList := by
  rw [times, requests_concat_sent hr, List.filterMap_append, times, List.filterMap_cons,
    List.filterMap_nil]
  cases replyTime (r, rounds.length + 1) <;> rfl

theorem info_pingTurn_of_sent (s : State) :
    (pingTurn s r).info = pingRecv { pingSend s.info with pingTime := r.now } r.packets := by
  rw [pingTurn, hr]
  rfl

end Sent

/-- The counters after the turns of the loop -/
structure Counted (count : UInt32) (rounds : List Round) (s : State) : Prop where
  count : s.info.count = count
  seqNum : s.info.pingSeqNum = UInt16.ofNat rounds.length
  sendCount : s.sendCount = UInt32.ofNat (sentCount rounds)
  recvNum : s.info.pingRecvNum = UInt32.ofNat ((times rounds).length + lateCount rounds)
  total : s.info.pingRecvNum + s.info.pingLostNum = s.sendCount
  minTime : s.info.pingMinTime.toNat = least (times rounds)
  maxTime : s.info.pingMaxTime.toNat = greatest (times rounds)
  avgTime : s.info.pingAvgTime = UInt32.ofNat (times rounds).sum

theorem toNat_recordLeast (t curTime : UInt32) :
    (if t = 0 ∨ t > curTime then curTime else t).toNat = recordLeast t.toNat curTime.toNat := by
  rw [recordLeast, apply_ite UInt32.toNat]
  simp only [← UInt32.toNat_inj, gt_iff_lt, UInt32.lt_iff_toNat_lt, UInt32.toNat_zero]

theorem toNat_recordGreatest (t curTime : UInt32) :
    (if t = 0 ∨ t < curTime then curTime else t).toNat =
      recordGreatest t.toNat curTime.toNat := by
  rw [recordGreatest, apply_ite UInt32.toNat]
  simp only [← UInt32.toNat_inj, UInt32.lt_iff_toNat_lt, UInt32.toNat_zero]

namespace Counted

variable {count : UInt32}

theorem start (count : UInt32) : Counted count [] (pingStart count) :=
  ⟨rfl, rfl, rfl, rfl, rfl, rfl, rfl, rfl⟩

/-- A request that is not sent takes a number. -/
theorem unsent (h : Counted count rounds s) (hr : r.sent = false) :
    Counted count (rounds ++ [r]) (pingTurn s r) := by
  have hrequests := requests_concat_unsent hr rounds
  have hsent : sentCount (rounds ++ [r]) = sentCount rounds := by
    rw [sentCount, hrequests, sentCount]
  have hlate : lateCount (rounds ++ [r]) = lateCount rounds := by
    rw [lateCount, hrequests, lateCount]
  have htimes : times (rounds ++ [r]) = times rounds := by
    rw [times, hrequests, times]
  have hturn : (pingTurn s r).info = pingSend s.info ∧ (pingTurn s r).sendCount = s.sendCount := by
    rw [pingTurn, hr]
    exact ⟨rfl, rfl⟩
  constructor
  · rw [hturn.1]
    exact h.count
  · rw [hturn.1, List.length_append, UInt16.ofNat_add, ← h.seqNum]
    rfl
  · rw [hturn.2, hsent]
    exact h.sendCount
  · rw [hturn.1, htimes, hlate]
    exact h.recvNum
  · rw [hturn.1, hturn.2]
    exact h.total
  · rw [hturn.1, htimes]
    exact h.minTime
  · rw [hturn.1, htimes]
    exact h.maxTime
  · rw [hturn.1, htimes]
    exact h.avgTime

/-- A request that is sent is answered or lost. -/
theorem sent (h : Counted count rounds s) (hr : r.sent = true) :
    Counted count (rounds ++ [r]) (pingTurn s r) := by
  have hsent := sentCount_concat_sent rounds hr
  have hlate := lateCount_concat_sent rounds hr
  have htimes := times_concat_sent rounds hr
  have hturn := info_pingTurn_of_sent hr s
  have hseq : (pingSend s.info).pingSeqNum = UInt16.ofNat (rounds.length + 1) := by
    rw [UInt16.ofNat_add, ← h.seqNum]
    rfl
  have hcount : (pingTurn s r).sendCount = UInt32.ofNat (sentCount (rounds ++ [r])) := by
    rw [hsent, UInt32.ofNat_add, ← h.sendCount, pingTurn, hr]
    rfl
  have hlength : UInt16.ofNat (rounds ++ [r]).length = UInt16.ofNat (rounds.length + 1) := by
    rw [List.length_append]
    rfl
  have hold := h.total
  rw [pingRecv_eq, hseq] at hturn
  rw [replyTime] at htimes
  cases hfind : r.packets.find? (isReply (UInt16.ofNat (rounds.length + 1))) with
  | none =>
      rw [hfind] at hturn htimes
      rw [Option.map_none, Option.toList_none, List.append_nil] at htimes
      constructor
      · rw [hturn]
        exact h.count
      · rw [hturn, hlength, ← hseq]
        rfl
      · exact hcount
      · rw [hturn, htimes, hlate, ← Nat.add_assoc, UInt32.ofNat_add, ← h.recvNum]
        rfl
      · rw [hturn, hcount, hsent, UInt32.ofNat_add, ← h.sendCount]
        simp only [countLates, pingSend]
        grind
      · rw [hturn, htimes, ← h.minTime]
        rfl
      · rw [hturn, htimes, ← h.maxTime]
        rfl
      · rw [hturn, htimes, ← h.avgTime]
        rfl
  | some p =>
      rw [hfind] at hturn htimes
      rw [Option.map_some, Option.toList_some] at htimes
      constructor
      · rw [hturn]
        exact h.count
      · rw [hturn, hlength, ← hseq]
        rfl
      · exact hcount
      · have hrecv := h.recvNum
        rw [UInt32.ofNat_add] at hrecv
        rw [hturn, htimes, hlate, List.length_append, UInt32.ofNat_add, UInt32.ofNat_add,
          UInt32.ofNat_add]
        simp only [countReply, countLates, pingSend, List.length_singleton, hrecv]
        grind
      · rw [hturn, hcount, hsent, UInt32.ofNat_add, ← h.sendCount]
        simp only [countReply, countLates, pingSend]
        grind
      · rw [hturn, htimes, least_concat, ← h.minTime]
        exact toNat_recordLeast _ _
      · rw [hturn, htimes, greatest_concat, ← h.maxTime]
        exact toNat_recordGreatest _ _
      · rw [hturn, htimes, List.sum_append, List.sum_singleton, UInt32.ofNat_add, ← h.avgTime,
          UInt32.ofNat_toNat]
        rfl

theorem turn (h : Counted count rounds s) (r : Round) :
    Counted count (rounds ++ [r]) (pingTurn s r) := by
  cases hr : r.sent with
  | true => exact h.sent hr
  | false => exact h.unsent hr

/-- The turns of the loop are counted. -/
theorem run (count : UInt32) (rounds : List Round) :
    Counted count rounds (rounds.foldl pingTurn (pingStart count)) := by
  induction rounds using List.reverseRecOn with
  | nil => exact start count
  | append_singleton rounds r ih =>
      rw [List.foldl_append]
      exact ih.turn r

end Counted

section Loop

variable {t : State}

theorem pingLoop_eq (h : pingLoop s rounds = some t) : t = rounds.foldl pingTurn s := by
  induction rounds generalizing s with
  | nil => cases h
  | cons r rounds ih =>
      rw [pingLoop] at h
      split at h
      · exact ih h
      · split at h
        · rename_i hempty
          cases h
          rw [List.isEmpty_iff.1 hempty]
          rfl
        · cases h

theorem count_pingTurn (s : State) (r : Round) : (pingTurn s r).info.count = s.info.count := by
  cases hr : r.sent with
  | true =>
      rw [info_pingTurn_of_sent hr, pingRecv_eq]
      split
      · rfl
      · rfl
  | false =>
      rw [pingTurn, hr]
      rfl

/-- The loop takes no more turns than the number that was given. -/
theorem length_le_of_pingLoop (h : pingLoop s rounds = some t) (hcount : s.info.count ≠ 0)
    (hresidual : 0 < s.residualCount.toNat) : rounds.length ≤ s.residualCount.toNat := by
  induction rounds generalizing s with
  | nil => exact Nat.zero_le _
  | cons r rounds ih =>
      have hresidual' : (pingTurn s r).residualCount.toNat = s.residualCount.toNat - 1 := by
        have hturn : (pingTurn s r).residualCount =
            if (pingTurn s r).info.count ≠ 0 then s.residualCount - 1 else 1 := by
          rw [pingTurn]
          cases r.sent with
          | true => rfl
          | false => rfl
        have hone : (1 : UInt32) ≤ s.residualCount := UInt32.le_iff_toNat_le.2 hresidual
        rw [hturn, count_pingTurn, if_pos hcount, UInt32.toNat_sub_of_le _ _ hone]
        rfl
      rw [List.length_cons]
      rw [pingLoop] at h
      split at h
      · rename_i hgoes
        have hpos : 0 < (pingTurn s r).residualCount.toNat := UInt32.lt_iff_toNat_lt.1 hgoes.1
        have hle := ih h (by rw [count_pingTurn]; exact hcount) hpos
        omega
      · split at h
        · rename_i hempty
          rw [List.isEmpty_iff.1 hempty]
          exact hresidual
        · cases h

end Loop

end Turn

section Statistics

variable {count : UInt32} {socket malloc : Bool} {rounds : List Round} {r : Finished}

theorem sentCount_le (rounds : List Round) : sentCount rounds ≤ rounds.length := by
  refine Nat.le_trans (List.length_filter_le _ _) ?_
  rw [List.length_zipIdx]

theorem length_times_le (rounds : List Round) : (times rounds).length ≤ sentCount rounds :=
  List.length_filterMap_le _ _

theorem toNat_pos (h : count ≠ 0) : 0 < count.toNat := by
  refine Nat.pos_of_ne_zero fun hzero => h ?_
  rw [← UInt32.toNat_inj, hzero]
  rfl

/-- The average is not above the greatest time. -/
theorem avgTime_le_maxTime {s : State} (h : Counted count rounds s)
    (hlen : rounds.length ≤ count.toNat) :
    (pingFinish s).result.avgTime ≤ (pingFinish s).result.maxTime := by
  have htimes : (times rounds).length ≤ count.toNat :=
    Nat.le_trans (length_times_le rounds) (Nat.le_trans (sentCount_le rounds) hlen)
  rw [UInt32.le_iff_toNat_le]
  change (s.info.pingAvgTime / s.info.count).toNat ≤ s.info.pingMaxTime.toNat
  rw [UInt32.toNat_div, h.count, h.avgTime, h.maxTime, UInt32.toNat_ofNat']
  calc
    (times rounds).sum % 2 ^ 32 / count.toNat ≤ (times rounds).sum / count.toNat :=
      Nat.div_le_div_right (Nat.mod_le _ _)
    _ ≤ greatest (times rounds) := sum_div_le_greatest htimes

/-- It is not below the least time when one of the times since the last `0` is small enough. -/
theorem minTime_le_avgTime_iff {s : State} (h : Counted count rounds s) (hcount : count ≠ 0) :
    (pingFinish s).result.minTime ≤ (pingFinish s).result.avgTime ↔
      sinceZero (times rounds) = [] ∨
        ∃ t ∈ sinceZero (times rounds), t * count.toNat ≤ (times rounds).sum % 2 ^ 32 := by
  rw [UInt32.le_iff_toNat_le]
  change s.info.pingMinTime.toNat ≤ (s.info.pingAvgTime / s.info.count).toNat ↔ _
  rw [UInt32.toNat_div, h.count, h.avgTime, h.minTime, UInt32.toNat_ofNat',
    Nat.le_div_iff_mul_le (toNat_pos hcount), least_mul_le_iff]

/-- As long as fewer than `2 ^ 32` requests are sent, the answers and losses add up when the
answers are not too many. -/
theorem total_iff {s : State} (h : Counted count rounds s) (hsent : sentCount rounds < 2 ^ 32) :
    s.info.pingRecvNum.toNat + s.info.pingLostNum.toNat = sentCount rounds ↔
      ((times rounds).length + lateCount rounds) % 2 ^ 32 ≤ sentCount rounds := by
  have htotal := congrArg UInt32.toNat h.total
  have hrecv := congrArg UInt32.toNat h.recvNum
  rw [h.sendCount, UInt32.toNat_add, UInt32.toNat_ofNat', Nat.mod_eq_of_lt hsent] at htotal
  rw [UInt32.toNat_ofNat'] at hrecv
  have hrecv_lt := s.info.pingRecvNum.toNat_lt
  have hlost_lt := s.info.pingLostNum.toNat_lt
  rw [← hrecv]
  omega

/-- The statistics at the end of `ping_thread` are consistent exactly when the requests and
answers are countable. -/
theorem ping_statistics_iff (h : pingThread count socket malloc rounds = some (some r)) :
    Consistent r rounds ↔ Countable count rounds := by
  have hloop : ∃ s, pingLoop (pingStart count) rounds = some s ∧ pingFinish s = r := by
    rw [pingThread] at h
    split at h
    · obtain ⟨s, hs, hr⟩ := Option.map_eq_some_iff.1 h
      exact ⟨s, hs, Option.some.inj hr⟩
    · cases h
  obtain ⟨s, hloop, rfl⟩ := hloop
  have hcounted : Counted count rounds s := by
    rw [pingLoop_eq hloop]
    exact Counted.run count rounds
  -- With a number that was given, the loop ends before any counter wraps around.
  have hfew : count ≠ 0 → rounds.length ≤ count.toNat ∧ sentCount rounds < 2 ^ 32 := by
    intro hcount
    have hlen := length_le_of_pingLoop hloop hcount (toNat_pos hcount)
    exact ⟨hlen, Nat.lt_of_le_of_lt (Nat.le_trans (sentCount_le rounds) hlen) count.toNat_lt⟩
  have hdivisors : ∀ hcount : count ≠ 0,
      (∀ d ∈ (pingFinish s).divisors, d ≠ 0) ↔ 0 < sentCount rounds := by
    intro hcount
    change (∀ d ∈ [s.info.count, s.sendCount], d ≠ 0) ↔ _
    have hsend : s.sendCount ≠ 0 ↔ 0 < sentCount rounds := by
      rw [hcounted.sendCount, Ne, ← UInt32.toNat_inj, UInt32.toNat_ofNat',
        Nat.mod_eq_of_lt (hfew hcount).2, UInt32.toNat_zero, Nat.pos_iff_ne_zero]
    simp [hcounted.count, hcount, hsend]
  constructor
  · intro hconsistent
    have hcount : count ≠ 0 := by
      have hdivisor := hconsistent.divisors s.info.count List.mem_cons_self
      rw [hcounted.count] at hdivisor
      exact hdivisor
    obtain ⟨hlen, hsent⟩ := hfew hcount
    refine ⟨hcount, (hdivisors hcount).1 hconsistent.divisors,
      (total_iff hcounted hsent).1 hconsistent.total, ?_⟩
    by_cases htimes : times rounds = []
    · rw [htimes]
      exact Or.inl rfl
    · exact (minTime_le_avgTime_iff hcounted hcount).1 (hconsistent.ordered htimes).1
  · intro hcountable
    have hcount := hcountable.given
    obtain ⟨hlen, hsent⟩ := hfew hcount
    refine ⟨(total_iff hcounted hsent).2 hcountable.answers,
      (hdivisors hcount).2 hcountable.sent, fun _ => ⟨?_, avgTime_le_maxTime hcounted hlen⟩⟩
    exact (minTime_le_avgTime_iff hcounted hcount).2 hcountable.average

/-- The answer to the request `seq`, at the time `now` -/
def replyPacket (seq : UInt8) (now : UInt32) : Packet where
  buf := 0x45 :: List.replicate 23 0 ++ [0xAF, 0xAF, 0, seq]
  len := 28
  len_pos := by decide
  now := now

/-- Two requests are answered, in 100 ms and in 120 ms. -/
def answeredRounds : List Round :=
  [ { sent := true, now := 0, packets := [replyPacket 1 100], pingExit := false },
    { sent := true, now := 1000, packets := [replyPacket 2 1120], pingExit := false } ]

theorem ping_statistics_answered :
    ∃ r, pingThread 2 true true answeredRounds = some (some r) ∧ Consistent r answeredRounds := by
  have hthread : pingThread 2 true true answeredRounds = some (some _) := rfl
  refine ⟨_, hthread, (ping_statistics_iff hthread).2 ?_⟩
  exact ⟨by decide, by decide, by decide, by decide⟩

/-- One request is answered in 100 ms, and the other is lost. -/
def lostRounds : List Round :=
  [ { sent := true, now := 0, packets := [replyPacket 1 100], pingExit := false },
    { sent := true, now := 1000, packets := [], pingExit := false } ]

/-- The first answer comes twice. -/
def duplicateRounds : List Round :=
  [ { sent := true, now := 0, packets := [replyPacket 1 100], pingExit := false },
    { sent := true, now := 1000, packets := [replyPacket 1 1010, replyPacket 2 1100],
      pingExit := false } ]

/-- With one of two requests lost, the average is below the least time. A second copy of an
answer makes `2 ^ 32 - 1` losses. Without a number, or without a request that is sent, there
is a division by zero. -/
theorem average_below_least :
    (∃ r, pingThread 2 true true lostRounds = some (some r) ∧
      r.result.minTime = 100 ∧ r.result.avgTime = 50 ∧ ¬ Consistent r lostRounds) ∧
    (∃ r, pingThread 2 true true duplicateRounds = some (some r) ∧
      r.result.recvNum = 3 ∧ r.result.lostNum = 4294967295 ∧ ¬ Consistent r duplicateRounds) ∧
    (∃ r, pingThread 0 true true [⟨true, 0, [replyPacket 1 100], true⟩] = some (some r) ∧
      0 ∈ r.divisors ∧ ¬ Consistent r [⟨true, 0, [replyPacket 1 100], true⟩]) ∧
    ∃ r, pingThread 1 true true [⟨false, 0, [], false⟩] = some (some r) ∧
      0 ∈ r.divisors ∧ ¬ Consistent r [⟨false, 0, [], false⟩] := by
  refine ⟨⟨_, rfl, rfl, rfl, ?_⟩, ⟨_, rfl, rfl, rfl, ?_⟩, ⟨_, rfl, ?_, ?_⟩, ⟨_, rfl, ?_, ?_⟩⟩
  · intro h
    exact absurd (h.ordered (by decide)).1 (by decide)
  · intro h
    exact absurd h.total (by decide)
  · decide
  · intro h
    exact absurd (h.divisors 0 (by decide)) (by decide)
  · decide
  · intro h
    exact absurd (h.divisors 0 (by decide)) (by decide)

end Statistics

end Ping

end Lwip

end EspHosted
