import EspHosted.Iperf.Isolation
import Mathlib.Algebra.GroupWithZero.Nat

/-!
# The bytes of an iperf run

A report task reads `actual_len`, prints, and resets it. What is added in between is lost, and
what another report task reads in between is counted twice. `socket_send` does not add what
`sendto` sends in part.
-/

namespace EspHosted

namespace Iperf

open Machine

/-- A report task is between its read of `actual_len` and the reset. -/
def Report.printing (r : Report) : Bool :=
  match r.pc with
  | .print _ => true
  | _ => false

def printing (s : State) : Bool := s.reports.any Report.printing

/-- The bytes that a call has transferred and the task has not added yet -/
def TrafficPc.inHand : TrafficPc → ℕ
  | .recvReport n | .recvAdd n | .sendAdd n => n
  | _ => 0

def inHand (s : State) : ℕ :=
  match s.traffic with
  | none => 0
  | some t => t.pc.inHand

/-- The bytes of the intervals that were printed and those in `actual_len` are all that were
transferred, unless a report task is about to reset it. -/
def Accounted (s : State) : Prop :=
  printing s = false → s.printed + s.ctrl.actualLen.toNat + inHand s = s.total

/-- Fewer than `2 ^ 32` bytes are added in an interval. -/
def FewBytes (s : State) : Prop := s.sinceReset < 2 ^ 32

instance : DecidablePred FewBytes := fun s => inferInstanceAs (Decidable (s.sinceReset < 2 ^ 32))

/-- The bytes that the next step adds to `actual_len` -/
def TrafficPc.adds : TrafficPc → ℕ
  | .recvAdd n | .sendAdd n => n
  | _ => 0

/-- Nothing is added while a report task is about to reset the counter, no other report task
reads it then unless it is `0`, and `sendto` sends all or nothing. -/
def Undisturbed (s : State) : Action → Prop
  | .traffic ret =>
      ∀ t ∈ s.traffic, (t.pc.adds = 0 ∨ printing s = false) ∧
        (t.pc = .sendCall → transferResult s ret ≤ 0 ∨
          transferResult s ret = s.ctrl.bufferLen.toNat)
  | .report i =>
      ∀ r ∈ s.reports[i]?, r.pc = .sleep → s.ctrl.actualLen = 0 ∨ printing s = false
  | _ => True

instance (s : State) : DecidablePred (Undisturbed s)
  | .iperfStart _ _ _ => isTrue trivial
  | .iperfStop => isTrue trivial
  | .traffic ret =>
      inferInstanceAs (Decidable (∀ t ∈ s.traffic, (t.pc.adds = 0 ∨ printing s = false) ∧
        (t.pc = .sendCall → transferResult s ret ≤ 0 ∨
          transferResult s ret = s.ctrl.bufferLen.toNat)))
  | .report i =>
      inferInstanceAs (Decidable (∀ r ∈ s.reports[i]?, r.pc = .sleep →
        s.ctrl.actualLen = 0 ∨ printing s = false))

/-- What is left in `actual_len` and will not be reset unseen -/
def unread (s : State) : ℕ := if printing s then 0 else s.ctrl.actualLen.toNat

/-- What undisturbed steps keep. -/
structure Balanced (s : State) : Prop where
  running : s.traffic.isSome = true → s.running = true
  sinceReset : s.ctrl.actualLen = UInt32.ofNat s.sinceReset
  balance : s.printed + unread s + inHand s = s.total

theorem Quiet.inHand {mode : Mode} {pc pc' : TrafficPc} (h : Quiet mode pc pc') :
    pc.inHand = 0 ∧ pc'.inHand = 0 := by
  cases h with
  | ipv6 => cases mode <;> exact ⟨rfl, rfl⟩
  | bound => cases mode <;> exact ⟨rfl, rfl⟩
  | failed hmem =>
      refine ⟨?_, rfl⟩
      cases pc <;> first | rfl | simp at hmem
  | ipv4 | listened | connected | recv | send | recvFinished => exact ⟨rfl, rfl⟩

section Reports

variable {l : List Report} {i : ℕ} {r r' : Report}

theorem any_set (h : l[i]? = some r) (hp : r'.printing = r.printing) :
    (l.set i r').any Report.printing = l.any Report.printing := by
  induction l generalizing i with
  | nil => cases h
  | cons r₁ l ih =>
      cases i with
      | zero =>
          cases h
          rw [List.set_cons_zero, List.any_cons, List.any_cons, hp]
      | succ i => rw [List.set_cons_succ, List.any_cons, List.any_cons, ih h]

theorem any_eraseIdx (h : l[i]? = some r) (hp : r.printing = false) :
    (l.eraseIdx i).any Report.printing = l.any Report.printing := by
  induction l generalizing i with
  | nil => cases h
  | cons r₁ l ih =>
      cases i with
      | zero =>
          cases h
          rw [List.eraseIdx_cons_zero, List.any_cons, hp, Bool.false_or]
      | succ i => rw [List.eraseIdx_cons_succ, List.any_cons, List.any_cons, ih h]

theorem getElem?_set_of_getElem? (h : l[i]? = some r) : (l.set i r')[i]? = some r' :=
  List.getElem?_set_self (List.getElem?_eq_some_iff.1 h).1

end Reports

theorem printing_of_getElem? {s : State} {i : ℕ} {r : Report} (hr : s.reports[i]? = some r)
    (hp : r.printing = true) : printing s = true :=
  List.any_eq_true.2 ⟨r, List.mem_of_getElem? hr, hp⟩

/-- A new report task does not print yet. -/
theorem printing_iperfStartReport (s : State) (run : ℕ) (ret : ℤ) :
    printing (iperfStartReport s run ret) = printing s := by
  rw [iperfStartReport]
  split
  · rw [printing, List.any_append]
    exact Bool.or_false _
  · rfl

namespace Balanced

variable {s s' : State} {t : Traffic}

theorem init : Balanced Iperf.init := ⟨fun h => (nomatch h), rfl, rfl⟩

theorem accounted (h : Balanced s) : Accounted s := by
  intro hprinting
  have hbalance := h.balance
  rw [unread, hprinting] at hbalance
  exact hbalance

/-- The rest of the state does not matter. -/
theorem congr (h : Balanced s) (hrunning : s'.running = s.running)
    (htraffic : s'.traffic = s.traffic) (hlen : s'.ctrl.actualLen = s.ctrl.actualLen)
    (hsince : s'.sinceReset = s.sinceReset) (hprinted : s'.printed = s.printed)
    (htotal : s'.total = s.total) (hreports : printing s' = printing s) : Balanced s' := by
  constructor
  · rw [hrunning, htraffic]
    exact h.running
  · rw [hlen, hsince]
    exact h.sinceReset
  · rw [hprinted, htotal, unread, hreports, hlen, inHand, htraffic]
    exact h.balance

/-- The traffic task goes on. -/
theorem goto {s₁ : State} {t₁ : Traffic} {pc : TrafficPc} (h : Balanced s)
    (ht : s.traffic = some t) (hrunning : s₁.running = s.running)
    (hsince : s₁.ctrl.actualLen = UInt32.ofNat s₁.sinceReset)
    (hbalance : s₁.printed + unread s₁ + pc.inHand = s₁.total) : Balanced (s₁.goto t₁ pc) := by
  refine ⟨fun _ => ?_, hsince, hbalance⟩
  change s₁.running = true
  rw [hrunning]
  exact h.running (by rw [ht]; rfl)

/-- Bytes in hand are added to the counter. -/
theorem add {n : ℕ} (h : Balanced s) (hn : n = 0 ∨ printing s = false)
    (hinHand : inHand s = n) (hfew : s.sinceReset + n < 2 ^ 32) :
    (addLen s n).ctrl.actualLen = UInt32.ofNat (addLen s n).sinceReset ∧
      (addLen s n).printed + unread (addLen s n) = (addLen s n).total := by
  have hlen : s.ctrl.actualLen + UInt32.ofNat n = UInt32.ofNat (s.sinceReset + n) := by
    rw [UInt32.ofNat_add, h.sinceReset]
  refine ⟨hlen, ?_⟩
  have hbalance := h.balance
  rw [hinHand] at hbalance
  change s.printed + (if printing s then 0 else (s.ctrl.actualLen + UInt32.ofNat n).toNat) =
    s.total
  rcases hn with rfl | hprinting
  · rw [show UInt32.ofNat 0 = 0 from rfl, UInt32.add_zero]
    exact hbalance
  · rw [unread, hprinting, if_neg Bool.false_ne_true, h.sinceReset, UInt32.toNat_ofNat'] at hbalance
    rw [hprinting, if_neg Bool.false_ne_true, hlen, UInt32.toNat_ofNat', Nat.mod_eq_of_lt hfew]
    rw [Nat.mod_eq_of_lt (Nat.lt_of_le_of_lt (Nat.le_add_right _ _) hfew)] at hbalance
    omega

theorem traffic_step {ret : ℤ} (h : Balanced s) (ht : s.traffic = some t)
    (hadds : t.pc.adds = 0 ∨ printing s = false)
    (hsend : t.pc = .sendCall → transferResult s ret ≤ 0 ∨
      transferResult s ret = s.ctrl.bufferLen.toNat)
    (hfew : FewBytes s') (hstep : TrafficStep s t ret s') : Balanced s' := by
  have hinHand : inHand s = t.pc.inHand := by rw [inHand, ht]
  have hbalance := h.balance
  rw [hinHand] at hbalance
  -- A step that does not touch the counters
  have hmove : ∀ {s₁ : State} {t₁ : Traffic} {pc : TrafficPc}, s₁.running = s.running →
      s₁.ctrl.actualLen = s.ctrl.actualLen → s₁.sinceReset = s.sinceReset →
      s₁.printed = s.printed → s₁.total = s.total → printing s₁ = printing s →
      pc.inHand = t.pc.inHand → Balanced (s₁.goto t₁ pc) := by
    intro s₁ t₁ pc hrunning hlen hsince hprinted htotal hprinting hpc
    refine h.goto ht hrunning ?_ ?_
    · rw [hlen, hsince]
      exact h.sinceReset
    · rw [hprinted, htotal, unread, hprinting, hlen, hpc]
      exact hbalance
  have hcall : ∀ {pc : TrafficPc} {n : ℕ}, t.pc.inHand = 0 → pc.inHand = n →
      Balanced ((transferred s n).goto t pc) := by
    intro pc n hold hnew
    refine h.goto ht rfl h.sinceReset ?_
    change s.printed + unread s + pc.inHand = s.total + n
    rw [hold, Nat.add_zero] at hbalance
    rw [hbalance, hnew]
  cases hstep with
  | quiet hq =>
      exact hmove rfl rfl rfl rfl rfl rfl (hq.inHand.2.trans hq.inHand.1.symm)
  | socket hpc =>
      refine hmove rfl rfl rfl rfl rfl rfl ?_
      rw [hpc]
      cases t.mode <;> rfl
  | accept hpc hlisten => exact hmove rfl rfl rfl rfl rfl rfl (by rw [hpc]; rfl)
  | recvFailed hpc => exact hmove rfl rfl rfl rfl rfl rfl (by rw [hpc]; rfl)
  | received n hpc | receivedFirst n hpc | sent n hpc => exact hcall (by rw [hpc]; rfl) rfl
  | recvReport hpc | sendReport hpc =>
      have hprinting := printing_iperfStartReport s t.run ret
      rw [iperfStartReport_eq] at hprinting ⊢
      exact hmove rfl rfl rfl rfl rfl hprinting (by rw [hpc]; rfl)
  | recvAdd hpc | sendAdd hpc =>
      rw [hpc] at hinHand hadds
      obtain ⟨hsince, hadded⟩ := h.add hadds hinHand hfew
      exact h.goto ht rfl hsince hadded
  | unsent hpc hret =>
      have hnone : (transferResult s ret).toNat = 0 :=
        Int.toNat_eq_zero.2 ((hsend hpc).resolve_right hret)
      rw [hnone]
      refine hcall (by rw [hpc]; rfl) ?_
      cases t.mode <;> rfl
  | exit hpc =>
      rw [closeOwn_eq]
      exact hmove rfl rfl rfl rfl rfl rfl (by rw [hpc]; rfl)
  | finish hpc =>
      rw [hpc] at hbalance
      rw [endTraffic_eq]
      refine ⟨?_, h.sinceReset, hbalance⟩
      intro hf
      cases hf

theorem report_step {i : ℕ} {r : Report} (h : Balanced s) (hr : s.reports[i]? = some r)
    (hread : r.pc = .sleep → s.ctrl.actualLen = 0 ∨ printing s = false) :
    Balanced (reportStep s i r) := by
  have hset : ∀ r', r'.printing = r.printing → printing (s.setReport i r') = printing s :=
    fun r' hp => any_set hr hp
  rw [reportStep]
  cases hpc : r.pc with
  | entry =>
      have hprinting : r.printing = false := by rw [Report.printing, hpc]
      exact h.congr rfl rfl rfl rfl rfl rfl (hset _ hprinting.symm)
  | test =>
      have hprinting : r.printing = false := by rw [Report.printing, hpc]
      refine h.congr rfl rfl rfl rfl rfl rfl (hset _ ?_)
      rw [hprinting, Report.printing]
      cases s.ctrl.finish <;> rfl
  | sleep =>
      have hnow : printing (s.setReport i { r with pc := .print s.ctrl.actualLen }) = true :=
        printing_of_getElem? (getElem?_set_of_getElem? hr) rfl
      refine ⟨h.running, h.sinceReset, ?_⟩
      change s.printed + s.ctrl.actualLen.toNat +
        (if printing (s.setReport i { r with pc := .print s.ctrl.actualLen }) then 0
          else s.ctrl.actualLen.toNat) + inHand s = s.total
      rw [hnow, if_pos rfl, Nat.add_zero, ← h.balance, unread]
      rcases hread hpc with hzero | hprinting
      · rw [hzero]
        exact congrArg (s.printed + · + inHand s) (ite_self 0).symm
      · rw [hprinting, if_neg Bool.false_ne_true]
  | print len =>
      have hnow : printing s = true := printing_of_getElem? hr (by rw [Report.printing, hpc])
      have hbalance := h.balance
      rw [unread, hnow, if_pos rfl] at hbalance
      refine ⟨h.running, rfl, ?_⟩
      exact (congrArg (s.printed + · + inHand s) (ite_self 0)).trans hbalance
  | stop =>
      have hprinting : r.printing = false := by rw [Report.printing, hpc]
      exact h.congr rfl rfl rfl rfl rfl rfl (any_eraseIdx hr hprinting)

/-- A run that is admitted begins with nothing transferred. -/
theorem start (h : Balanced s) (hrunning : s.running = false) (cfg : IperfCfg)
    (malloc taskCreate : Bool) : Balanced (iperfStart s (some cfg) malloc taskCreate).2 := by
  have htraffic : s.traffic = none := by
    cases ht : s.traffic with
    | none => rfl
    | some t => exact absurd (hrunning.symm.trans (h.running (by rw [ht]; rfl))) Bool.false_ne_true
  have hbegin : Balanced (begin s cfg) := by
    refine ⟨fun _ => rfl, rfl, ?_⟩
    change 0 + (if printing s then 0 else 0) + inHand s = 0
    rw [ite_self, inHand, htraffic]
    rfl
  rw [iperfStart, hrunning]
  cases malloc with
  | false => exact hbegin
  | true =>
      cases taskCreate with
      | false => exact hbegin.congr rfl rfl rfl rfl rfl rfl rfl
      | true =>
          refine ⟨fun _ => rfl, rfl, ?_⟩
          change 0 + (if printing s then 0 else 0) + 0 = 0
          rw [ite_self]

theorem keep {a : Action} (h : Balanced s) (hp : Undisturbed s a) (hfew : FewBytes s')
    (hstep : step s a = some s') : Balanced s' := by
  cases a with
  | iperfStart cfg malloc taskCreate =>
      obtain ⟨-, rfl | ⟨c, rfl, hrunning, rfl⟩⟩ := step_iperfStart hstep
      · exact h
      · exact h.start hrunning c malloc taskCreate
  | iperfStop =>
      cases hstep
      rw [iperfStop]
      split
      · exact h.congr rfl rfl rfl rfl rfl rfl rfl
      · exact h.congr rfl rfl rfl rfl rfl rfl rfl
      · exact h.congr rfl rfl rfl rfl rfl rfl rfl
  | traffic ret =>
      obtain ⟨t, ht, hstep⟩ := Option.bind_eq_some_iff.1 hstep
      obtain ⟨hadds, hsend⟩ := hp t ht
      exact h.traffic_step ht hadds hsend hfew (TrafficStep.of_trafficStep hstep)
  | report i =>
      obtain ⟨r, hr, rfl⟩ := Option.map_eq_some_iff.1 hstep
      exact h.report_step hr (hp r hr)

end Balanced

section Runs

variable {as : List Action}

/-- Where nothing is added while a report task prints, no other report task reads then, and
`sendto` sends all or nothing, every byte of the run is in an interval that was printed or in
`actual_len`. -/
theorem bytes_accounted (hfew : Always step FewBytes init as)
    (h : Along step Undisturbed init as) : Always step Accounted init as := by
  have hboth := h.and step (hfew.along_next step)
  have halways : Always step Balanced init as := by
    refine always_of_along step ?_ Balanced.init hboth
    rintro s a s' hi ⟨hp, hnext⟩ hstep
    exact hi.keep hp (hnext s' hstep) hstep
  exact halways.mono step fun _ hi => hi.accounted

/-- A UDP client sends two datagrams; its report task reads the counter behind each of them
and resets it. -/
def sentSchedule : List Action :=
  [.iperfStart (some udpClientCfg) true true, .traffic 0, .traffic 0, .traffic 1, .report 0,
    .report 0, .traffic 0, .traffic 1472, .traffic 0, .report 0, .report 0, .report 0,
    .traffic 0, .traffic 1472, .traffic 0, .report 0, .report 0]

/-- The second datagram comes between the read and the reset. -/
def lostSchedule : List Action :=
  [.iperfStart (some udpClientCfg) true true, .traffic 0, .traffic 0, .traffic 1, .report 0,
    .report 0, .traffic 0, .traffic 1472, .traffic 0, .report 0, .traffic 0, .traffic 1472,
    .traffic 0, .report 0]

theorem bytes_accounted_two_datagrams :
    Always step Accounted init sentSchedule ∧
      ∃ t, run step init sentSchedule = some t ∧ t.printed = 2944 ∧ t.total = 2944 :=
  ⟨bytes_accounted (by decide) (by decide), _, rfl, rfl, rfl⟩

/-- The second datagram is neither printed nor left in the counter. -/
theorem datagram_lost :
    Always step FewBytes init lostSchedule ∧
      ∃ t, run step init lostSchedule = some t ∧ printing t = false ∧ t.printed = 1472 ∧
        t.ctrl.actualLen = 0 ∧ t.total = 2944 ∧ ¬ Accounted t := by
  refine ⟨by decide, _, rfl, rfl, rfl, rfl, rfl, ?_⟩
  intro h
  cases h rfl

end Runs

end Iperf

end EspHosted
