import EspHosted.Iperf.LifeCycle

/-!
# Report tasks of earlier runs

A report task sleeps through the end of its run, and `iperf_start` does not look whether
there is one. Where no run is started while a report task is left, every store to `finish`
and every reset of `actual_len` is made by the run that they belong to.
-/

namespace EspHosted

namespace Iperf

open Machine

/-- The run whose traffic task, report task or `iperf_stop` sets `finish` or resets
`actual_len` in a step -/
def writer (s : State) : Action → Option ℕ
  | .iperfStart _ _ _ => none
  | .iperfStop =>
      match s.cli with
      | .stopSet run => some run
      | _ => none
  | .traffic _ =>
      match s.traffic with
      | none => none
      | some t =>
          match t.pc with
          | .recvCall _ | .exit => some t.run
          | _ => none
  | .report i =>
      match s.reports[i]? with
      | none => none
      | some r =>
          match r.pc with
          | .print _ | .stop => some r.run
          | _ => none

/-- The step belongs to the run in which it is made. -/
def Own (s : State) (a : Action) : Prop := ∀ run, writer s a = some run → run = s.run

/-- There is at most one report task, and it belongs to the run. -/
def OneReport (s : State) : Prop := s.reports.length ≤ 1 ∧ ∀ r ∈ s.reports, r.run = s.run

/-- Apart from `iperf_start`, only the steps that have a writer set `finish` or reset
`actual_len`. -/
theorem finish_of_writer_eq_none {s s' : State} {a : Action} (hstep : step s a = some s')
    (hstart : ∀ cfg malloc taskCreate, a ≠ .iperfStart cfg malloc taskCreate)
    (hwriter : writer s a = none) :
    s'.ctrl.finish = s.ctrl.finish ∧ s.sinceReset ≤ s'.sinceReset := by
  cases a with
  | iperfStart cfg malloc taskCreate => exact absurd rfl (hstart _ _ _)
  | iperfStop =>
      cases hstep
      rw [iperfStop]
      cases hcli : s.cli with
      | idle => exact ⟨rfl, Nat.le_refl _⟩
      | stopSet run =>
          rw [writer, hcli] at hwriter
          cases hwriter
      | stopWait => exact ⟨rfl, Nat.le_refl _⟩
  | traffic ret =>
      obtain ⟨t, ht, hstep⟩ := Option.bind_eq_some_iff.1 hstep
      rw [writer, ht] at hwriter
      dsimp only at hwriter
      cases TrafficStep.of_trafficStep hstep with
      | recvFailed hpc | exit hpc =>
          rw [hpc] at hwriter
          cases hwriter
      | recvReport hpc | sendReport hpc =>
          rw [iperfStartReport_eq]
          exact ⟨rfl, Nat.le_refl _⟩
      | recvAdd hpc | sendAdd hpc => exact ⟨rfl, Nat.le_add_right _ _⟩
      | finish hpc =>
          rw [endTraffic_eq]
          exact ⟨rfl, Nat.le_refl _⟩
      | quiet | socket | accept | received | receivedFirst | unsent | sent =>
          exact ⟨rfl, Nat.le_refl _⟩
  | report i =>
      obtain ⟨r, hr, rfl⟩ := Option.map_eq_some_iff.1 hstep
      rw [writer, hr] at hwriter
      dsimp only at hwriter
      rw [reportStep]
      cases hpc : r.pc with
      | print len =>
          rw [hpc] at hwriter
          cases hwriter
      | stop =>
          rw [hpc] at hwriter
          cases hwriter
      | entry | test | sleep => exact ⟨rfl, Nat.le_refl _⟩

/-- A run that is admitted finds no report task. -/
def Fresh (s : State) : Action → Prop
  | .iperfStart (some _) _ _ => s.running = false → s.reports = []
  | _ => True

instance (s : State) : DecidablePred (Fresh s)
  | .iperfStart (some _) _ _ => inferInstanceAs (Decidable (s.running = false → s.reports = []))
  | .iperfStart none _ _ => isTrue trivial
  | .iperfStop => isTrue trivial
  | .traffic _ => isTrue trivial
  | .report _ => isTrue trivial

/-- The traffic task has started its report, or will not start one any more. -/
def TrafficPc.reported : TrafficPc → Bool
  | .recvTest started => started
  | .recvCall started => started
  | .recvAdd _ | .sendTest | .sendCall | .sendAdd _ | .exit | .finish => true
  | _ => false

/-- What fresh starts keep: the tasks belong to the run, and the traffic task that has not
started its report finds none. -/
structure Isolated (s : State) : Prop where
  traffic : ∀ t, s.traffic = some t →
    s.running = true ∧ t.run = s.run ∧ (t.pc.reported = false → s.reports = [])
  reports : OneReport s
  cli : ∀ run, s.cli = .stopSet run → run = s.run

theorem Quiet.reported {mode : Mode} {pc pc' : TrafficPc} (h : Quiet mode pc pc')
    (hpc' : pc'.reported = false) : pc.reported = false := by
  cases h with
  | ipv4 | ipv6 | bound | listened | connected => rfl
  | recv started => exact hpc'
  | send | recvFinished | failed => cases hpc'

namespace Isolated

variable {s s' : State} {t t' : Traffic} {pc : TrafficPc}

theorem init : Isolated Iperf.init :=
  ⟨fun _ ht => (nomatch ht), ⟨Nat.zero_le _, fun _ hr => (nomatch hr)⟩,
    fun _ hcli => (nomatch hcli)⟩

/-- Every store is made by the run. -/
theorem own (h : Isolated s) (a : Action) : Own s a := by
  intro run hwriter
  cases a with
  | iperfStart => cases hwriter
  | iperfStop =>
      rw [writer] at hwriter
      split at hwriter
      · rename_i hcli
        cases hwriter
        exact h.cli _ hcli
      · cases hwriter
  | traffic ret =>
      rw [writer] at hwriter
      split at hwriter
      · cases hwriter
      · rename_i t ht
        have hrun := (h.traffic t ht).2.1
        split at hwriter
        · cases hwriter
          exact hrun
        · cases hwriter
          exact hrun
        · cases hwriter
  | report i =>
      rw [writer] at hwriter
      cases hr : s.reports[i]? with
      | none =>
          rw [hr] at hwriter
          cases hwriter
      | some r =>
          rw [hr] at hwriter
          dsimp only at hwriter
          have hrun := h.reports.2 r (List.mem_of_getElem? hr)
          cases hpc : r.pc with
          | print len =>
              rw [hpc] at hwriter
              cases hwriter
              exact hrun
          | stop =>
              rw [hpc] at hwriter
              cases hwriter
              exact hrun
          | entry | test | sleep =>
              rw [hpc] at hwriter
              cases hwriter

/-- The traffic task goes on. -/
theorem goto (h : Isolated s) (ht : s.traffic = some t) (hrunning : s'.running = s.running)
    (hrun : s'.run = s.run) (hcli : s'.cli = s.cli) (hrun' : t'.run = t.run)
    (hreports : OneReport s') (hpc : pc.reported = false → s'.reports = []) :
    Isolated (s'.goto t' pc) := by
  obtain ⟨hon, hown, -⟩ := h.traffic t ht
  refine ⟨?_, hreports, ?_⟩
  · intro t'' ht''
    cases ht''
    refine ⟨hrunning.trans hon, ?_, hpc⟩
    change t'.run = s'.run
    rw [hrun', hrun, hown]
  · intro run hset
    change s'.cli = .stopSet run at hset
    change run = s'.run
    rw [hcli] at hset
    rw [hrun]
    exact h.cli run hset

/-- The report of the run is started. -/
theorem report (h : Isolated s) (ht : s.traffic = some t) (hpc : t.pc.reported = false)
    (ret : ℤ) : OneReport (iperfStartReport s t.run ret) := by
  obtain ⟨-, hown, hnone⟩ := h.traffic t ht
  rw [iperfStartReport]
  split
  · refine ⟨?_, ?_⟩
    · rw [hnone hpc]
      exact Nat.le_refl _
    · intro r hr
      rw [hnone hpc] at hr
      cases List.mem_singleton.1 hr
      exact hown
  · exact h.reports

theorem traffic_step {ret : ℤ} (h : Isolated s) (ht : s.traffic = some t)
    (hstep : TrafficStep s t ret s') : Isolated s' := by
  obtain ⟨hon, hown, hnone⟩ := h.traffic t ht
  have hreported : ∀ {s₁ : State} {t₁ : Traffic} {pc : TrafficPc}, s₁.running = s.running →
      s₁.run = s.run → s₁.cli = s.cli → s₁.reports = s.reports → t₁.run = t.run →
      (pc.reported = false → t.pc.reported = false) → Isolated (s₁.goto t₁ pc) := by
    intro s₁ t₁ pc hrunning hrun hcli hsame hrun₁ hpc
    refine h.goto ht hrunning hrun hcli hrun₁ ?_ ?_
    · rw [OneReport, hsame, hrun]
      exact h.reports
    · intro hpc'
      rw [hsame]
      exact hnone (hpc hpc')
  have hdone : ∀ {pc : TrafficPc}, pc.reported = true →
      (pc.reported = false → t.pc.reported = false) := by
    intro pc hpc hpc'
    rw [hpc] at hpc'
    cases hpc'
  cases hstep with
  | quiet hq => exact hreported rfl rfl rfl rfl rfl hq.reported
  | socket hpc =>
      refine hreported rfl rfl rfl rfl ?_ (fun _ => by rw [hpc]; rfl)
      rw [Traffic.setOwnSocket]
      split
      · rfl
      · rfl
  | accept hpc hlisten => exact hreported rfl rfl rfl rfl rfl (fun _ => by rw [hpc]; rfl)
  | recvFailed hpc | recvAdd hpc | sendAdd hpc => exact hreported rfl rfl rfl rfl rfl (hdone rfl)
  | received n hpc | sent n hpc => exact hreported rfl rfl rfl rfl rfl (hdone rfl)
  | receivedFirst n hpc => exact hreported rfl rfl rfl rfl rfl (fun _ => by rw [hpc]; rfl)
  | recvReport hpc | sendReport hpc =>
      have hreport := h.report ht (by rw [hpc]; rfl) ret
      rw [iperfStartReport_eq] at hreport ⊢
      exact h.goto ht rfl rfl rfl rfl hreport (by simp [TrafficPc.reported])
  | unsent hpc hret =>
      refine hreported rfl rfl rfl rfl rfl (hdone ?_)
      cases t.mode <;> rfl
  | exit hpc =>
      rw [closeOwn_eq]
      exact hreported rfl rfl rfl rfl rfl (hdone rfl)
  | finish hpc =>
      rw [endTraffic_eq]
      refine ⟨?_, h.reports, h.cli⟩
      intro t' ht'
      cases ht'

/-- A run that is admitted and finds no report task -/
theorem start (h : Isolated s) (hcli : s.cli = .idle) (hrunning : s.running = false)
    (hnone : s.reports = []) (cfg : IperfCfg) (malloc taskCreate : Bool) :
    Isolated (iperfStart s (some cfg) malloc taskCreate).2 := by
  have htraffic : s.traffic = none := by
    cases ht : s.traffic with
    | none => rfl
    | some t => exact absurd (hrunning.symm.trans (h.traffic t ht).1) Bool.false_ne_true
  have hbegun : ∀ s₁ : State, s₁.reports = s.reports → s₁.cli = s.cli →
      (∀ t, s₁.traffic = some t → s₁.running = true ∧ t.run = s₁.run) → Isolated s₁ := by
    intro s₁ hreports hcli₁ htraffic₁
    rw [hnone] at hreports
    refine ⟨?_, ?_, ?_⟩
    · intro t ht
      obtain ⟨hon, hown⟩ := htraffic₁ t ht
      exact ⟨hon, hown, fun _ => hreports⟩
    · rw [OneReport, hreports]
      exact ⟨Nat.zero_le _, fun _ hr => (nomatch hr)⟩
    · intro run hset
      rw [hcli₁, hcli] at hset
      cases hset
  have hno : ∀ s₁ : State, s₁.traffic = s.traffic →
      ∀ t, s₁.traffic = some t → s₁.running = true ∧ t.run = s₁.run := by
    intro s₁ hsame t ht
    rw [hsame, htraffic] at ht
    cases ht
  rw [iperfStart, hrunning]
  cases malloc with
  | false => exact hbegun (begin s cfg) rfl rfl (hno _ rfl)
  | true =>
      cases taskCreate with
      | false => exact hbegun (freeBuffer (allocate (begin s cfg))) rfl rfl (hno _ rfl)
      | true =>
          refine hbegun (createTraffic (allocate (begin s cfg))) rfl rfl ?_
          intro t ht
          cases ht
          exact ⟨rfl, rfl⟩

/-- A report task goes on, or ends. -/
theorem report_step {i : ℕ} {r : Report} (h : Isolated s) (hr : s.reports[i]? = some r) :
    Isolated (reportStep s i r) := by
  have hmem := List.mem_of_getElem? hr
  have hreported : ∀ t, s.traffic = some t → t.pc.reported = true := by
    intro t ht
    by_contra hpc
    rw [(h.traffic t ht).2.2 (Bool.not_eq_true _ ▸ hpc)] at hmem
    cases hmem
  have hkept : ∀ s₁ : State, s₁.running = s.running → s₁.traffic = s.traffic → s₁.run = s.run →
      s₁.cli = s.cli → s₁.reports.length ≤ s.reports.length →
      (∀ r₁ ∈ s₁.reports, r₁.run = r.run ∨ r₁ ∈ s.reports) → Isolated s₁ := by
    intro s₁ hrunning htraffic hrun hcli hlen hsub
    refine ⟨?_, ⟨Nat.le_trans hlen h.reports.1, ?_⟩, ?_⟩
    · intro t ht
      rw [htraffic] at ht
      obtain ⟨hon, hown, -⟩ := h.traffic t ht
      refine ⟨hrunning.trans hon, hown.trans hrun.symm, ?_⟩
      intro hpc
      rw [hreported t ht] at hpc
      cases hpc
    · intro r₁ hr₁
      rw [hrun]
      rcases hsub r₁ hr₁ with hsame | hold
      · rw [hsame]
        exact h.reports.2 r hmem
      · exact h.reports.2 r₁ hold
    · rw [hcli, hrun]
      exact h.cli
  have hset : ∀ {s₁ : State} {r₁ : Report}, s₁.running = s.running → s₁.traffic = s.traffic →
      s₁.run = s.run → s₁.cli = s.cli → s₁.reports = s.reports.set i r₁ → r₁.run = r.run →
      Isolated s₁ := by
    intro s₁ r₁ hrunning htraffic hrun hcli hreports hsame
    refine hkept s₁ hrunning htraffic hrun hcli ?_ ?_
    · exact Nat.le_of_eq (by rw [hreports, List.length_set])
    · intro r₂ hr₂
      rw [hreports] at hr₂
      rcases List.mem_or_eq_of_mem_set hr₂ with hold | rfl
      · exact Or.inr hold
      · exact Or.inl hsame
  rw [reportStep]
  split
  · exact hset rfl rfl rfl rfl rfl rfl
  · exact hset rfl rfl rfl rfl rfl rfl
  · exact hset rfl rfl rfl rfl rfl rfl
  · exact hset rfl rfl rfl rfl rfl rfl
  · exact hkept _ rfl rfl rfl rfl (List.length_eraseIdx_le _ _)
      fun _ hr₁ => Or.inr (List.mem_of_mem_eraseIdx hr₁)

theorem keep {a : Action} (h : Isolated s) (hp : Fresh s a) (hstep : step s a = some s') :
    Isolated s' := by
  cases a with
  | iperfStart cfg malloc taskCreate =>
      obtain ⟨hidle, rfl | ⟨c, rfl, hrunning, rfl⟩⟩ := step_iperfStart hstep
      · exact h
      · exact h.start hidle hrunning (hp hrunning) c malloc taskCreate
  | iperfStop =>
      cases hstep
      rw [iperfStop]
      split
      · refine ⟨h.traffic, h.reports, ?_⟩
        intro run hset
        change (if s.running then Cli.stopSet s.run else .stopWait) = .stopSet run at hset
        split at hset
        · cases hset
          rfl
        · cases hset
      · refine ⟨h.traffic, h.reports, ?_⟩
        intro run hset
        cases hset
      · refine ⟨h.traffic, h.reports, ?_⟩
        intro run hset
        change (if s.running then Cli.stopWait else .idle) = .stopSet run at hset
        split at hset
        · cases hset
        · cases hset
  | traffic ret =>
      obtain ⟨t, ht, hstep⟩ := Option.bind_eq_some_iff.1 hstep
      exact h.traffic_step ht (TrafficStep.of_trafficStep hstep)
  | report i =>
      obtain ⟨r, hr, rfl⟩ := Option.map_eq_some_iff.1 hstep
      exact h.report_step hr

end Isolated

section Runs

variable {as : List Action}

/-- Where no run is started while there is a report task, there is never more than one report
task, and every store to `finish` and every reset of `actual_len` is made by the run that is
going on. -/
theorem isolated_of_fresh (h : Along step Fresh init as) :
    Always step OneReport init as ∧ Along step Own init as := by
  have halways : Always step Isolated init as :=
    always_of_along step (fun _ _ _ hi hp hstep => hi.keep hp hstep) Isolated.init h
  exact ⟨halways.mono step fun _ hi => hi.reports,
    along_of_always step (fun _ a hi => hi.own a) halways⟩

/-- A UDP client whose report covers one interval -/
def shortCfg : IperfCfg := { udpClientCfg with time := 3 }

/-- A run that is stopped while its report task sleeps -/
def sleepingSchedule : List Action :=
  [.iperfStart (some shortCfg) true true, .traffic 0, .traffic 0, .traffic 1, .report 0,
    .report 0, .iperfStop, .iperfStop, .traffic 0, .traffic 0, .traffic 0, .iperfStop]

/-- The report task wakes up, resets the counter, and ends. -/
def reportSchedule : List Action := [.report 0, .report 0, .report 0]

theorem isolated_awaited :
    Always step OneReport init
        (sleepingSchedule ++ reportSchedule ++ [.iperfStart (some shortCfg) true true]) ∧
      Along step Own init
        (sleepingSchedule ++ reportSchedule ++ [.iperfStart (some shortCfg) true true]) :=
  isolated_of_fresh (by decide)

/-- The next run is started first: the report task resets its counter and ends it. -/
theorem next_run_ended :
    ∃ t, run step init
        (sleepingSchedule ++ [.iperfStart (some shortCfg) true true] ++ reportSchedule) = some t ∧
      t.run = 2 ∧ t.ctrl.finish = true ∧
      ¬ Along step Own init
        (sleepingSchedule ++ [.iperfStart (some shortCfg) true true] ++ reportSchedule) := by
  refine ⟨_, rfl, rfl, rfl, ?_⟩
  intro h
  have hrun : run step init
      (sleepingSchedule ++ [.iperfStart (some shortCfg) true true] ++ reportSchedule) = some _ :=
    rfl
  have hown := (along_iff_forall step hrun).1 h
    (sleepingSchedule ++ [.iperfStart (some shortCfg) true true, .report 0]) (.report 0)
    [.report 0] _ rfl rfl
  cases hown 1 rfl

end Runs

end Iperf

end EspHosted
