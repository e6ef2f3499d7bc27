import EspHosted.Iperf.Tasks

/-!
# The life cycle of an iperf run

`iperf_start` sets `s_iperf_is_running` before it allocates the buffer and creates the task,
and only the task clears the flag. The TCP server closes the socket that it listens on, not
the one that it accepted.
-/

namespace EspHosted

namespace Iperf

open Machine

/-- The flag says whether there is a traffic task. Without one, its memory and sockets are
given back, a run can be started, and `iperf_stop` returns. -/
structure LifeCycle (s : State) : Prop where
  running : s.running = true ↔ s.traffic.isSome = true
  freed : s.traffic = none → s.buffers = []
  closed : s.traffic = none → s.sockets = []
  admitted : s.traffic = none → ∀ cfg, (iperfStart s (some cfg) true true).1 = 0
  stops : s.traffic = none → s.cli = .stopWait → iperfStop s = { s with cli := .idle }

/-- A run that is admitted gets its buffer and its task, and no TCP server ends that has
accepted a connection. -/
def Supplied (s : State) : Action → Prop
  | .iperfStart (some _) malloc taskCreate =>
      s.running = false → malloc = true ∧ taskCreate = true
  | .traffic _ =>
      ∀ t ∈ s.traffic, t.pc = .finish → t.mode = .tcpServer → t.clientSocket = none
  | _ => True

instance (s : State) : DecidablePred (Supplied s)
  | .iperfStart (some _) malloc taskCreate =>
      inferInstanceAs (Decidable (s.running = false → malloc = true ∧ taskCreate = true))
  | .iperfStart none _ _ => isTrue trivial
  | .iperfStop => isTrue trivial
  | .traffic _ =>
      inferInstanceAs (Decidable (∀ t ∈ s.traffic, t.pc = .finish → t.mode = .tcpServer →
        t.clientSocket = none))
  | .report _ => isTrue trivial

namespace Traffic

/-- The sockets that a traffic task has open. -/
def held (t : Traffic) : List ℕ :=
  if t.pc = .finish then
    if t.mode = .tcpServer then t.clientSocket.toList else []
  else
    t.listenSocket.toList ++ t.clientSocket.toList

/-- Which sockets a traffic task can have open, and which calls its mode makes. -/
structure Shape (t : Traffic) : Prop where
  fresh : t.pc = .entry ∨ t.pc = .socket → t.listenSocket = none ∧ t.clientSocket = none
  setUp : t.pc = .bind ∨ t.pc = .listen ∨ t.pc = .accept → t.clientSocket = none
  bind : t.pc = .bind → t.mode.isServer = true
  listen : t.pc = .listen ∨ t.pc = .accept → t.mode = .tcpServer
  client : t.mode.isServer = false → t.listenSocket = none
  udpServer : t.mode = .udpServer → t.clientSocket = none

theorem held_of_ne {t : Traffic} (h : t.pc ≠ .finish) :
    t.held = t.listenSocket.toList ++ t.clientSocket.toList := if_neg h

namespace Shape

variable {t : Traffic} {pc : TrafficPc}

/-- Behind the calls that set a server up, it does not matter where the task is. -/
theorem goto (h : t.Shape)
    (hpc : pc ≠ .entry ∧ pc ≠ .socket ∧ pc ≠ .bind ∧ pc ≠ .listen ∧ pc ≠ .accept) :
    ({ t with pc := pc } : Traffic).Shape := by
  obtain ⟨hentry, hsocket, hbind, hlisten, haccept⟩ := hpc
  constructor
  · rintro (hpc | hpc)
    · exact absurd hpc hentry
    · exact absurd hpc hsocket
  · rintro (hpc | hpc | hpc)
    · exact absurd hpc hbind
    · exact absurd hpc hlisten
    · exact absurd hpc haccept
  · intro hpc
    exact absurd hpc hbind
  · rintro (hpc | hpc)
    · exact absurd hpc hlisten
    · exact absurd hpc haccept
  · exact h.client
  · exact h.udpServer

/-- The TCP server goes on to `listen` and `accept`. -/
theorem tcpServer (hclient : t.clientSocket = none) (hmode : t.mode = .tcpServer)
    (hpc : pc = .listen ∨ pc = .accept) : ({ t with pc := pc } : Traffic).Shape := by
  have hne : pc ≠ .entry ∧ pc ≠ .socket ∧ pc ≠ .bind := by
    rcases hpc with rfl | rfl
    · simp
    · simp
  constructor
  · rintro (hf | hf)
    · exact absurd hf hne.1
    · exact absurd hf hne.2.1
  · intro _
    exact hclient
  · intro hf
    exact absurd hf hne.2.2
  · intro _
    exact hmode
  · intro hserver
    change t.mode.isServer = false at hserver
    rw [hmode] at hserver
    cases hserver
  · intro _
    exact hclient

theorem quiet (h : t.Shape) (hq : Quiet t.mode t.pc pc) :
    ({ t with pc := pc } : Traffic).Shape := by
  obtain ⟨run, mode, listenSocket, clientSocket, pc'⟩ := t
  cases hq with
  | ipv4 =>
      obtain ⟨hlisten, hclient⟩ := h.fresh (Or.inl rfl)
      refine ⟨fun _ => ⟨hlisten, hclient⟩, fun _ => hclient, ?_, ?_, fun _ => hlisten,
        fun _ => hclient⟩
      · intro hf
        cases hf
      · rintro (hf | hf)
        · cases hf
        · cases hf
  | ipv6 =>
      obtain ⟨-, hclient⟩ := h.fresh (Or.inl rfl)
      cases mode with
      | udpClient => exact h.goto (by simp [Mode.transfer])
      | udpServer => exact h.goto (by simp [Mode.transfer])
      | tcpClient => exact h.goto (by simp [Mode.transfer])
      | tcpServer => exact tcpServer hclient rfl (Or.inr rfl)
  | bound =>
      cases mode with
      | udpClient => exact h.goto (by simp [Mode.bound])
      | udpServer => exact h.goto (by simp [Mode.bound])
      | tcpClient => exact h.goto (by simp [Mode.bound])
      | tcpServer => exact tcpServer (h.setUp (Or.inl rfl)) rfl (Or.inl rfl)
  | listened =>
      exact tcpServer (h.setUp (Or.inr (Or.inl rfl))) (h.listen (Or.inl rfl)) (Or.inr rfl)
  | connected => exact h.goto (by simp)
  | recv started => exact h.goto (by simp)
  | send => exact h.goto (by simp)
  | recvFinished started => exact h.goto (by simp)
  | failed hmem => exact h.goto (by simp)

/-- A client has its socket, or a server that is about to bind. -/
theorem own {mode : Mode} {run x : ℕ} :
    (⟨run, mode, if mode.isServer then some x else none,
      if mode.isServer then none else some x, mode.setUp⟩ : Traffic).Shape := by
  constructor
  · rintro (hf | hf)
    · cases mode <;> cases hf
    · cases mode <;> cases hf
  · intro hpc
    cases mode with
    | udpServer => rfl
    | tcpServer => rfl
    | udpClient => rcases hpc with hf | hf | hf <;> cases hf
    | tcpClient => rcases hpc with hf | hf | hf <;> cases hf
  · intro hf
    cases mode with
    | udpServer => rfl
    | tcpServer => rfl
    | udpClient => cases hf
    | tcpClient => cases hf
  · rintro (hf | hf)
    · cases mode <;> cases hf
    · cases mode <;> cases hf
  · intro hserver
    change mode.isServer = false at hserver
    exact if_neg (by rw [hserver]; exact Bool.false_ne_true)
  · intro hmode
    change mode = .udpServer at hmode
    rw [hmode]
    rfl

/-- The task has created its socket. -/
theorem socket (h : t.Shape) (hpc : t.pc = .socket) (x : ℕ) :
    ({ t.setOwnSocket x with pc := t.mode.setUp } : Traffic).Shape ∧
      ({ t.setOwnSocket x with pc := t.mode.setUp } : Traffic).held = [x] := by
  obtain ⟨hlisten, hclient⟩ := h.fresh (Or.inr hpc)
  have hown : ({ t.setOwnSocket x with pc := t.mode.setUp } : Traffic) =
      ⟨t.run, t.mode, if t.mode.isServer then some x else none,
        if t.mode.isServer then none else some x, t.mode.setUp⟩ := by
    rw [Traffic.setOwnSocket, hlisten, hclient]
    cases t.mode <;> rfl
  rw [hown]
  refine ⟨own, ?_⟩
  cases t.mode <;> rfl

end Shape

end Traffic

theorem Quiet.ne_finish {mode : Mode} {pc pc' : TrafficPc} (h : Quiet mode pc pc') :
    pc ≠ .finish ∧ pc' ≠ .finish := by
  cases h with
  | ipv6 => cases mode <;> simp [Mode.transfer]
  | bound => cases mode <;> simp [Mode.bound]
  | failed hmem =>
      refine ⟨?_, by simp⟩
      rintro rfl
      simp at hmem
  | ipv4 | listened | connected | recv | send | recvFinished => simp

/-- At its label `exit` a task closes what it still has open, but not an accepted connection. -/
theorem sockets_closeOwn {s : State} {t : Traffic} (hsockets : s.sockets = t.held)
    (hshape : t.Shape) (hpc : t.pc = .exit) :
    (closeOwn s t).sockets = ({ t with pc := .finish } : Traffic).held := by
  rw [Traffic.held_of_ne (by rw [hpc]; simp)] at hsockets
  rw [closeOwn, Traffic.ownSocket]
  obtain ⟨run, mode, listenSocket, clientSocket, pc⟩ := t
  cases hmode : mode.isServer with
  | true =>
      have hheld : (⟨run, mode, listenSocket, clientSocket, .finish⟩ : Traffic).held =
          clientSocket.toList := by
        cases mode with
        | udpServer =>
            have hclient : clientSocket = none := hshape.udpServer rfl
            rw [hclient]
            rfl
        | tcpServer => rfl
        | udpClient => cases hmode
        | tcpClient => cases hmode
      rw [hheld]
      simp only [if_true]
      cases listenSocket with
      | none => exact hsockets
      | some x =>
          change s.sockets.erase x = clientSocket.toList
          rw [hsockets]
          exact List.erase_cons_head x clientSocket.toList
  | false =>
      have hlisten : listenSocket = none := hshape.client hmode
      have hheld : (⟨run, mode, listenSocket, clientSocket, .finish⟩ : Traffic).held = [] := by
        cases mode with
        | udpServer => cases hmode
        | tcpServer => cases hmode
        | udpClient => rfl
        | tcpClient => rfl
      rw [hheld]
      simp only [Bool.false_eq_true, if_false]
      rw [hlisten] at hsockets
      cases clientSocket with
      | none => exact hsockets
      | some x =>
          change s.sockets.erase x = []
          rw [hsockets]
          exact List.erase_cons_head x []

/-- At its end a task frees its buffer. -/
theorem buffers_endTraffic {s : State} (hbuffers : s.buffers = s.ctrl.buffer.toList) :
    (endTraffic s).buffers = (endTraffic s).ctrl.buffer.toList := by
  rw [endTraffic, freeBuffer]
  cases hbuffer : s.ctrl.buffer with
  | none => exact hbuffers
  | some b =>
      change s.buffers.erase b = []
      rw [hbuffers, hbuffer]
      exact List.erase_cons_head b []

/-- What supplied steps keep: the traffic task holds what is allocated and open. -/
structure Core (s : State) : Prop where
  running : s.running = s.traffic.isSome
  buffers : s.buffers = s.ctrl.buffer.toList
  idle : s.traffic = none → s.ctrl.buffer = none ∧ s.sockets = []
  busy : ∀ t, s.traffic = some t → s.sockets = t.held ∧ t.Shape

namespace Core

variable {s s' : State} {t t' : Traffic} {pc : TrafficPc}

theorem init : Core Iperf.init :=
  ⟨rfl, rfl, fun _ => ⟨rfl, rfl⟩, fun _ ht => nomatch ht⟩

theorem lifeCycle (h : Core s) : LifeCycle s := by
  have hrunning : s.traffic = none → s.running = false := by
    intro hnone
    rw [h.running, hnone]
    rfl
  constructor
  · rw [h.running]
  · intro hnone
    rw [h.buffers, (h.idle hnone).1]
    rfl
  · intro hnone
    exact (h.idle hnone).2
  · intro hnone cfg
    rw [iperfStart, hrunning hnone]
    rfl
  · intro hnone hcli
    rw [iperfStop, hcli, hrunning hnone]
    rfl

/-- The rest of the state does not matter. -/
theorem congr (h : Core s) (hrunning : s'.running = s.running) (htraffic : s'.traffic = s.traffic)
    (hbuffer : s'.ctrl.buffer = s.ctrl.buffer) (hbuffers : s'.buffers = s.buffers)
    (hsockets : s'.sockets = s.sockets) : Core s' := by
  constructor
  · rw [hrunning, htraffic]
    exact h.running
  · rw [hbuffers, hbuffer]
    exact h.buffers
  · rw [htraffic, hbuffer, hsockets]
    exact h.idle
  · rw [htraffic, hsockets]
    exact h.busy

/-- The traffic task goes on. -/
theorem goto (h : Core s) (ht : s.traffic = some t) (hrunning : s'.running = s.running)
    (hbuffer : s'.ctrl.buffer = s.ctrl.buffer) (hbuffers : s'.buffers = s.buffers)
    (hsockets : s'.sockets = ({ t' with pc := pc } : Traffic).held)
    (hshape : ({ t' with pc := pc } : Traffic).Shape) : Core (s'.goto t' pc) := by
  constructor
  · change s'.running = true
    rw [hrunning, h.running, ht]
    rfl
  · change s'.buffers = s'.ctrl.buffer.toList
    rw [hbuffers, hbuffer]
    exact h.buffers
  · intro hnone
    cases hnone
  · intro t'' ht''
    cases ht''
    exact ⟨hsockets, hshape⟩

/-- A run that is admitted and supplied -/
theorem start (h : Core s) (hrunning : s.running = false) (cfg : IperfCfg) :
    Core (createTraffic (allocate (begin s cfg))) := by
  have hnone : s.traffic = none := by
    rw [h.running] at hrunning
    exact Option.isNone_iff_eq_none.1 (by rw [← Option.not_isSome, hrunning]; rfl)
  obtain ⟨hbuffer, hsockets⟩ := h.idle hnone
  constructor
  · rfl
  · change s.next :: s.buffers = [s.next]
    rw [h.buffers, hbuffer]
    rfl
  · intro hf
    cases hf
  · intro t ht
    cases ht
    refine ⟨hsockets, ⟨fun _ => ⟨rfl, rfl⟩, fun _ => rfl, ?_, ?_, fun _ => rfl, fun _ => rfl⟩⟩
    · intro hf
      cases hf
    · rintro (hf | hf)
      · cases hf
      · cases hf

/-- Every step of the traffic task, the last one of a TCP server that has a connection
excepted -/
theorem traffic {ret : ℤ} (h : Core s) (ht : s.traffic = some t)
    (hend : t.pc = .finish → t.mode = .tcpServer → t.clientSocket = none)
    (hstep : TrafficStep s t ret s') : Core s' := by
  obtain ⟨hsockets, hshape⟩ := h.busy t ht
  -- A step in the middle of the transfer opens and closes nothing.
  have hmove : ∀ {s₁ : State} {pc : TrafficPc}, t.pc ≠ .finish → pc ≠ .finish →
      s₁.running = s.running → s₁.ctrl.buffer = s.ctrl.buffer → s₁.buffers = s.buffers →
      s₁.sockets = s.sockets → ({ t with pc := pc } : Traffic).Shape → Core (s₁.goto t pc) := by
    intro s₁ pc hpc hpc' hrunning hbuffer hbuffers hsame hshape'
    refine h.goto ht hrunning hbuffer hbuffers ?_ hshape'
    rw [hsame, hsockets, Traffic.held_of_ne hpc, Traffic.held_of_ne hpc']
  cases hstep with
  | quiet hq =>
      exact hmove hq.ne_finish.1 hq.ne_finish.2 rfl rfl rfl rfl (hshape.quiet hq)
  | socket hpc =>
      obtain ⟨hshape', hheld⟩ := hshape.socket hpc s.next
      refine h.goto ht rfl rfl rfl ?_ hshape'
      obtain ⟨hlisten, hclient⟩ := hshape.fresh (Or.inr hpc)
      rw [hheld]
      change s.sockets ++ [s.next] = [s.next]
      rw [hsockets, Traffic.held_of_ne (by rw [hpc]; simp), hlisten, hclient]
      rfl
  | accept hpc hlisten =>
      have hmode := hshape.listen (Or.inr hpc)
      have hclient := hshape.setUp (Or.inr (Or.inr hpc))
      refine h.goto ht rfl rfl rfl ?_ ?_
      · change s.sockets ++ [s.next] = t.listenSocket.toList ++ [s.next]
        rw [hsockets, Traffic.held_of_ne (by rw [hpc]; simp), hclient, Option.toList_none,
          List.append_nil]
      · have hserver : t.mode.isServer = true := by
          rw [hmode]
          rfl
        refine ⟨?_, ?_, ?_, ?_, ?_, ?_⟩
        · rintro (hf | hf)
          · cases hf
          · cases hf
        · rintro (hf | hf | hf)
          · cases hf
          · cases hf
          · cases hf
        · intro _
          exact hserver
        · intro _
          exact hmode
        · intro hf
          exact absurd (hserver.symm.trans hf) Bool.true_eq_false.mp
        · intro hf
          exact absurd (hmode.symm.trans hf) (by simp)
  | recvFailed hpc | recvAdd hpc | sendAdd hpc =>
      exact hmove (by rw [hpc]; simp) (by simp) rfl rfl rfl rfl (hshape.goto (by simp))
  | received n hpc | receivedFirst n hpc | sent n hpc =>
      exact hmove (by rw [hpc]; simp) (by simp) rfl rfl rfl rfl (hshape.goto (by simp))
  | recvReport hpc | sendReport hpc =>
      rw [iperfStartReport_eq]
      exact hmove (by rw [hpc]; simp) (by simp) rfl rfl rfl rfl (hshape.goto (by simp))
  | unsent hpc hret =>
      have hne : t.mode.unsent ≠ .finish ∧ t.mode.unsent ≠ .entry ∧ t.mode.unsent ≠ .socket ∧
          t.mode.unsent ≠ .bind ∧ t.mode.unsent ≠ .listen ∧ t.mode.unsent ≠ .accept := by
        cases t.mode <;> simp [Mode.unsent]
      exact hmove (by rw [hpc]; simp) hne.1 rfl rfl rfl rfl (hshape.goto hne.2)
  | exit hpc =>
      have hclosed := sockets_closeOwn hsockets hshape hpc
      rw [closeOwn_eq] at hclosed ⊢
      exact h.goto ht rfl rfl rfl hclosed (hshape.goto (by simp))
  | finish hpc =>
      have hheld : s.sockets = [] := by
        rw [hsockets, Traffic.held, if_pos hpc]
        split
        · rename_i hmode
          rw [hend hpc hmode]
          rfl
        · rfl
      refine ⟨rfl, ?_, ?_, ?_⟩
      · exact buffers_endTraffic h.buffers
      · intro _
        rw [endTraffic_eq]
        exact ⟨rfl, hheld⟩
      · intro t' ht'
        cases ht'

/-- A supplied step keeps the core. -/
theorem keep {a : Action} (h : Core s) (hp : Supplied s a) (hstep : step s a = some s') :
    Core s' := by
  cases a with
  | iperfStart cfg malloc taskCreate =>
      obtain ⟨-, rfl | ⟨c, rfl, hrunning, rfl⟩⟩ := step_iperfStart hstep
      · exact h
      · obtain ⟨rfl, rfl⟩ := hp hrunning
        rw [iperfStart, hrunning]
        exact h.start hrunning c
  | iperfStop =>
      cases hstep
      rw [iperfStop]
      split
      · exact h.congr rfl rfl rfl rfl rfl
      · exact h.congr rfl rfl rfl rfl rfl
      · exact h.congr rfl rfl rfl rfl rfl
  | traffic ret =>
      obtain ⟨t, ht, hstep⟩ := Option.bind_eq_some_iff.1 hstep
      exact h.traffic ht (hp t ht) (TrafficStep.of_trafficStep hstep)
  | report i =>
      obtain ⟨r, -, rfl⟩ := Option.map_eq_some_iff.1 hstep
      rw [reportStep]
      split
      · exact h.congr rfl rfl rfl rfl rfl
      · exact h.congr rfl rfl rfl rfl rfl
      · exact h.congr rfl rfl rfl rfl rfl
      · exact h.congr rfl rfl rfl rfl rfl
      · exact h.congr rfl rfl rfl rfl rfl

/-- A step that leaves the life cycle in order is supplied. -/
theorem supplied {a : Action} (h : Core s) (hstep : step s a = some s') (hlife : LifeCycle s') :
    Supplied s a := by
  cases a with
  | iperfStart cfg malloc taskCreate =>
      cases cfg with
      | none => trivial
      | some cfg =>
          intro hrunning
          have hnone : s.traffic = none := by
            rw [h.running] at hrunning
            exact Option.isNone_iff_eq_none.1 (by rw [← Option.not_isSome, hrunning]; rfl)
          rw [step] at hstep
          split at hstep
          · cases hstep
            -- The flag is set, so there is a task.
            have htask : ∀ t : State, t.running = true → t.traffic = s.traffic →
                (iperfStart s (some cfg) malloc taskCreate).2 ≠ t := by
              intro t hset htraffic heq
              have hsome := (heq ▸ hlife).running.1 hset
              rw [htraffic, hnone] at hsome
              cases hsome
            cases malloc with
            | false =>
                refine absurd ?_ (htask (begin s cfg) rfl rfl)
                rw [iperfStart, hrunning]
                rfl
            | true =>
                cases taskCreate with
                | false =>
                    refine absurd ?_ (htask (freeBuffer (allocate (begin s cfg))) rfl rfl)
                    rw [iperfStart, hrunning]
                    rfl
                | true => exact ⟨rfl, rfl⟩
          · cases hstep
  | iperfStop => trivial
  | traffic ret =>
      obtain ⟨t, ht, hstep⟩ := Option.bind_eq_some_iff.1 hstep
      intro t' ht' hpc hmode
      cases ht.symm.trans ht'
      rw [trafficStep, hpc] at hstep
      cases hstep
      have hclosed : (endTraffic s).sockets = [] := hlife.closed rfl
      rw [endTraffic_eq] at hclosed
      change s.sockets = [] at hclosed
      rw [(h.busy t ht).1, Traffic.held, if_pos hpc, if_pos hmode] at hclosed
      cases hclient : t.clientSocket with
      | none => rfl
      | some x =>
          rw [hclient] at hclosed
          cases hclosed
  | report i => trivial

end Core

section Runs

variable {as : List Action} {t : State}

/-- The life cycle is in order throughout a run exactly when every run that is admitted gets
its buffer and task, and no TCP server ends that has accepted a connection. -/
theorem life_cycle_iff_supplied (hrun : run step init as = some t) :
    Always step LifeCycle init as ↔ Along step Supplied init as :=
  always_iff_along_of_core step (fun _ h => h.lifeCycle)
    (fun _ _ _ h hp hstep => h.keep hp hstep) (fun _ _ _ h hstep hlife => h.supplied hstep hlife)
    Core.init hrun

/-- `iperf -c <ip> -u` -/
def udpClientCfg : IperfCfg where
  flag := 9
  type := iperfIpTypeIpv4
  interval := 3
  time := 30
  lenSendBuf := 0

/-- `iperf -s` -/
def tcpServerCfg : IperfCfg where
  flag := 6
  type := iperfIpTypeIpv4
  interval := 3
  time := 30
  lenSendBuf := 0

/-- A UDP client that is stopped behind its first datagram -/
def stoppedSchedule : List Action :=
  [.iperfStart (some udpClientCfg) true true, .traffic 0, .traffic 0, .traffic 1, .traffic 0,
    .traffic 1472, .traffic 0, .iperfStop, .iperfStop, .traffic 0, .traffic 0, .traffic 0,
    .iperfStop]

/-- A TCP server that accepts a connection and loses it -/
def acceptedSchedule : List Action :=
  [.iperfStart (some tcpServerCfg) true true, .traffic 0, .traffic 0, .traffic 0, .traffic 0,
    .traffic 0, .traffic 0, .traffic (-1), .traffic 0, .traffic 0]

theorem life_cycle_stopped : Always step LifeCycle init stoppedSchedule := by
  have hrun : run step init stoppedSchedule = some _ := rfl
  exact (life_cycle_iff_supplied hrun).2 (by decide)

/-- Without memory for the buffer the flag stays set, and nothing is started any more. The TCP
server leaves the accepted socket open. -/
theorem iperf_stays_running :
    (∃ t, run step init [.iperfStart (some udpClientCfg) false true] = some t ∧
        t.traffic = none ∧ t.running = true ∧
        (iperfStart t (some udpClientCfg) true true).1 = 1 ∧ ¬ LifeCycle t) ∧
      ∃ t, run step init acceptedSchedule = some t ∧ t.traffic = none ∧ t.sockets = [2] ∧
        ¬ Always step LifeCycle init acceptedSchedule := by
  refine ⟨⟨_, rfl, rfl, rfl, rfl, ?_⟩, ⟨_, rfl, rfl, rfl, ?_⟩⟩
  · intro h
    cases h.running.1 rfl
  · intro h
    have hrun : run step init acceptedSchedule = some _ := rfl
    have hlast := (h.last step hrun).closed rfl
    cases hlast

end Runs

end Iperf

end EspHosted
