import EspHosted.Lib.Machine
import Mathlib.Data.Int.Notation

/-!
# The tasks of iperf

`iperf_start` starts a traffic task, which starts a report task when it begins to transfer
bytes. They share `s_iperf_ctrl` and `s_iperf_is_running`. A step is one action of one of
them, or of the command line, that calls `iperf_start` and `iperf_stop`; a call into lwIP
or FreeRTOS returns what the action says.

`LWIP_IPV6` is not set. The traffic task frees its buffer, clears `s_iperf_is_running` and
deletes itself in one step.
-/

namespace EspHosted

namespace Iperf

/-- `IPERF_IP_TYPE_IPV4` -/
def iperfIpTypeIpv4 : UInt8 := 0

/-- `IPERF_IP_TYPE_IPV6` -/
def iperfIpTypeIpv6 : UInt8 := 1

/-- `pdPASS` -/
def pdPass : ℤ := 1

/-- `iperf_cfg_t`, without the addresses and ports -/
structure IperfCfg where
  flag : UInt32
  type : UInt8
  interval : UInt32
  time : UInt32
  lenSendBuf : UInt16

namespace IperfCfg

/-- `IPERF_FLAG_CLIENT` -/
def isClient (cfg : IperfCfg) : Bool := cfg.flag &&& 1 ≠ 0

/-- `IPERF_FLAG_SERVER` -/
def isServer (cfg : IperfCfg) : Bool := cfg.flag &&& 2 ≠ 0

/-- `IPERF_FLAG_TCP` -/
def isTcp (cfg : IperfCfg) : Bool := cfg.flag &&& 4 ≠ 0

/-- `IPERF_FLAG_UDP` -/
def isUdp (cfg : IperfCfg) : Bool := cfg.flag &&& 8 ≠ 0

end IperfCfg

/-- `iperf_is_udp_client` -/
def iperfIsUdpClient (cfg : IperfCfg) : Bool := cfg.isClient && cfg.isUdp

/-- `iperf_is_udp_server` -/
def iperfIsUdpServer (cfg : IperfCfg) : Bool := cfg.isServer && cfg.isUdp

/-- `iperf_is_tcp_client` -/
def iperfIsTcpClient (cfg : IperfCfg) : Bool := cfg.isClient && cfg.isTcp

/-- The functions that `iperf_task_traffic` calls. -/
inductive Mode where
  | udpClient
  | udpServer
  | tcpClient
  | tcpServer
  deriving DecidableEq

/-- The branches of `iperf_task_traffic` and `iperf_get_buffer_len` -/
def IperfCfg.mode (cfg : IperfCfg) : Mode :=
  if iperfIsUdpClient cfg then .udpClient
  else if iperfIsUdpServer cfg then .udpServer
  else if iperfIsTcpClient cfg then .tcpClient
  else .tcpServer

def Mode.isServer : Mode → Bool
  | .udpServer | .tcpServer => true
  | .udpClient | .tcpClient => false

/-- `iperf_get_buffer_len` -/
def iperfGetBufferLen (cfg : IperfCfg) : UInt32 :=
  match cfg.mode with
  | .udpClient => if cfg.lenSendBuf = 0 then 1472 else cfg.lenSendBuf.toUInt32
  | .udpServer => 16384
  | .tcpClient => if cfg.lenSendBuf = 0 then 16384 else cfg.lenSendBuf.toUInt32
  | .tcpServer => 16384

/-- `iperf_ctrl_t` -/
structure Ctrl where
  cfg : IperfCfg
  finish : Bool
  actualLen : UInt32
  bufferLen : UInt32
  buffer : Option ℕ

/-- Where a report task is: `print` holds what it read from `actual_len`. -/
inductive ReportPc where
  | entry
  | test
  | sleep
  | print (len : UInt32)
  | stop
  deriving DecidableEq

/-- `iperf_report_task` of a run -/
structure Report where
  run : ℕ
  interval : UInt32
  time : UInt32
  cur : UInt32
  pc : ReportPc
  deriving DecidableEq

/-- Where a traffic task is. `recvTest` and `recvCall` know whether the report was started;
`recvReport`, `recvAdd` and `sendAdd` hold the bytes that were transferred last. -/
inductive TrafficPc where
  | entry
  | socket
  | bind
  | listen
  | accept
  | connect
  | recvTest (started : Bool)
  | recvCall (started : Bool)
  | recvReport (n : ℕ)
  | recvAdd (n : ℕ)
  | sendReport
  | sendTest
  | sendCall
  | sendAdd (n : ℕ)
  | exit
  | finish
  deriving DecidableEq

/-- `iperf_task_traffic` of a run; a socket that is not open is `none`. -/
structure Traffic where
  run : ℕ
  mode : Mode
  listenSocket : Option ℕ
  clientSocket : Option ℕ
  pc : TrafficPc
  deriving DecidableEq

/-- Where the command line is. `stopSet` is between the test of `s_iperf_is_running` and the
store to `finish`, in `iperf_stop` called during a run. -/
inductive Cli where
  | idle
  | stopSet (run : ℕ)
  | stopWait
  deriving DecidableEq

/-- The last four fields are not the code's: the number of the run, and for that run the bytes
in the intervals that were printed, the bytes that were transferred, and those that were added
to `actual_len` since it was reset. -/
structure State where
  running : Bool
  ctrl : Ctrl
  traffic : Option Traffic
  reports : List Report
  cli : Cli
  buffers : List ℕ
  sockets : List ℕ
  next : ℕ
  run : ℕ
  printed : ℕ
  total : ℕ
  sinceReset : ℕ

def init : State where
  running := false
  ctrl :=
    { cfg := { flag := 0, type := 0, interval := 0, time := 0, lenSendBuf := 0 }
      finish := false
      actualLen := 0
      bufferLen := 0
      buffer := none }
  traffic := none
  reports := []
  cli := .idle
  buffers := []
  sockets := []
  next := 0
  run := 0
  printed := 0
  total := 0
  sinceReset := 0

/-! ## Starting and stopping -/

/-- `iperf_start` up to its allocation -/
def begin (s : State) (cfg : IperfCfg) : State :=
  { s with
    running := true
    ctrl :=
      { cfg := cfg
        finish := false
        actualLen := 0
        bufferLen := iperfGetBufferLen cfg
        buffer := none }
    run := s.run + 1
    printed := 0
    total := 0
    sinceReset := 0 }

/-- `s_iperf_ctrl.buffer = malloc(..)` -/
def allocate (s : State) : State :=
  { s with
    ctrl := { s.ctrl with buffer := some s.next }
    buffers := s.next :: s.buffers
    next := s.next + 1 }

/-- `free(s_iperf_ctrl.buffer)`, unless it is `NULL` -/
def freeBuffer (s : State) : State :=
  match s.ctrl.buffer with
  | none => s
  | some b => { s with ctrl := { s.ctrl with buffer := none }, buffers := s.buffers.erase b }

/-- `xTaskCreate(iperf_task_traffic, ..)` -/
def createTraffic (s : State) : State :=
  { s with
    traffic := some
      { run := s.run
        mode := s.ctrl.cfg.mode
        listenSocket := none
        clientSocket := none
        pc := .entry } }

/-- `iperf_start`, with the outcomes of `malloc` and `xTaskCreate` -/
def iperfStart (s : State) (cfg : Option IperfCfg) (malloc taskCreate : Bool) : ℤ × State :=
  match cfg with
  | none => (1, s)
  | some cfg =>
      if s.running then
        (1, s)
      else if malloc then
        if taskCreate then (0, createTraffic (allocate (begin s cfg)))
        else (1, freeBuffer (allocate (begin s cfg)))
      else
        (1, begin s cfg)

/-- The next step of `iperf_stop` -/
def iperfStop (s : State) : State :=
  match s.cli with
  | .idle => { s with cli := if s.running then .stopSet s.run else .stopWait }
  | .stopSet _ => { s with ctrl := { s.ctrl with finish := true }, cli := .stopWait }
  | .stopWait => { s with cli := if s.running then .stopWait else .idle }

/-! ## The traffic task -/

def State.goto (s : State) (t : Traffic) (pc : TrafficPc) : State :=
  { s with traffic := some { t with pc := pc } }

/-- `iperf_start_report`, with the outcome of `xTaskCreate` -/
def iperfStartReport (s : State) (run : ℕ) (ret : ℤ) : State :=
  if ret = pdPass then
    { s with
      reports := s.reports ++ [{ run := run, interval := 0, time := 0, cur := 0, pc := .entry }] }
  else
    s

namespace Mode

/-- Behind the branch of IPv4 -/
def transfer : Mode → TrafficPc
  | .udpClient => .sendReport
  | .udpServer => .recvTest false
  | .tcpClient => .sendReport
  | .tcpServer => .accept

/-- Behind `socket` -/
def setUp : Mode → TrafficPc
  | .udpClient => .sendReport
  | .udpServer => .bind
  | .tcpClient => .connect
  | .tcpServer => .bind

/-- Behind `bind` -/
def bound : Mode → TrafficPc
  | .tcpServer => .listen
  | _ => .recvTest false

/-- Behind a `sendto` that does not send all -/
def unsent : Mode → TrafficPc
  | .tcpClient => .exit
  | _ => .sendTest

end Mode

namespace Traffic

/-- The variable that holds the socket which the task creates, and closes at its label `exit` -/
def ownSocket (t : Traffic) : Option ℕ :=
  if t.mode.isServer then t.listenSocket else t.clientSocket

def setOwnSocket (t : Traffic) (x : ℕ) : Traffic :=
  if t.mode.isServer then { t with listenSocket := some x } else { t with clientSocket := some x }

end Traffic

/-- A socket is opened. -/
def openSocket (s : State) : State :=
  { s with sockets := s.sockets ++ [s.next], next := s.next + 1 }

/-- `s_iperf_ctrl.finish = true` -/
def setFinish (s : State) : State := { s with ctrl := { s.ctrl with finish := true } }

/-- `s_iperf_ctrl.actual_len += n` -/
def addLen (s : State) (n : ℕ) : State :=
  { s with
    ctrl := { s.ctrl with actualLen := s.ctrl.actualLen + UInt32.ofNat n }
    sinceReset := s.sinceReset + n }

/-- `n` bytes are transferred. -/
def transferred (s : State) (n : ℕ) : State := { s with total := s.total + n }

/-- The labels `exit`: `shutdown`, `close` and `s_iperf_ctrl.finish = true` -/
def closeOwn (s : State) (t : Traffic) : State :=
  setFinish
    (match t.ownSocket with
    | none => s
    | some x => { s with sockets := s.sockets.erase x })

/-- The end of `iperf_task_traffic` -/
def endTraffic (s : State) : State := { freeBuffer s with running := false, traffic := none }

/-- What `recvfrom` and `sendto` return; they are called for IPv4 only. -/
def transferResult (s : State) (ret : ℤ) : ℤ :=
  if s.ctrl.cfg.type = iperfIpTypeIpv4 then ret else 0

/-- The next step of the traffic task; `ret` is what the call in it returns. No call transfers
more than it was asked for, and `accept` needs a socket. -/
def trafficStep (s : State) (t : Traffic) (ret : ℤ) : Option State :=
  match t.pc with
  | .entry =>
      if s.ctrl.cfg.type = iperfIpTypeIpv6 ∨ s.ctrl.cfg.type = iperfIpTypeIpv4 then
        if s.ctrl.cfg.type = iperfIpTypeIpv4 then some (s.goto t .socket)
        else some (s.goto t t.mode.transfer)
      else
        some (s.goto t .exit)
  | .socket =>
      if ret ≥ 0 then some ((openSocket s).goto (t.setOwnSocket s.next) t.mode.setUp)
      else some (s.goto t .exit)
  | .bind => if ret = 0 then some (s.goto t t.mode.bound) else some (s.goto t .exit)
  | .listen => if ret = 0 then some (s.goto t .accept) else some (s.goto t .exit)
  | .accept =>
      if ret ≥ 0 then
        if t.listenSocket.isSome then
          some ((openSocket s).goto { t with clientSocket := some s.next } (.recvTest false))
        else
          none
      else
        some (s.goto t .exit)
  | .connect => if ret = 0 then some (s.goto t .sendReport) else some (s.goto t .exit)
  | .recvTest started =>
      if s.ctrl.finish then some (s.goto t .exit) else some (s.goto t (.recvCall started))
  | .recvCall started =>
      let actualRecv := transferResult s ret
      if actualRecv > s.ctrl.bufferLen.toNat then
        none
      else if actualRecv < 0 then
        some ((setFinish s).goto t .exit)
      else if started then
        some ((transferred s actualRecv.toNat).goto t (.recvAdd actualRecv.toNat))
      else
        some ((transferred s actualRecv.toNat).goto t (.recvReport actualRecv.toNat))
  | .recvReport n => some ((iperfStartReport s t.run ret).goto t (.recvAdd n))
  | .recvAdd n => some ((addLen s n).goto t (.recvTest true))
  | .sendReport => some ((iperfStartReport s t.run ret).goto t .sendTest)
  | .sendTest => if s.ctrl.finish then some (s.goto t .exit) else some (s.goto t .sendCall)
  | .sendCall =>
      let actualSend := transferResult s ret
      if actualSend > s.ctrl.bufferLen.toNat then
        none
      else if actualSend ≠ s.ctrl.bufferLen.toNat then
        some ((transferred s actualSend.toNat).goto t t.mode.unsent)
      else
        some ((transferred s actualSend.toNat).goto t (.sendAdd actualSend.toNat))
  | .sendAdd n => some ((addLen s n).goto t .sendTest)
  | .exit => some ((closeOwn s t).goto t .finish)
  | .finish => some (endTraffic s)

/-! ## The report task -/

def State.setReport (s : State) (i : ℕ) (r : Report) : State :=
  { s with reports := s.reports.set i r }

/-- The next step of a report task -/
def reportStep (s : State) (i : ℕ) (r : Report) : State :=
  match r.pc with
  | .entry =>
      s.setReport i
        { r with interval := s.ctrl.cfg.interval, time := s.ctrl.cfg.time, pc := .test }
  | .test => s.setReport i { r with pc := if s.ctrl.finish then .stop else .sleep }
  | .sleep =>
      { s.setReport i { r with pc := .print s.ctrl.actualLen } with
        printed := s.printed + s.ctrl.actualLen.toNat }
  | .print _ =>
      let cur := r.cur + r.interval
      { s.setReport i { r with cur := cur, pc := if cur ≥ r.time then .stop else .test } with
        ctrl := { s.ctrl with actualLen := 0 }
        sinceReset := 0 }
  | .stop => setFinish { s with reports := s.reports.eraseIdx i }

/-! ## The machine -/

inductive Action where
  | iperfStart (cfg : Option IperfCfg) (malloc taskCreate : Bool)
  | iperfStop
  | traffic (ret : ℤ)
  | report (i : ℕ)

def step (s : State) : Action → Option State
  | .iperfStart cfg malloc taskCreate =>
      if s.cli = .idle then some (iperfStart s cfg malloc taskCreate).2 else none
  | .iperfStop => some (iperfStop s)
  | .traffic ret => s.traffic.bind fun t => trafficStep s t ret
  | .report i => s.reports[i]?.map fun r => reportStep s i r

/-! ## What the parts of a step leave alone -/

/-- Only the list of the report tasks can change. -/
theorem iperfStartReport_eq (s : State) (run : ℕ) (ret : ℤ) :
    iperfStartReport s run ret = { s with reports := (iperfStartReport s run ret).reports } := by
  rw [iperfStartReport]
  split
  · rfl
  · rfl

/-- At its label `exit` a task sets `finish`, and its socket may be closed. -/
theorem closeOwn_eq (s : State) (t : Traffic) :
    closeOwn s t = { setFinish s with sockets := (closeOwn s t).sockets } := by
  rw [closeOwn]
  split
  · rfl
  · rfl

/-- At its end a task gives the buffer back. -/
theorem endTraffic_eq (s : State) :
    endTraffic s =
      { s with
        running := false
        traffic := none
        ctrl := { s.ctrl with buffer := none }
        buffers := (endTraffic s).buffers } := by
  rw [endTraffic, freeBuffer]
  cases hbuffer : s.ctrl.buffer with
  | none =>
      have hctrl : s.ctrl = { s.ctrl with buffer := none } := by rw [← hbuffer]
      rw [← hctrl]
  | some b => rfl

/-- A call of `iperf_start` is not admitted, and changes nothing, or finds the flag clear. -/
theorem step_iperfStart {s s' : State} {cfg : Option IperfCfg} {malloc taskCreate : Bool}
    (h : step s (.iperfStart cfg malloc taskCreate) = some s') :
    s.cli = .idle ∧ (s' = s ∨ ∃ c, cfg = some c ∧ s.running = false ∧
      s' = (iperfStart s (some c) malloc taskCreate).2) := by
  rw [step] at h
  split at h
  · rename_i hidle
    cases h
    refine ⟨hidle, ?_⟩
    cases cfg with
    | none => exact Or.inl rfl
    | some c =>
        cases hrunning : s.running with
        | true =>
            left
            rw [iperfStart, hrunning]
            rfl
        | false => exact Or.inr ⟨c, rfl, rfl, rfl⟩
  · cases h

/-! ## What a step of the traffic task does -/

/-- A step that changes nothing but where the task is. -/
inductive Quiet (mode : Mode) : TrafficPc → TrafficPc → Prop
  | ipv4 : Quiet mode .entry .socket
  | ipv6 : Quiet mode .entry mode.transfer
  | bound : Quiet mode .bind mode.bound
  | listened : Quiet mode .listen .accept
  | connected : Quiet mode .connect .sendReport
  | recv (started : Bool) : Quiet mode (.recvTest started) (.recvCall started)
  | send : Quiet mode .sendTest .sendCall
  | recvFinished (started : Bool) : Quiet mode (.recvTest started) .exit
  | failed {pc : TrafficPc}
      (h : pc ∈ [.entry, .socket, .bind, .listen, .accept, .connect, .sendTest]) :
      Quiet mode pc .exit

inductive TrafficStep (s : State) (t : Traffic) (ret : ℤ) : State → Prop
  | quiet {pc : TrafficPc} (h : Quiet t.mode t.pc pc) : TrafficStep s t ret (s.goto t pc)
  | socket (hpc : t.pc = .socket) :
      TrafficStep s t ret ((openSocket s).goto (t.setOwnSocket s.next) t.mode.setUp)
  | accept (hpc : t.pc = .accept) (hlisten : t.listenSocket.isSome = true) :
      TrafficStep s t ret
        ((openSocket s).goto { t with clientSocket := some s.next } (.recvTest false))
  | recvFailed {started : Bool} (hpc : t.pc = .recvCall started) :
      TrafficStep s t ret ((setFinish s).goto t .exit)
  | received (n : ℕ) (hpc : t.pc = .recvCall true) :
      TrafficStep s t ret ((transferred s n).goto t (.recvAdd n))
  | receivedFirst (n : ℕ) (hpc : t.pc = .recvCall false) :
      TrafficStep s t ret ((transferred s n).goto t (.recvReport n))
  | recvReport {n : ℕ} (hpc : t.pc = .recvReport n) :
      TrafficStep s t ret ((iperfStartReport s t.run ret).goto t (.recvAdd n))
  | recvAdd {n : ℕ} (hpc : t.pc = .recvAdd n) :
      TrafficStep s t ret ((addLen s n).goto t (.recvTest true))
  | sendReport (hpc : t.pc = .sendReport) :
      TrafficStep s t ret ((iperfStartReport s t.run ret).goto t .sendTest)
  | unsent (hpc : t.pc = .sendCall) (hret : transferResult s ret ≠ s.ctrl.bufferLen.toNat) :
      TrafficStep s t ret ((transferred s (transferResult s ret).toNat).goto t t.mode.unsent)
  | sent (n : ℕ) (hpc : t.pc = .sendCall) :
      TrafficStep s t ret ((transferred s n).goto t (.sendAdd n))
  | sendAdd {n : ℕ} (hpc : t.pc = .sendAdd n) : TrafficStep s t ret ((addLen s n).goto t .sendTest)
  | exit (hpc : t.pc = .exit) : TrafficStep s t ret ((closeOwn s t).goto t .finish)
  | finish (hpc : t.pc = .finish) : TrafficStep s t ret (endTraffic s)

theorem TrafficStep.of_trafficStep {s s' : State} {t : Traffic} {ret : ℤ}
    (h : trafficStep s t ret = some s') : TrafficStep s t ret s' := by
  have hfailed : ∀ {pc}, t.pc = pc →
      pc ∈ [.entry, .socket, .bind, .listen, .accept, .connect, .sendTest] →
        TrafficStep s t ret (s.goto t .exit) := by
    intro pc hpc hmem
    exact .quiet (.failed (hpc ▸ hmem))
  unfold trafficStep at h
  cases hpc : t.pc with
  | entry =>
      simp only [hpc] at h
      split at h
      · split at h
        · cases h
          exact .quiet (hpc ▸ .ipv4)
        · cases h
          exact .quiet (hpc ▸ .ipv6)
      · cases h
        exact hfailed hpc (by simp)
  | socket =>
      simp only [hpc] at h
      split at h
      · cases h
        exact .socket hpc
      · cases h
        exact hfailed hpc (by simp)
  | bind =>
      simp only [hpc] at h
      split at h
      · cases h
        exact .quiet (hpc ▸ .bound)
      · cases h
        exact hfailed hpc (by simp)
  | listen =>
      simp only [hpc] at h
      split at h
      · cases h
        exact .quiet (hpc ▸ .listened)
      · cases h
        exact hfailed hpc (by simp)
  | accept =>
      simp only [hpc] at h
      split at h
      · split at h
        · rename_i hlisten
          cases h
          exact .accept hpc hlisten
        · cases h
      · cases h
        exact hfailed hpc (by simp)
  | connect =>
      simp only [hpc] at h
      split at h
      · cases h
        exact .quiet (hpc ▸ .connected)
      · cases h
        exact hfailed hpc (by simp)
  | recvTest started =>
      simp only [hpc] at h
      split at h
      · cases h
        exact .quiet (hpc ▸ .recvFinished started)
      · cases h
        exact .quiet (hpc ▸ .recv started)
  | recvCall started =>
      simp only [hpc] at h
      split at h
      · cases h
      · split at h
        · cases h
          exact .recvFailed hpc
        · cases started with
          | true =>
              cases h
              exact .received _ hpc
          | false =>
              cases h
              exact .receivedFirst _ hpc
  | recvReport n =>
      simp only [hpc] at h
      cases h
      exact .recvReport hpc
  | recvAdd n =>
      simp only [hpc] at h
      cases h
      exact .recvAdd hpc
  | sendReport =>
      simp only [hpc] at h
      cases h
      exact .sendReport hpc
  | sendTest =>
      simp only [hpc] at h
      split at h
      · cases h
        exact hfailed hpc (by simp)
      · cases h
        exact .quiet (hpc ▸ .send)
  | sendCall =>
      simp only [hpc] at h
      split at h
      · cases h
      · split at h
        · rename_i hret
          cases h
          exact .unsent hpc hret
        · cases h
          exact .sent _ hpc
  | sendAdd n =>
      simp only [hpc] at h
      cases h
      exact .sendAdd hpc
  | exit =>
      simp only [hpc] at h
      cases h
      exact .exit hpc
  | finish =>
      simp only [hpc] at h
      cases h
      exact .finish hpc

end Iperf

end EspHosted
