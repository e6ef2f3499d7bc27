import EspHosted.Cli.Session
import EspHosted.Usart.ReceiveStream

/-!
# The console

The receive interrupt of the UART puts what arrives into `rx_buffer`. `cli_thread` takes the
bytes out one by one and hands each to `microrl_insert_char`. The interrupt comes between any
two statements of the thread.
-/

namespace EspHosted

namespace CommandLine

open EspHosted.Bytes EspHosted.Simulation Machine

open RingBuffer (Shared RxInv Intact rxStep TmBuffer tmBufferInit)

/-- `inserted` is how many of the bytes that were read `microrl_insert_char` got, and `calls`
is a log of what each of them called. -/
structure Console where
  rx : Shared
  rl : Option Microrl
  inserted : ℕ
  calls : List (List Output)

inductive ConsoleAction where
  /-- `HAL_UARTEx_RxEventCallback` -/
  | rxEvent (data : List UInt8)
  /-- `get_rx_data (buffer, 1, 1000)` up to the first statement of its read. -/
  | getRxData
  /-- The next statement of that read. -/
  | task
  /-- `microrl_insert_char (&rl, buffer [0])` for a byte that was read. -/
  | insertChar
  deriving DecidableEq

def Console.start (b : TmBuffer) : Console where
  rx := .start b
  rl := some microrlInit
  inserted := 0
  calls := []

def consoleStep (s : Console) : ConsoleAction → Option Console
  | .rxEvent data => (rxStep s.rx (.rxEvent data)).map fun rx => { s with rx := rx }
  | .getRxData =>
      if s.inserted = s.rx.read.length then
        (rxStep s.rx (.getRxData 1)).map fun rx => { s with rx := rx }
      else
        none
  | .task => (rxStep s.rx .task).map fun rx => { s with rx := rx }
  | .insertChar =>
      s.rx.read[s.inserted]?.map fun ch =>
        { s with
          rl := (cliThread s.rl ch).1
          inserted := s.inserted + 1
          calls := s.calls ++ [(cliThread s.rl ch).2] }

/-- The bytes that the command line got. -/
def Console.fed (s : Console) : List UInt8 := s.rx.read.take s.inserted

/-- The bytes on their way to it. -/
def Console.waiting (s : Console) : List UInt8 :=
  s.rx.read.drop s.inserted ++ s.rx.r.taken ++ s.rx.b.unread

structure ConsoleInv (s : Console) : Prop where
  rx : RxInv s.rx
  inserted_le : s.inserted ≤ s.rx.read.length
  rl : s.rl = final cliThread (some microrlInit) s.fed
  calls : s.calls = trace cliThread (some microrlInit) s.fed

section Steps

variable {s t : Console}

theorem read_rxStep {rx rx' : Shared} {a : RingBuffer.RxAction} (h : rxStep rx a = some rx') :
    ∃ d, rx'.read = rx.read ++ d := by
  cases a with
  | rxEvent data =>
      cases h
      exact ⟨[], (List.append_nil _).symm⟩
  | getRxData bufferLength =>
      obtain ⟨-, hnext⟩ := Option.ite_none_right_eq_some.1 h
      cases hnext
      refine ⟨[], ?_⟩
      rw [RingBuffer.callRead, List.append_nil]
      split_ifs <;> rfl
  | task =>
      obtain ⟨-, hnext⟩ := Option.ite_none_left_eq_some.1 h
      cases hnext
      obtain ⟨b, w, r, written, read⟩ := rx
      cases r with
      | checkOut d => exact ⟨d, rfl⟩
      | getFull count =>
          refine ⟨[], ?_⟩
          simp only [RingBuffer.readStep, List.append_nil]
          split_ifs <;> rfl
      | _ => exact ⟨[], (List.append_nil _).symm⟩

/-- A step of the receive buffer does not touch what the command line got. -/
theorem ConsoleInv.rxStep (h : ConsoleInv s) {a : RingBuffer.RxAction} {rx : Shared}
    (hstep : rxStep s.rx a = some rx) : ConsoleInv { s with rx := rx } := by
  obtain ⟨d, hread⟩ := read_rxStep hstep
  have hfed : Console.fed { s with rx := rx } = s.fed := by
    rw [Console.fed, hread, List.take_append_of_le_length h.inserted_le]
    rfl
  refine ⟨h.rx.step hstep, ?_, h.rl.trans (by rw [hfed]), h.calls.trans (by rw [hfed])⟩
  rw [hread, List.length_append]
  exact Nat.le_add_right_of_le h.inserted_le

theorem ConsoleInv.insertChar (h : ConsoleInv s) {ch : UInt8}
    (hch : s.rx.read[s.inserted]? = some ch) :
    ConsoleInv { s with
      rl := (cliThread s.rl ch).1
      inserted := s.inserted + 1
      calls := s.calls ++ [(cliThread s.rl ch).2] } := by
  obtain ⟨hlt, -⟩ := List.getElem?_eq_some_iff.1 hch
  have hfed : s.rx.read.take (s.inserted + 1) = s.fed ++ [ch] := by
    rw [List.take_add_one, hch]
    rfl
  refine ⟨h.rx, hlt, ?_, ?_⟩
  · rw [Console.fed, hfed, final_concat, h.rl]
  · rw [Console.fed, hfed, trace_concat, h.calls, h.rl]

theorem ConsoleInv.step (h : ConsoleInv s) {a : ConsoleAction} (hstep : consoleStep s a = some t) :
    ConsoleInv t := by
  cases a with
  | rxEvent data =>
      rw [consoleStep] at hstep
      obtain ⟨rx, hrx, rfl⟩ := Option.map_eq_some_iff.1 hstep
      exact h.rxStep hrx
  | getRxData =>
      obtain ⟨-, hnext⟩ := Option.ite_none_right_eq_some.1 hstep
      obtain ⟨rx, hrx, rfl⟩ := Option.map_eq_some_iff.1 hnext
      exact h.rxStep hrx
  | task =>
      rw [consoleStep] at hstep
      obtain ⟨rx, hrx, rfl⟩ := Option.map_eq_some_iff.1 hstep
      exact h.rxStep hrx
  | insertChar =>
      rw [consoleStep] at hstep
      obtain ⟨ch, hch, rfl⟩ := Option.map_eq_some_iff.1 hstep
      exact h.insertChar hch

theorem ConsoleInv.start {b : TmBuffer} (h : RingBuffer.Inv (.start b)) :
    ConsoleInv (.start b) :=
  ⟨⟨h, rfl⟩, Nat.le_refl 0, rfl, rfl⟩

theorem ConsoleInv.fed_append_waiting (h : ConsoleInv s) : s.fed ++ s.waiting = s.rx.written := by
  have hpending : s.rx.w.pending = [] := by
    rw [h.rx.idle]
    rfl
  have hstream := h.rx.inv.intact.stream
  rw [hpending, List.append_nil] at hstream
  rw [← hstream, Console.fed, Console.waiting, ← List.append_assoc, ← List.append_assoc,
    List.take_append_drop]

end Steps

/-! ## The thread alone -/

section Turns

variable {s t : Console}

/-- `cli_thread` is about to read. -/
structure Settled (s : Console) : Prop where
  inv : ConsoleInv s
  idle : s.rx.r = .idle
  inserted : s.inserted = s.rx.read.length

/-- The actions of `cli_thread`. -/
def ConsoleAction.isThread : ConsoleAction → Bool
  | .rxEvent _ => false
  | _ => true

/-- `t` is where `cli_thread` can go while nothing arrives. -/
def Leads (s t : Console) : Prop :=
  ∃ as : List ConsoleAction, (∀ a ∈ as, a.isThread = true) ∧ run consoleStep s as = some t ∧
    t.rx.written = s.rx.written

theorem Leads.trans {u : Console} (hst : Leads s t) (htu : Leads t u) : Leads s u := by
  obtain ⟨as, has, hrun, hwritten⟩ := hst
  obtain ⟨bs, hbs, hrun', hwritten'⟩ := htu
  refine ⟨as ++ bs, fun a ha => ?_, ?_, hwritten'.trans hwritten⟩
  · exact (List.mem_append.1 ha).elim (has a) (hbs a)
  · rw [run_append, hrun]
    exact hrun'

theorem Leads.inv (h : Leads s t) (hinv : ConsoleInv s) : ConsoleInv t := by
  obtain ⟨as, -, hrun, -⟩ := h
  exact run_invariant consoleStep (fun _ _ _ h hstep => h.step hstep) hinv hrun

/-- The statements of a read. -/
theorem run_task {k : ℕ} {rx : Shared}
    (hrun : run RingBuffer.step s.rx (List.replicate k .reader) = some rx) :
    run consoleStep s (List.replicate k .task) = some { s with rx := rx } := by
  induction k generalizing s with
  | zero =>
      cases hrun
      rfl
  | succ k ih =>
      rw [List.replicate_succ, run_cons] at hrun ⊢
      obtain ⟨rx', hstep, hrest⟩ := Option.bind_eq_some_iff.1 hrun
      have htask : consoleStep s .task = some { s with rx := rx' } :=
        Option.map_eq_some_iff.2 ⟨rx', hstep, rfl⟩
      rw [htask]
      exact ih (s := { s with rx := rx' }) hrest

/-- The bytes that were read are inserted. -/
theorem leads_inserted (n : ℕ) (hn : s.inserted + n = s.rx.read.length) :
    ∃ t, Leads s t ∧ t.rx = s.rx ∧ t.inserted = s.rx.read.length := by
  induction n generalizing s with
  | zero => exact ⟨s, ⟨[], nofun, rfl, rfl⟩, rfl, hn⟩
  | succ n ih =>
      have hlt : s.inserted < s.rx.read.length := by omega
      have hch := List.getElem?_eq_getElem hlt
      obtain ⟨s', hs'⟩ : ∃ s', consoleStep s .insertChar = some s' :=
        ⟨_, Option.map_eq_some_iff.2 ⟨_, hch, rfl⟩⟩
      obtain ⟨ch, -, hnext⟩ := Option.map_eq_some_iff.1 hs'
      have hrx : s'.rx = s.rx := by rw [← hnext]
      have hinserted : s'.inserted = s.inserted + 1 := by rw [← hnext]
      obtain ⟨t, hleads, hrx', ht⟩ := ih (s := s') (by rw [hrx, hinserted]; omega)
      refine ⟨t, Leads.trans ⟨[.insertChar], ?_, ?_, by rw [hrx]⟩ hleads, hrx'.trans hrx, ?_⟩
      · intro a ha
        rw [List.mem_singleton.1 ha]
        rfl
      · rw [run_cons, hs']
        rfl
      · rw [ht, hrx]

/-- A turn of the thread gets the first byte that is there. -/
theorem Settled.turn (h : Settled s) {x : UInt8} {rest : List UInt8}
    (hunread : s.rx.b.unread = x :: rest) :
    ∃ t, Leads s t ∧ Settled t ∧ t.rx.b.unread = rest := by
  obtain ⟨contents, hcoherent⟩ := h.inv.rx.inv
  have hout : s.rx.b.outPos < s.rx.b.size := by
    have hreader := hcoherent.reader
    rwa [h.idle] at hreader
  have hbuffer : RingBuffer.Represents s.rx.b contents :=
    ⟨hcoherent.window, h.inv.rx.in_lt, hout⟩
  rw [hcoherent.window.unread_eq] at hunread
  obtain ⟨-, hread, -⟩ := hbuffer.read 1
  obtain ⟨k, hrun⟩ := RingBuffer.run_read h.idle 1
  have hturn : Leads s { s with rx := s.rx.readCall 1 } := by
    refine ⟨.getRxData :: List.replicate k .task, ?_, ?_, rfl⟩
    · intro a ha
      rcases List.mem_cons.1 ha with rfl | ha
      · rfl
      · rw [List.eq_of_mem_replicate ha]
        rfl
    · rw [run_cons] at hrun ⊢
      obtain ⟨rx, hstep, hrest⟩ := Option.bind_eq_some_iff.1 hrun
      have hpoll : consoleStep s .getRxData = some { s with rx := rx } :=
        (if_pos h.inserted).trans (Option.map_eq_some_iff.2 ⟨rx, hstep, rfl⟩)
      rw [hpoll]
      exact run_task hrest
  have hinv := hturn.inv h.inv
  obtain ⟨t, hleads, hrx, hinserted⟩ :=
    leads_inserted (s := { s with rx := s.rx.readCall 1 }) _
      (Nat.add_sub_cancel' hinv.inserted_le)
  refine ⟨t, hturn.trans hleads, ⟨hleads.inv hinv, ?_, ?_⟩, ?_⟩
  · rw [hrx]
    exact h.idle
  · rw [hinserted, hrx]
  · rw [hrx]
    have hrest : (s.rx.readCall 1).b.unread = contents.drop 1 := hread.window.unread_eq
    rw [hrest, hunread]
    rfl

end Turns

/-! ## Runs -/

/-- In every run of the interrupt and the thread: what the events handed over is what the
command line got and what is on its way to it. The command line is in the state that these
bytes make, and without `^K` what it called is what the editor calls. -/
theorem console_is_editor {size : ℕ} (hsize : 0 < size) {memory : Block}
    (hlength : memory.bytes.length = size) (hoverrun : memory.overrun = false) {b : TmBuffer}
    (hinit : tmBufferInit size (some memory) none = some b) {as : List ConsoleAction} {t : Console}
    (hrun : run consoleStep (.start b) as = some t) :
    t.fed ++ t.waiting = t.rx.written ∧
      (∃ m, t.rl = some m ∧ Shows m (final Session.feed .start t.fed)) ∧
      (11 ∉ t.fed → t.calls = trace Session.feed .start t.fed) := by
  have hinv : ConsoleInv t := run_invariant consoleStep (fun _ _ _ h hstep => h.step hstep)
    (.start (RingBuffer.inv_start hsize hlength hoverrun hinit)) hrun
  refine ⟨hinv.fed_append_waiting, ?_, fun hfed => ?_⟩
  · rw [hinv.rl]
    exact (tracks_final t.fed).shows
  · rw [hinv.calls]
    exact calls_eq_of_notMem hfed

/-- The thread gets one character. -/
def getChar : List ConsoleAction := .getRxData :: List.replicate 4 .task ++ [.insertChar]

/-- `ls` arrives, and the thread gets its first character. -/
def lsArrives : List ConsoleAction := .rxEvent [108, 115] :: getChar

theorem console_is_editor_ls :
    ∃ b t, tmBufferInit 255 (some (Block.calloc 255)) none = some b ∧
      run consoleStep (.start b) (lsArrives ++ getChar) = some t ∧ t.fed = [108, 115] ∧
      ∃ m, t.rl = some m ∧ Shows m (final Session.feed .start t.fed) := by
  refine ⟨_, (run consoleStep (.start _) (lsArrives ++ getChar)).get (by decide +kernel), rfl,
    (Option.some_get _).symm, by decide +kernel, ?_⟩
  exact (console_is_editor (by decide) List.length_replicate
    (rfl : (Block.calloc 255).overrun = false) rfl (Option.some_get _).symm).2.1

end CommandLine

end EspHosted
