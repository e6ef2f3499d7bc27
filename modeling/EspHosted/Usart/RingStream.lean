import EspHosted.Usart.RingDeque
import EspHosted.Usart.RingSteps

/-!
# The stream through the cyclic buffer

A writer and a reader interrupt each other at any statement. The stream is whole as long as
no read measures what is there while a write has left `In` at the end of the memory and
`Out` is at its start: then `TM_BUFFER_GetFull` takes an empty buffer for a full one.

The bytes that `get_rx_data` reads come from the receive interrupt, which no read interrupts.
There `In` is never seen at the end, and the stream is whole in every run.
-/

namespace EspHosted

namespace RingBuffer

open EspHosted.Bytes EspHosted.Ring Machine

/-- The bytes from `Out` to `In`, in two turns of the memory. -/
def TmBuffer.unread (b : TmBuffer) : List UInt8 :=
  slice (b.buffer.bytes ++ b.buffer.bytes) b.outPos ((b.inPos + b.size - b.outPos) % b.size)

/-- The bytes that a write took and has not handed over. -/
def WritePc.pending : WritePc → List UInt8
  | .memcpyEnd data => data
  | .addIn data _ => data
  | .clearIn data => data
  | .memcpyStart data => data
  | .setIn data => data
  | _ => []

/-- The bytes that a read gave up and has not returned. -/
def ReadPc.taken : ReadPc → List UInt8
  | .clearOut _ d => d
  | .memcpyStart _ d => d
  | .setOut _ d _ => d
  | .checkOut d => d
  | _ => []

/-- How many bytes a read is going to give up. -/
def ReadPc.asked : ReadPc → ℕ
  | .memcpyEnd count => count
  | .addOut count _ _ => count
  | .clearOut count _ => count
  | .memcpyStart count _ => count
  | .setOut count _ _ => count
  | _ => 0

def ReadPc.isGetFull : ReadPc → Bool
  | .getFull _ => true
  | _ => false

/-- What was read, what is there and what is being written are what was written, in its
order; no read goes for more than is there, and no byte was stored outside of the memory. -/
structure Intact (s : Shared) : Prop where
  stream : s.read ++ s.r.taken ++ s.b.unread ++ s.w.pending = s.written
  asked : s.r.asked ≤ s.b.unread.length
  overrun : s.b.buffer.overrun = false

/-- No read measures the buffer while `In` is at the end of the memory and `Out` at its
start. -/
def Apart (s : Shared) (a : Action) : Prop :=
  a = .reader → s.r.isGetFull = true → ¬ (s.b.inPos = s.b.size ∧ s.b.outPos = 0)

instance (s : Shared) (a : Action) : Decidable (Apart s a) :=
  inferInstanceAs (Decidable (_ → _ → _))

instance (s : Shared) : Decidable (Intact s) :=
  decidable_of_iff
    (s.read ++ s.r.taken ++ s.b.unread ++ s.w.pending = s.written ∧
      s.r.asked ≤ s.b.unread.length ∧ s.b.buffer.overrun = false)
    ⟨fun h => ⟨h.1, h.2.1, h.2.2⟩, fun h => ⟨h.stream, h.asked, h.overrun⟩⟩

theorem Window.unread_eq {b : TmBuffer} {contents : List UInt8} (h : Window b contents) :
    b.unread = contents := by
  have hroom := h.room
  have hle := h.out_le
  have hcount : (b.inPos + b.size - b.outPos) % b.size = contents.length := by
    rw [Nat.add_sub_assoc hle, ← Nat.mod_add_mod, h.in_mod, Nat.mod_add_mod]
    have hsum : b.outPos + contents.length + (b.size - b.outPos) = contents.length + b.size := by
      omega
    rw [hsum, Nat.add_mod_right, Nat.mod_eq_of_lt hroom]
  rw [TmBuffer.unread, hcount]
  refine h.holds.slice_twice ?_ ?_ <;> rw [h.length]
  · exact hle
  · exact Nat.le_of_lt hroom

/-! ## The invariant -/

/-- Where `In` stands at a statement of a write, and what of `data` was copied. -/
def WriterAt (b : TmBuffer) : WritePc → Prop
  | .idle => b.inPos < b.size
  | .getFree _ => b.inPos < b.size
  | .memcpyEnd _ => b.inPos < b.size
  | .addIn data tocopy =>
      tocopy = min (b.size - b.inPos) data.length ∧
        Holds b.buffer.bytes b.inPos (data.take tocopy)
  | .clearIn _ => b.inPos = b.size
  | .memcpyStart _ => b.inPos = 0
  | .setIn data => b.inPos = 0 ∧ Holds b.buffer.bytes b.inPos data
  | .checkIn => True

/-- Where `Out` stands at a statement of a read, and what was copied. -/
def ReaderAt (b : TmBuffer) (contents : List UInt8) : ReadPc → Prop
  | .idle => b.outPos < b.size
  | .getFull count => b.outPos < b.size ∧ 0 < count
  | .memcpyEnd count => b.outPos < b.size ∧ count ≤ contents.length
  | .addOut count tocopy d =>
      tocopy = min (b.size - b.outPos) count ∧ count ≤ contents.length ∧
        d = contents.take tocopy
  | .clearOut count _ => b.outPos = b.size ∧ count ≤ contents.length
  | .memcpyStart count _ => b.outPos = 0 ∧ count ≤ contents.length
  | .setOut count _ more =>
      b.outPos = 0 ∧ count ≤ contents.length ∧ more = contents.take count
  | .checkOut _ => True

/-- The buffer holds `contents` and both calls are where they should be. -/
structure Coherent (s : Shared) (contents : List UInt8) : Prop where
  window : Window s.b contents
  stream : s.read ++ s.r.taken ++ contents ++ s.w.pending = s.written
  room : contents.length + s.w.pending.length < s.b.size
  writer : WriterAt s.b s.w
  reader : ReaderAt s.b contents s.r

/-- A read does not see what is appended. -/
theorem ReaderAt.append {b b' : TmBuffer} {contents : List UInt8} {r : ReadPc}
    (h : ReaderAt b contents r) (hout : b'.outPos = b.outPos) (hsize : b'.size = b.size)
    (more : List UInt8) : ReaderAt b' (contents ++ more) r := by
  have hlength : contents.length ≤ (contents ++ more).length := by
    rw [List.length_append]
    exact Nat.le_add_right _ _
  have hlt : b.outPos < b.size → b'.outPos < b'.size := by
    rw [hout, hsize]
    exact id
  cases r with
  | idle => exact hlt h
  | getFull count => exact ⟨hlt h.1, h.2⟩
  | memcpyEnd count => exact ⟨hlt h.1, Nat.le_trans h.2 hlength⟩
  | addOut count tocopy d =>
      obtain ⟨htocopy, hcount, hd⟩ := h
      refine ⟨by rw [hout, hsize, htocopy], Nat.le_trans hcount hlength, ?_⟩
      rw [hd, List.take_append_of_le_length]
      exact Nat.le_trans (Nat.le_trans (Nat.le_of_eq htocopy) (Nat.min_le_right _ _)) hcount
  | clearOut count d => exact ⟨by rw [hout, hsize, h.1], Nat.le_trans h.2 hlength⟩
  | memcpyStart count d => exact ⟨by rw [hout, h.1], Nat.le_trans h.2 hlength⟩
  | setOut count d more' =>
      refine ⟨by rw [hout, h.1], Nat.le_trans h.2.1 hlength, ?_⟩
      rw [h.2.2, List.take_append_of_le_length h.2.1]
  | checkOut d => trivial

/-- A write does not see `Out`. -/
theorem WriterAt.setOut {b : TmBuffer} {w : WritePc} (h : WriterAt b w) (outPos : ℕ) :
    WriterAt (b.setOut outPos) w := by
  cases w <;> exact h

theorem ReaderAt.asked_le {b : TmBuffer} {contents : List UInt8} {r : ReadPc}
    (h : ReaderAt b contents r) : r.asked ≤ contents.length := by
  cases r with
  | memcpyEnd count => exact h.2
  | addOut count tocopy d => exact h.2.1
  | clearOut count d => exact h.2
  | memcpyStart count d => exact h.2
  | setOut count d more => exact h.2.1
  | _ => exact Nat.zero_le _

theorem Coherent.intact {s : Shared} {contents : List UInt8} (h : Coherent s contents) :
    Intact s := by
  have hunread := h.window.unread_eq
  exact ⟨by rw [hunread, h.stream], by rw [hunread]; exact h.reader.asked_le, h.window.overrun⟩

section Writer

variable {s : Shared} {contents : List UInt8}

theorem Coherent.callWrite (h : Coherent s contents) (hw : s.w = .idle) (data : List UInt8) :
    Coherent (callWrite s data) contents := by
  obtain ⟨b, w, r, written, read⟩ := s
  cases hw
  obtain ⟨hwindow, hstream, hroom, hwriter, hreader⟩ := h
  rw [RingBuffer.callWrite]
  split_ifs with hnone
  · exact ⟨hwindow, hstream, hroom, hwriter, hreader⟩
  · simp only [checkIn_of_lt hwriter]
    exact ⟨hwindow, hstream, hroom, hwriter, hreader⟩

/-- A statement of a write appends what it hands over. -/
theorem Coherent.writeStep (h : Coherent s contents) :
    ∃ more, Coherent (writeStep s) (contents ++ more) := by
  obtain ⟨b, w, r, written, read⟩ := s
  obtain ⟨hwindow, hstream, hroom, hwriter, hreader⟩ := h
  dsimp only at hwindow hstream hroom hwriter hreader
  cases w with
  | idle => exact ⟨[], by rw [List.append_nil]; exact ⟨hwindow, hstream, hroom, hwriter, hreader⟩⟩
  | getFree data =>
      refine ⟨[], ?_⟩
      rw [List.append_nil]
      have hfree : tmBufferGetFree b = b.size - 1 - contents.length :=
        hwindow.getFree_eq hwriter
      have hstart : read ++ r.taken ++ contents = written := (List.append_nil _).symm.trans hstream
      simp only [RingBuffer.writeStep]
      split_ifs
      · exact ⟨hwindow, hstream, hroom, hwriter, hreader⟩
      · refine ⟨hwindow, ?_, ?_, hwriter, hreader⟩
        · rw [← hstart]
          rfl
        · have hroom' : contents.length < b.size := hwindow.room
          change contents.length + (data.take (min (tmBufferGetFree b) data.length)).length < b.size
          rw [List.length_take]
          omega
  | memcpyEnd data =>
      refine ⟨[], ?_⟩
      rw [List.append_nil]
      have hin : b.inPos < b.size := hwriter
      rw [WritePc.pending] at hroom
      have htake : (data.take (min (b.size - b.inPos) data.length)).length =
          min (b.size - b.inPos) data.length := by
        rw [List.length_take]
        omega
      obtain ⟨hcopied, hholds⟩ := hwindow.memcpyIn hin
        (data.take (min (b.size - b.inPos) data.length)) (by omega) (by omega)
      exact ⟨hcopied, hstream, hroom, ⟨rfl, hholds⟩, hreader⟩
  | addIn data tocopy =>
      obtain ⟨htocopy, hholds⟩ := hwriter
      have hle := hwindow.in_le
      have htake : (data.take tocopy).length = tocopy := by
        rw [List.length_take]
        omega
      rw [WritePc.pending] at hroom hstream
      have hadd := hwindow.addIn hholds (by omega) (by omega)
      rw [htake] at hadd
      have hreader' : ReaderAt (b.setIn (b.inPos + tocopy)) _ r :=
        hreader.append rfl rfl (data.take tocopy)
      have hlength : (contents ++ data.take tocopy).length = contents.length + tocopy := by
        rw [List.length_append, htake]
      have hdata : read ++ r.taken ++ (contents ++ data.take tocopy) ++ data.drop tocopy =
          written := by
        rw [← hstream, List.append_assoc _ (contents ++ _), List.append_assoc contents,
          List.take_append_drop, ← List.append_assoc]
      refine ⟨data.take tocopy, ?_⟩
      simp only [RingBuffer.writeStep]
      split_ifs with hrest
      · rw [List.length_drop] at hrest
        refine ⟨hadd, hdata, ?_, ?_, hreader'⟩
        · change (contents ++ data.take tocopy).length + (data.drop tocopy).length < b.size
          rw [hlength, List.length_drop]
          omega
        · change b.inPos + tocopy = b.size
          omega
      · have hnil : data.drop tocopy = [] := List.length_eq_zero_iff.1 (by omega)
        rw [hnil] at hdata
        refine ⟨hadd, hdata, ?_, trivial, hreader'⟩
        change (contents ++ data.take tocopy).length + 0 < b.size
        rw [hlength]
        omega
  | clearIn data =>
      refine ⟨[], ?_⟩
      rw [List.append_nil]
      exact ⟨hwindow.clearIn hwriter, hstream, hroom, rfl, hreader⟩
  | memcpyStart data =>
      refine ⟨[], ?_⟩
      rw [List.append_nil]
      have hin : b.inPos = 0 := hwriter
      rw [WritePc.pending] at hroom
      obtain ⟨hcopied, hholds⟩ := hwindow.memcpyIn (by omega) data hroom (by omega)
      exact ⟨hcopied, hstream, hroom, ⟨hin, hholds⟩, hreader⟩
  | setIn data =>
      obtain ⟨hin, hholds⟩ := hwriter
      rw [WritePc.pending] at hroom hstream
      have hadd := hwindow.addIn hholds hroom (by omega)
      rw [hin, Nat.zero_add] at hadd
      refine ⟨data, hadd, ?_, ?_, trivial, hreader.append rfl rfl data⟩
      · rw [← hstream, List.append_assoc _ contents]
        exact List.append_nil _
      · change (contents ++ data).length + 0 < b.size
        rw [List.length_append]
        exact hroom
  | checkIn =>
      refine ⟨[], ?_⟩
      rw [List.append_nil]
      obtain ⟨hchecked, hin⟩ := hwindow.checkIn
      have hreader' := hreader.append (outPos_checkIn b) (size_checkIn b) []
      rw [List.append_nil] at hreader'
      refine ⟨hchecked, hstream, ?_, ?_, hreader'⟩
      · change contents.length + 0 < b.checkIn.size
        rw [size_checkIn]
        exact hroom
      · change b.checkIn.inPos < b.checkIn.size
        rw [size_checkIn]
        exact hin

end Writer

section Reader

variable {s : Shared} {contents : List UInt8}

theorem Coherent.callRead (h : Coherent s contents) (hr : s.r = .idle) (count : ℕ) :
    Coherent (callRead s count) contents := by
  obtain ⟨b, w, r, written, read⟩ := s
  cases hr
  obtain ⟨hwindow, hstream, hroom, hwriter, hreader⟩ := h
  rw [RingBuffer.callRead]
  split_ifs with hnone
  · exact ⟨hwindow, hstream, hroom, hwriter, hreader⟩
  · simp only [checkOut_of_lt hreader]
    exact ⟨hwindow, hstream, hroom, hwriter, hreader, Nat.pos_of_ne_zero hnone⟩

/-- A statement of a read takes what it gives up from the front. -/
theorem Coherent.readStep (h : Coherent s contents)
    (hapart : s.r.isGetFull = true → ¬ (s.b.inPos = s.b.size ∧ s.b.outPos = 0)) :
    ∃ n, Coherent (readStep s) (contents.drop n) := by
  obtain ⟨b, w, r, written, read⟩ := s
  obtain ⟨hwindow, hstream, hroom, hwriter, hreader⟩ := h
  dsimp only at hwindow hstream hroom hwriter hreader hapart
  have hless : ∀ n, (contents.drop n).length + w.pending.length < b.size := by
    intro n
    rw [List.length_drop]
    omega
  cases r with
  | idle => exact ⟨0, hwindow, hstream, hroom, hwriter, hreader⟩
  | getFull count =>
      obtain ⟨hout, hcount⟩ := hreader
      have hfull := hwindow.getFull_eq hout (hapart rfl)
      refine ⟨0, ?_⟩
      simp only [RingBuffer.readStep]
      split_ifs
      · exact ⟨hwindow, hstream, hroom, hwriter, hout⟩
      · refine ⟨hwindow, hstream, hroom, hwriter, hout, ?_⟩
        rw [hfull]
        exact Nat.min_le_left _ _
  | memcpyEnd count =>
      obtain ⟨hout, hcount⟩ := hreader
      have hd := hwindow.memcpyOut_eq (n := min (b.size - b.outPos) count) (by omega) hout
        (by omega)
      exact ⟨0, hwindow, hstream, hroom, hwriter, rfl, hcount, hd⟩
  | addOut count tocopy d =>
      obtain ⟨htocopy, hcount, hd⟩ := hreader
      have hle := hwindow.out_le
      have hadd := hwindow.addOut (n := tocopy) (by omega) (by omega)
      have hstream' : read ++ d ++ contents.drop tocopy ++ w.pending = written := by
        rw [← hstream, hd, List.append_assoc read, List.take_append_drop]
        exact congrArg (· ++ _) (congrArg (· ++ _) (List.append_nil read).symm)
      refine ⟨tocopy, ?_⟩
      simp only [RingBuffer.readStep]
      split_ifs with hmore
      · refine ⟨hadd, hstream', hless tocopy, hwriter.setOut _, ?_, ?_⟩
        · change b.outPos + tocopy = b.size
          omega
        · rw [List.length_drop]
          omega
      · exact ⟨hadd, hstream', hless tocopy, hwriter.setOut _, trivial⟩
  | clearOut count d =>
      obtain ⟨hout, hcount⟩ := hreader
      exact ⟨0, hwindow.clearOut hout, hstream, hroom, hwriter.setOut _, rfl, hcount⟩
  | memcpyStart count d =>
      obtain ⟨hout, hcount⟩ := hreader
      have hroom' := hwindow.room
      have hd := hwindow.memcpyOut_eq (n := count) hcount (by omega) (by omega)
      exact ⟨0, hwindow, hstream, hroom, hwriter, hout, hcount, hd⟩
  | setOut count d more =>
      obtain ⟨hout, hcount, hmore⟩ := hreader
      have hroom' := hwindow.room
      have hadd := hwindow.addOut (n := count) hcount (by omega)
      rw [hout, Nat.zero_add] at hadd
      refine ⟨count, hadd, ?_, hless count, hwriter.setOut _, trivial⟩
      rw [← hstream, hmore]
      change read ++ (d ++ contents.take count) ++ contents.drop count ++ w.pending =
        read ++ d ++ contents ++ w.pending
      rw [← List.append_assoc read, List.append_assoc (read ++ d), List.take_append_drop]
  | checkOut d =>
      obtain ⟨hchecked, hout⟩ := hwindow.checkOut
      refine ⟨0, hchecked, ?_, ?_, ?_, ?_⟩
      · rw [← hstream]
        change read ++ d ++ [] ++ contents ++ w.pending = read ++ d ++ contents ++ w.pending
        rw [List.append_nil]
      · change contents.length + w.pending.length < b.checkOut.size
        rw [size_checkOut]
        exact hroom
      · change WriterAt b.checkOut w
        rw [TmBuffer.checkOut]
        split_ifs
        · exact hwriter.setOut 0
        · exact hwriter
      · change b.checkOut.outPos < b.checkOut.size
        rw [size_checkOut]
        exact hout

/-- A read that takes an empty buffer for a full one goes for bytes that are not there. -/
theorem Coherent.not_intact (h : Coherent s contents) (hgetFull : s.r.isGetFull = true)
    (hends : s.b.inPos = s.b.size ∧ s.b.outPos = 0) : ¬ Intact (RingBuffer.readStep s) := by
  obtain ⟨b, w, r, written, read⟩ := s
  obtain ⟨hwindow, -, -, -, hreader⟩ := h
  dsimp only at hwindow hreader hends
  cases r with
  | getFull count =>
      obtain ⟨hfull, hnone⟩ := hwindow.getFull_of_ends hends.1 hends.2
      have hroom := hwindow.room
      have hunread : b.unread = [] := hwindow.unread_eq.trans hnone
      simp only [RingBuffer.readStep]
      rw [if_neg (by omega)]
      intro hintact
      have hasked : min (tmBufferGetFull b) count ≤ b.unread.length := hintact.asked
      rw [hunread, List.length_nil, hfull] at hasked
      have hpos : 0 < count := hreader.2
      omega
  | _ => cases hgetFull

end Reader

/-! ## Runs -/

section Runs

variable {s s' : Shared} {a : Action}

def Inv (s : Shared) : Prop := ∃ contents, Coherent s contents

theorem Inv.step (h : Inv s) (hapart : Apart s a) (hstep : step s a = some s') : Inv s' := by
  obtain ⟨contents, h⟩ := h
  cases a with
  | write data =>
      by_cases hw : s.w = .idle
      · rw [RingBuffer.step, if_pos hw] at hstep
        cases hstep
        exact ⟨contents, h.callWrite hw data⟩
      · rw [RingBuffer.step, if_neg hw] at hstep
        cases hstep
  | writer =>
      by_cases hw : s.w = .idle
      · rw [RingBuffer.step, if_pos hw] at hstep
        cases hstep
      · rw [RingBuffer.step, if_neg hw] at hstep
        cases hstep
        obtain ⟨more, hnext⟩ := h.writeStep
        exact ⟨_, hnext⟩
  | read count =>
      by_cases hr : s.r = .idle
      · rw [RingBuffer.step, if_pos hr] at hstep
        cases hstep
        exact ⟨contents, h.callRead hr count⟩
      · rw [RingBuffer.step, if_neg hr] at hstep
        cases hstep
  | reader =>
      by_cases hr : s.r = .idle
      · rw [RingBuffer.step, if_pos hr] at hstep
        cases hstep
      · rw [RingBuffer.step, if_neg hr] at hstep
        cases hstep
        obtain ⟨n, hnext⟩ := h.readStep (hapart rfl)
        exact ⟨_, hnext⟩

theorem Inv.intact (h : Inv s) : Intact s := by
  obtain ⟨contents, h⟩ := h
  exact h.intact

theorem Inv.apart_of_intact (h : Inv s) (hstep : RingBuffer.step s a = some s')
    (hintact : Intact s') : Apart s a := by
  rintro rfl hgetFull hends
  obtain ⟨contents, h⟩ := h
  by_cases hr : s.r = .idle
  · rw [RingBuffer.step, if_pos hr] at hstep
    cases hstep
  · rw [RingBuffer.step, if_neg hr] at hstep
    cases hstep
    exact h.not_intact hgetFull hends hintact

theorem Represents.inv {b : TmBuffer} (h : Represents b []) : Inv (.start b) :=
  ⟨[], h.window, rfl, h.window.room, h.in_lt, h.out_lt⟩

theorem inv_start {size : ℕ} (hsize : 0 < size) {memory : Block}
    (hlength : memory.bytes.length = size) (hoverrun : memory.overrun = false) {b : TmBuffer}
    (hinit : tmBufferInit size (some memory) none = some b) : Inv (.start b) := by
  cases hinit
  exact (represents_init hsize hlength hoverrun).inv

end Runs

/-- For every interleaving of the statements of a writer and a reader: the stream is whole in
every state exactly when no read measures the buffer while `In` is at the end of the memory
and `Out` at its start. -/
theorem always_intact_iff {size : ℕ} (hsize : 0 < size) {memory : Block}
    (hlength : memory.bytes.length = size) (hoverrun : memory.overrun = false) {b : TmBuffer}
    (hinit : tmBufferInit size (some memory) none = some b) {as : List Action} {t : Shared}
    (hrun : run step (.start b) as = some t) :
    Always step Intact (.start b) as ↔ Along step Apart (.start b) as :=
  always_iff_along_of_core step (fun _ h => h.intact)
    (fun _ _ _ h hapart hstep => h.step hapart hstep)
    (fun _ _ _ h hstep hintact => h.apart_of_intact hstep hintact)
    (inv_start hsize hlength hoverrun hinit) hrun

/-- A read that comes between two statements of a write, in a buffer of 2 bytes: the byte 8
was read, `In` is at the end, and the next read gets the bytes that were there before. -/
def staleRead : List Action :=
  .write [7] :: List.replicate 4 .writer ++ .read 1 :: List.replicate 4 .reader ++
    .write [8] :: List.replicate 3 .writer ++ .read 1 :: List.replicate 4 .reader ++
    .read 1 :: List.replicate 2 .reader

theorem always_intact_iff_two :
    ∃ b, tmBufferInit 2 (some (Block.calloc 2)) none = some b ∧
      (run step (.start b) staleRead).isSome = true ∧
      ¬ Always step Intact (.start b) staleRead := by
  refine ⟨_, rfl, by decide, ?_⟩
  rw [always_intact_iff (by decide : 0 < 2) (rfl : (Block.calloc 2).bytes.length = 2) rfl rfl
    (t := (run step (.start _) staleRead).get (by decide)) (Option.some_get _).symm]
  decide

end RingBuffer

end EspHosted
