import EspHosted.Lib.Machine
import EspHosted.Usart.RingBuffer

/-!
# A writer and a reader of one cyclic buffer

`TM_BUFFER_Write` and `TM_BUFFER_Read` statement by statement, so that one of them may be
interrupted by the other. `In` is stored by the writer alone and `Out` by the reader alone,
and each of them loads the position of the other once, in `TM_BUFFER_GetFree` and in
`TM_BUFFER_GetFull`. A copy is one step: a copy into the buffer and a copy out of it
touch different places, as long as the reader copies only what is there.

`written` and `read` are logs that no branch reads: the bytes that the writes took, and
those that the reads returned.
-/

namespace EspHosted

namespace RingBuffer

open EspHosted.Bytes Machine

/-- The next statement of `TM_BUFFER_Write`. `data` are the bytes that are still to be
written, `tocopy` is how many of them go to the end of the memory. -/
inductive WritePc where
  | idle
  | getFree (data : List UInt8)
  | memcpyEnd (data : List UInt8)
  | addIn (data : List UInt8) (tocopy : ℕ)
  | clearIn (data : List UInt8)
  | memcpyStart (data : List UInt8)
  | setIn (data : List UInt8)
  | checkIn
  deriving DecidableEq

/-- The next statement of `TM_BUFFER_Read`. `d` is what was copied so far, `more` what the
second copy gave. -/
inductive ReadPc where
  | idle
  | getFull (count : ℕ)
  | memcpyEnd (count : ℕ)
  | addOut (count tocopy : ℕ) (d : List UInt8)
  | clearOut (count : ℕ) (d : List UInt8)
  | memcpyStart (count : ℕ) (d : List UInt8)
  | setOut (count : ℕ) (d more : List UInt8)
  | checkOut (d : List UInt8)
  deriving DecidableEq

structure Shared where
  b : TmBuffer
  w : WritePc
  r : ReadPc
  written : List UInt8
  read : List UInt8
  deriving DecidableEq

/-- A call, or the next statement of the one that runs. -/
inductive Action where
  | write (data : List UInt8)
  | writer
  | read (count : ℕ)
  | reader
  deriving DecidableEq

/-- Nobody writes and nobody reads. -/
def Shared.start (b : TmBuffer) : Shared where
  b := b
  w := .idle
  r := .idle
  written := []
  read := []

/-- `TM_BUFFER_Write` up to `TM_BUFFER_GetFree`. -/
def callWrite (s : Shared) (data : List UInt8) : Shared :=
  if data.length = 0 then s else { s with b := s.b.checkIn, w := .getFree data }

/-- `TM_BUFFER_Read` up to `TM_BUFFER_GetFull`. -/
def callRead (s : Shared) (count : ℕ) : Shared :=
  if count = 0 then s else { s with b := s.b.checkOut, r := .getFull count }

def writeStep (s : Shared) : Shared :=
  match s.w with
  | .idle => s
  | .getFree data =>
      let free := tmBufferGetFree s.b
      if free < data.length ∧ free = 0 then
        { s with w := .idle }
      else
        let taken := data.take (min free data.length)
        { s with w := .memcpyEnd taken, written := s.written ++ taken }
  | .memcpyEnd data =>
      let tocopy := min (s.b.size - s.b.inPos) data.length
      { s with b := s.b.memcpyIn (data.take tocopy), w := .addIn data tocopy }
  | .addIn data tocopy =>
      let rest := data.drop tocopy
      { s with
        b := s.b.setIn (s.b.inPos + tocopy)
        w := if 0 < rest.length then .clearIn rest else .checkIn }
  | .clearIn data => { s with b := s.b.setIn 0, w := .memcpyStart data }
  | .memcpyStart data => { s with b := s.b.memcpyIn data, w := .setIn data }
  | .setIn data => { s with b := s.b.setIn data.length, w := .checkIn }
  | .checkIn => { s with b := s.b.checkIn, w := .idle }

def readStep (s : Shared) : Shared :=
  match s.r with
  | .idle => s
  | .getFull count =>
      let full := tmBufferGetFull s.b
      if full < count ∧ full = 0 then
        { s with r := .idle }
      else
        { s with r := .memcpyEnd (min full count) }
  | .memcpyEnd count =>
      let tocopy := min (s.b.size - s.b.outPos) count
      { s with r := .addOut count tocopy (s.b.memcpyOut tocopy) }
  | .addOut count tocopy d =>
      { s with
        b := s.b.setOut (s.b.outPos + tocopy)
        r := if 0 < count - tocopy then .clearOut (count - tocopy) d else .checkOut d }
  | .clearOut count d => { s with b := s.b.setOut 0, r := .memcpyStart count d }
  | .memcpyStart count d => { s with r := .setOut count d (s.b.memcpyOut count) }
  | .setOut count d more => { s with b := s.b.setOut count, r := .checkOut (d ++ more) }
  | .checkOut d => { s with b := s.b.checkOut, r := .idle, read := s.read ++ d }

def step (s : Shared) : Action → Option Shared
  | .write data => if s.w = .idle then some (callWrite s data) else none
  | .writer => if s.w = .idle then none else some (writeStep s)
  | .read count => if s.r = .idle then some (callRead s count) else none
  | .reader => if s.r = .idle then none else some (readStep s)

/-! ## The statements of a call are the call -/

section Calls

/-- A whole write, when no other one runs. -/
def Shared.write (s : Shared) (data : List UInt8) : Shared :=
  { s with
    b := (tmBufferWrite s.b data).1
    written := s.written ++ data.take (tmBufferWrite s.b data).2 }

/-- A whole read, when no other one runs. -/
def Shared.readCall (s : Shared) (count : ℕ) : Shared :=
  { s with
    b := (tmBufferRead s.b count).1
    read := s.read ++ (tmBufferRead s.b count).2 }

variable {s s' : Shared}

theorem run_next {a : Action} {as : List Action} (h : step s a = some s') :
    run step s (a :: as) = run step s' as := by
  rw [run_cons, h]
  rfl

theorem step_writer (hw : s.w ≠ .idle) : step s .writer = some (writeStep s) := if_neg hw

theorem step_reader (hr : s.r ≠ .idle) : step s .reader = some (readStep s) := if_neg hr

/-- The two copies of a write, statement by statement. -/
theorem run_copyIn {data : List UInt8} (hw : s.w = .memcpyEnd data) :
    ∃ k, run step s (List.replicate k .writer) =
      some { s with b := s.b.copyIn data, w := .idle } := by
  obtain ⟨b, w, r, written, read⟩ := s
  cases hw
  by_cases hrest : 0 < (data.drop (min (b.size - b.inPos) data.length)).length
  · exact ⟨6, by simp only [List.replicate, run, step, writeStep, hrest, reduceCtorEq, if_false,
      if_true, Option.bind_some, TmBuffer.copyIn]⟩
  · exact ⟨3, by simp only [List.replicate, run, step, writeStep, hrest, reduceCtorEq, if_false,
      Option.bind_some, TmBuffer.copyIn]⟩

/-- A write that is not interrupted is `TM_BUFFER_Write`. -/
theorem run_write (hw : s.w = .idle) (data : List UInt8) :
    ∃ k, run step s (.write data :: List.replicate k .writer) = some (s.write data) := by
  have hcall : step s (.write data) = some (callWrite s data) := if_pos hw
  by_cases hnone : data.length = 0
  · refine ⟨0, ?_⟩
    rw [run_next hcall, callWrite, Shared.write, tmBufferWrite, if_pos hnone, if_pos hnone,
      List.take_zero, List.append_nil]
    rfl
  have hstart : callWrite s data = { s with b := s.b.checkIn, w := .getFree data } := if_neg hnone
  by_cases hfree : tmBufferGetFree s.b.checkIn < data.length ∧ tmBufferGetFree s.b.checkIn = 0
  · refine ⟨1, ?_⟩
    have hnext : writeStep (callWrite s data) = { s with b := s.b.checkIn } := by
      rw [hstart]
      simp only [writeStep, if_pos hfree, ← hw]
    rw [run_next hcall, List.replicate_one, run_next (step_writer (by rw [hstart]; rintro ⟨⟩)),
      hnext, Shared.write, tmBufferWrite, if_neg hnone]
    simp only [if_pos hfree, List.take_zero, List.append_nil]
    rfl
  · have hnext : writeStep (callWrite s data) =
        { s with
          b := s.b.checkIn
          w := .memcpyEnd (data.take (min (tmBufferGetFree s.b.checkIn) data.length))
          written := s.written ++
            data.take (min (tmBufferGetFree s.b.checkIn) data.length) } := by
      rw [hstart]
      simp only [writeStep, if_neg hfree]
    obtain ⟨k, hk⟩ := run_copyIn (s := writeStep (callWrite s data)) (by rw [hnext])
    refine ⟨k + 1, ?_⟩
    rw [run_next hcall, List.replicate_succ, run_next (step_writer (by rw [hstart]; rintro ⟨⟩)), hk,
      hnext, Shared.write, tmBufferWrite, if_neg hnone]
    simp only [if_neg hfree, ← hw]

/-- The two copies of a read, statement by statement. -/
theorem run_copyOut {count : ℕ} (hr : s.r = .memcpyEnd count) :
    ∃ k, run step s (List.replicate k .reader) =
      some { s with
        b := (s.b.copyOut count).1
        r := .idle
        read := s.read ++ (s.b.copyOut count).2 } := by
  obtain ⟨b, w, r, written, read⟩ := s
  cases hr
  by_cases hrest : 0 < count - min (b.size - b.outPos) count
  · exact ⟨6, by simp only [List.replicate, run, step, readStep, hrest, reduceCtorEq, if_false,
      if_true, Option.bind_some, TmBuffer.copyOut]⟩
  · exact ⟨3, by simp only [List.replicate, run, step, readStep, hrest, reduceCtorEq, if_false,
      Option.bind_some, TmBuffer.copyOut]⟩

/-- A read that is not interrupted is `TM_BUFFER_Read`. -/
theorem run_read (hr : s.r = .idle) (count : ℕ) :
    ∃ k, run step s (.read count :: List.replicate k .reader) = some (s.readCall count) := by
  have hcall : step s (.read count) = some (callRead s count) := if_pos hr
  by_cases hnone : count = 0
  · refine ⟨0, ?_⟩
    rw [run_next hcall, callRead, Shared.readCall, tmBufferRead, if_pos hnone, if_pos hnone,
      List.append_nil]
    rfl
  have hstart : callRead s count = { s with b := s.b.checkOut, r := .getFull count } :=
    if_neg hnone
  by_cases hfull : tmBufferGetFull s.b.checkOut < count ∧ tmBufferGetFull s.b.checkOut = 0
  · refine ⟨1, ?_⟩
    have hnext : readStep (callRead s count) = { s with b := s.b.checkOut } := by
      rw [hstart]
      simp only [readStep, if_pos hfull, ← hr]
    rw [run_next hcall, List.replicate_one, run_next (step_reader (by rw [hstart]; rintro ⟨⟩)),
      hnext, Shared.readCall, tmBufferRead, if_neg hnone]
    simp only [if_pos hfull, List.append_nil]
    rfl
  · have hnext : readStep (callRead s count) =
        { s with
          b := s.b.checkOut
          r := .memcpyEnd (min (tmBufferGetFull s.b.checkOut) count) } := by
      rw [hstart]
      simp only [readStep, if_neg hfull]
    obtain ⟨k, hk⟩ := run_copyOut (s := readStep (callRead s count)) (by rw [hnext])
    refine ⟨k + 1, ?_⟩
    rw [run_next hcall, List.replicate_succ, run_next (step_reader (by rw [hstart]; rintro ⟨⟩)), hk,
      hnext, Shared.readCall, tmBufferRead, if_neg hnone]
    simp only [if_neg hfull, ← hr]

/-- How many statements a read still has at most. -/
def ReadPc.left : ReadPc → ℕ
  | .idle => 0
  | .getFull _ => 7
  | .memcpyEnd _ => 6
  | .addOut _ _ _ => 5
  | .clearOut _ _ => 4
  | .memcpyStart _ _ => 3
  | .setOut _ _ _ => 2
  | .checkOut _ => 1

end Calls

end RingBuffer

end EspHosted
