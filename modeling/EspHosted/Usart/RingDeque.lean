import EspHosted.Lib.Simulation
import EspHosted.Usart.RingBuffer

/-!
# The cyclic buffer is a deque

Compiled without `BUFFER_FAST` the buffer copies byte by byte. Both variants do the same, and
over any list of calls they return what a deque returns that has room for one byte less than
the buffer has places.
-/

namespace EspHosted

namespace RingBuffer

open EspHosted.Bytes EspHosted.Ring EspHosted.Simulation

/-! ## Without `BUFFER_FAST` -/

/-- The loop of `TM_BUFFER_Write`. -/
def TmBuffer.writeLoop (b : TmBuffer) : (data : List UInt8) → TmBuffer
  | [] => b
  | x :: data =>
      let b := b.memcpyIn [x]
      TmBuffer.writeLoop (b.setIn (b.inPos + 1)).checkIn data

def tmBufferWriteSlow (b : TmBuffer) (data : List UInt8) : TmBuffer × ℕ :=
  if data.length = 0 then
    (b, 0)
  else
    let b := b.checkIn
    let free := tmBufferGetFree b
    if free < data.length ∧ free = 0 then
      (b, 0)
    else
      let count := min free data.length
      (b.writeLoop (data.take count), count)

/-- The loop of `TM_BUFFER_Read`. -/
def TmBuffer.readLoop (b : TmBuffer) : (count : ℕ) → TmBuffer × List UInt8
  | 0 => (b, [])
  | count + 1 =>
      let x := b.memcpyOut 1
      let r := TmBuffer.readLoop (b.setOut (b.outPos + 1)).checkOut count
      (r.1, x ++ r.2)

def tmBufferReadSlow (b : TmBuffer) (count : ℕ) : TmBuffer × List UInt8 :=
  if count = 0 then
    (b, [])
  else
    let b := b.checkOut
    let full := tmBufferGetFull b
    if full < count ∧ full = 0 then
      (b, [])
    else
      b.readLoop (min full count)

section Loops

variable {b : TmBuffer} {contents : List UInt8}

theorem writeLoop_append (b : TmBuffer) (xs ys : List UInt8) :
    b.writeLoop (xs ++ ys) = (b.writeLoop xs).writeLoop ys := by
  induction xs generalizing b with
  | nil => rfl
  | cons x xs ih => exact ih _

/-- Two copies behind each other are one copy. -/
theorem memcpyIn_memcpyIn {x : UInt8} {data : List UInt8}
    (hend : b.inPos + (x :: data).length ≤ b.buffer.bytes.length) :
    ((b.memcpyIn [x]).setIn (b.inPos + 1)).memcpyIn data =
      (b.memcpyIn (x :: data)).setIn (b.inPos + 1) := by
  rw [List.length_cons] at hend
  have hone : b.inPos + [x].length ≤ b.buffer.bytes.length := by
    rw [List.length_singleton]
    omega
  have hrest : b.inPos + 1 + data.length ≤ (patch b.buffer.bytes b.inPos [x]).length := by
    rw [length_patch hone]
    omega
  have hstore : (b.buffer.store b.inPos [x]).store (b.inPos + 1) data =
      b.buffer.store b.inPos (x :: data) := by
    rw [Block.store_of_le hone, Block.store_of_le hrest, Block.store_of_le hend]
    exact congrArg (fun bytes => Block.mk bytes b.buffer.overrun) (patch_patch hone)
  exact congrArg (fun buffer => { b with inPos := b.inPos + 1, buffer := buffer }) hstore

/-- Without a turn the loop is one copy. -/
theorem writeLoop_of_fits {data : List UInt8} (hne : data ≠ [])
    (hlength : b.buffer.bytes.length = b.size) (hend : b.inPos + data.length ≤ b.size) :
    b.writeLoop data = ((b.memcpyIn data).setIn (b.inPos + data.length)).checkIn := by
  induction data generalizing b with
  | nil => exact absurd rfl hne
  | cons x data ih =>
      rw [List.length_cons] at hend
      rw [TmBuffer.writeLoop]
      by_cases hdata : data = []
      · subst hdata
        rfl
      · have hpos := List.length_pos_iff.2 hdata
        have hcheck : ((b.memcpyIn [x]).setIn (b.inPos + 1)).checkIn =
            (b.memcpyIn [x]).setIn (b.inPos + 1) :=
          checkIn_of_lt (by simp only [inPos_setIn, size_setIn, size_memcpyIn]; omega)
        have hnext := ih (b := (b.memcpyIn [x]).setIn (b.inPos + 1)) hdata
          (by simp [hlength]) (by simp only [inPos_setIn, size_setIn, size_memcpyIn]; omega)
        simp only [inPos_memcpyIn]
        rw [hcheck, hnext, memcpyIn_memcpyIn (by rw [hlength, List.length_cons]; omega),
          setIn_setIn, inPos_setIn, List.length_cons, Nat.add_assoc, Nat.add_comm 1]

/-- The loop does what the two copies do. -/
theorem writeLoop_eq (h : Represents b contents) {data : List UInt8} (hne : data ≠ [])
    (hroom : data.length < b.size) : b.writeLoop data = b.copyIn data := by
  have hin := h.in_lt
  have hlength := h.window.length
  have hpos := List.length_pos_iff.2 hne
  have htake : (data.take (min (b.size - b.inPos) data.length)).length =
      min (b.size - b.inPos) data.length := by
    rw [List.length_take]
    omega
  have htakene : data.take (min (b.size - b.inPos) data.length) ≠ [] := by
    rw [← List.length_pos_iff, htake]
    omega
  have hfirst := writeLoop_of_fits htakene hlength (by rw [htake]; omega)
  rw [htake] at hfirst
  rw [TmBuffer.copyIn]
  simp only
  conv_lhs => rw [← List.take_append_drop (min (b.size - b.inPos) data.length) data]
  rw [writeLoop_append, hfirst]
  by_cases hrest : 0 < (data.drop (min (b.size - b.inPos) data.length)).length
  · have hlen := List.length_drop (i := min (b.size - b.inPos) data.length) (l := data)
    have hend : b.inPos + min (b.size - b.inPos) data.length = b.size := by omega
    have hturn : (((b.memcpyIn (data.take (min (b.size - b.inPos) data.length))).setIn
        (b.inPos + min (b.size - b.inPos) data.length)).checkIn) =
          (b.memcpyIn (data.take (min (b.size - b.inPos) data.length))).setIn 0 := by
      rw [hend]
      exact checkIn_of_le (Nat.le_refl _)
    have hsecond := writeLoop_of_fits
      (b := (b.memcpyIn (data.take (min (b.size - b.inPos) data.length))).setIn 0)
      (List.length_pos_iff.1 hrest) (by simp [hlength])
      (by simp only [inPos_setIn, size_setIn, size_memcpyIn]; omega)
    rw [hturn, hsecond, if_pos hrest, inPos_setIn, Nat.zero_add]
    rfl
  · rw [List.length_eq_zero_iff.1 (Nat.eq_zero_of_not_pos hrest)]
    rfl

/-- Without a turn the loop of a read is one copy. -/
theorem readLoop_of_fits {count : ℕ} (hcount : 0 < count) (hend : b.outPos + count ≤ b.size) :
    b.readLoop count = ((b.setOut (b.outPos + count)).checkOut, b.memcpyOut count) := by
  induction count generalizing b with
  | zero => exact absurd hcount (Nat.lt_irrefl 0)
  | succ count ih =>
      rw [TmBuffer.readLoop]
      by_cases hzero : count = 0
      · subst hzero
        simp only [TmBuffer.readLoop, List.append_nil, Nat.zero_add]
      · have hcheck : (b.setOut (b.outPos + 1)).checkOut = b.setOut (b.outPos + 1) :=
          checkOut_of_lt (by simp only [outPos_setOut, size_setOut]; omega)
        have hnext := ih (b := b.setOut (b.outPos + 1)) (by omega)
          (by simp only [outPos_setOut, size_setOut]; omega)
        rw [hcheck, hnext, setOut_setOut, outPos_setOut, Nat.add_assoc, Nat.add_comm 1]
        congr 1
        rw [Nat.add_comm count 1]
        exact (slice_add b.buffer.bytes b.outPos 1 count).symm

theorem readLoop_append (b : TmBuffer) (n k : ℕ) :
    b.readLoop (n + k) =
      (((b.readLoop n).1.readLoop k).1, (b.readLoop n).2 ++ ((b.readLoop n).1.readLoop k).2) := by
  induction n generalizing b with
  | zero => rw [Nat.zero_add]; rfl
  | succ n ih =>
      rw [Nat.add_right_comm, TmBuffer.readLoop, TmBuffer.readLoop]
      simp only [ih, List.append_assoc]

theorem readLoop_eq (h : Represents b contents) {count : ℕ} (hpos : 0 < count)
    (hcount : count ≤ contents.length) : b.readLoop count = b.copyOut count := by
  have hout := h.out_lt
  have hroom := h.window.room
  have hsplit :
      min (b.size - b.outPos) count + (count - min (b.size - b.outPos) count) = count := by
    omega
  have hfirst := readLoop_of_fits (b := b) (by omega : 0 < min (b.size - b.outPos) count) (by omega)
  rw [TmBuffer.copyOut]
  simp only
  conv_lhs => rw [← hsplit]
  rw [readLoop_append, hfirst]
  by_cases hrest : 0 < count - min (b.size - b.outPos) count
  · have hend : b.outPos + min (b.size - b.outPos) count = b.size := by omega
    have hturn : (b.setOut (b.outPos + min (b.size - b.outPos) count)).checkOut = b.setOut 0 := by
      rw [hend]
      exact checkOut_of_le (Nat.le_refl _)
    have hsecond := readLoop_of_fits (b := b.setOut 0) hrest
      (by simp only [outPos_setOut, size_setOut]; omega)
    rw [hturn, hsecond, if_pos hrest, outPos_setOut, Nat.zero_add]
    rfl
  · rw [Nat.eq_zero_of_not_pos hrest, if_neg (Nat.lt_irrefl 0)]
    simp only [TmBuffer.readLoop, List.append_nil]

/-- With and without `BUFFER_FAST` a call leaves the same memory and returns the same. -/
theorem Represents.slow_eq (h : Represents b contents) :
    (∀ data, tmBufferWriteSlow b data = tmBufferWrite b data) ∧
      ∀ count, tmBufferReadSlow b count = tmBufferRead b count := by
  have hroom := h.window.room
  have hfree := h.getFree_eq
  have hfull := h.getFull_eq
  constructor
  · intro data
    rw [tmBufferWriteSlow, tmBufferWrite, h.checkIn_eq]
    simp only [hfree]
    split_ifs with hzero hempty
    · rfl
    · rfl
    · rw [writeLoop_eq h]
      · rw [← List.length_pos_iff, List.length_take]
        omega
      · rw [List.length_take]
        omega
  · intro count
    rw [tmBufferReadSlow, tmBufferRead, h.checkOut_eq]
    simp only [hfull]
    split_ifs with hzero hempty
    · rfl
    · rfl
    · exact readLoop_eq h (by omega) (Nat.min_le_left _ _)

end Loops

/-! ## The deque -/

/-- The calls of the library. -/
inductive Op where
  | write (data : List UInt8)
  | writeToTop (data : List UInt8)
  | read (count : ℕ)
  | getFree
  | getFull
  | reset
  | findElement (element : UInt8)
  | writeString (buff : List UInt8)

/-- What they return. -/
inductive Result where
  | none
  | count (n : ℕ)
  | data (d : List UInt8)
  | position (p : Option ℕ)
  deriving DecidableEq

/-- A call, with `BUFFER_FAST` or without. -/
def call (fast : Bool) (b : TmBuffer) : Op → TmBuffer × Result
  | .write data =>
      let r := if fast then tmBufferWrite b data else tmBufferWriteSlow b data
      (r.1, .count r.2)
  | .writeToTop data =>
      let r := tmBufferWriteToTop b data
      (r.1, .count r.2)
  | .read count =>
      let r := if fast then tmBufferRead b count else tmBufferReadSlow b count
      (r.1, .data r.2)
  | .getFree => (b, .count (tmBufferGetFree b))
  | .getFull => (b, .count (tmBufferGetFull b))
  | .reset => (tmBufferReset b, .none)
  | .findElement element => (b, .position (tmBufferFindElement b element))
  | .writeString buff =>
      let r := if fast then tmBufferWriteString b buff else tmBufferWriteSlow b (cstr buff)
      (r.1, .count r.2)

/-- What the buffer is for: a deque with room for `room` bytes. -/
def deque (room : ℕ) (contents : List UInt8) : Op → List UInt8 × Result
  | .write data =>
      (contents ++ data.take (room - contents.length),
        .count (min (room - contents.length) data.length))
  | .writeToTop data =>
      (data.take (room - contents.length) ++ contents,
        .count (min (room - contents.length) data.length))
  | .read count => (contents.drop count, .data (contents.take count))
  | .getFree => (contents, .count (room - contents.length))
  | .getFull => (contents, .count contents.length)
  | .reset => ([], .none)
  | .findElement element => (contents, .position (contents.findIdx? (· = element)))
  | .writeString buff =>
      (contents ++ (cstr buff).take (room - contents.length),
        .count (min (room - contents.length) (cstr buff).length))

/-- One call. -/
theorem simulates_deque (fast : Bool) (size : ℕ) :
    Simulates (call fast) (deque (size - 1)) fun b contents =>
      Represents b contents ∧ b.size = size := by
  rintro b contents op ⟨h, rfl⟩
  have hwrite : ∀ data,
      (if fast then tmBufferWrite b data else tmBufferWriteSlow b data) = tmBufferWrite b data := by
    intro data
    rw [h.slow_eq.1, ite_self]
  have hread : ∀ count,
      (if fast then tmBufferRead b count else tmBufferReadSlow b count) = tmBufferRead b count := by
    intro count
    rw [h.slow_eq.2, ite_self]
  cases op with
  | write data =>
      obtain ⟨hcount, hnext, hsize⟩ := h.write data
      simp only [call, deque, hwrite, hcount]
      exact ⟨trivial, hnext, hsize⟩
  | writeToTop data =>
      obtain ⟨hcount, hnext, hsize⟩ := h.writeToTop data
      simp only [call, deque, hcount]
      exact ⟨trivial, hnext, hsize⟩
  | read count =>
      obtain ⟨hdata, hnext, hsize⟩ := h.read count
      simp only [call, deque, hread, hdata]
      exact ⟨trivial, hnext, hsize⟩
  | getFree => exact ⟨congrArg Result.count h.getFree_eq, h, rfl⟩
  | getFull => exact ⟨congrArg Result.count h.getFull_eq, h, rfl⟩
  | reset => exact ⟨rfl, h.reset, rfl⟩
  | findElement element => exact ⟨congrArg Result.position (h.findElement element), h, rfl⟩
  | writeString buff =>
      obtain ⟨hcount, hnext, hsize⟩ := h.write (cstr buff)
      simp only [call, deque, tmBufferWriteString, hwrite, hcount]
      exact ⟨trivial, hnext, hsize⟩

theorem represents_init {size : ℕ} (hsize : 0 < size) {memory : Block}
    (hlength : memory.bytes.length = size) (hoverrun : memory.overrun = false) :
    Represents
      { size := size, inPos := 0, outPos := 0, buffer := memory, stringDelimiter := 10 } [] :=
  ⟨⟨hlength, hoverrun, Nat.zero_le _, Nat.zero_le _, hsize, rfl, holds_nil⟩, hsize, hsize⟩

/-- On the memory it is given, the buffer returns over every list of calls what the deque
returns, with `BUFFER_FAST` and without, and it never stores behind the memory. -/
theorem ring_buffer_is_deque {size : ℕ} (hsize : 0 < size) {memory : Block}
    (hlength : memory.bytes.length = size) (hoverrun : memory.overrun = false) (fast : Bool)
    (ops : List Op) :
    ∃ b, tmBufferInit size (some memory) none = some b ∧
      trace (call fast) b ops = trace (deque (size - 1)) [] ops ∧
      (final (call fast) b ops).buffer.overrun = false := by
  have hinit := represents_init hsize hlength hoverrun
  exact ⟨_, rfl, (simulates_deque fast size).trace_eq ⟨hinit, rfl⟩ ops,
    ((simulates_deque fast size).final ⟨hinit, rfl⟩ ops).1.window.overrun⟩

/-- The second write goes over the end of 255 bytes. -/
def wrappedOps : List Op :=
  [ .write (List.replicate 200 7), .read 150, .write (List.replicate 100 8), .getFull, .read 60 ]

/-- The buffer of the UART, of 255 bytes. -/
theorem ring_buffer_is_deque_uart :
    ∃ b, tmBufferInit 255 (some (Block.calloc 255)) none = some b ∧
      trace (call true) b wrappedOps = trace (deque 254) [] wrappedOps := by
  obtain ⟨b, hinit, htrace, -⟩ := ring_buffer_is_deque (by decide : 0 < 255)
    (List.length_replicate : (Block.calloc 255).bytes.length = 255)
    (rfl : (Block.calloc 255).overrun = false) true wrappedOps
  exact ⟨b, hinit, htrace⟩

end RingBuffer

end EspHosted
