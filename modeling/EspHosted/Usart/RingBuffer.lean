import EspHosted.Lib.CString
import EspHosted.Lib.Ring

/-!
# The cyclic buffer of the UART

`ring_buffer.c` with `BUFFER_FAST`, which copies in two pieces. `In == Out` is an empty
buffer, so that one byte stays free.

`Window b contents` says what the buffer holds, also between the statements of a call, where
a position may stand at the end of the memory. In such a buffer no subtraction goes under 0
and no store over the end.
-/

namespace EspHosted

namespace RingBuffer

open EspHosted.Bytes EspHosted.Ring

/-- `TM_BUFFER_t` without its flags and the pointer of its user. -/
structure TmBuffer where
  size : ℕ
  inPos : ℕ
  outPos : ℕ
  buffer : Block
  stringDelimiter : UInt8
  deriving DecidableEq

/-- `TM_BUFFER_Init`; `none` is its error. `bufferPtr` is the parameter, `malloc` what the
allocator gives without it. -/
def tmBufferInit (size : ℕ) (bufferPtr malloc : Option Block) : Option TmBuffer :=
  (bufferPtr.or malloc).map fun buffer =>
    { size := size, inPos := 0, outPos := 0, buffer := buffer, stringDelimiter := 10 }

def tmBufferGetFree (b : TmBuffer) : ℕ :=
  let size :=
    if b.inPos = b.outPos then b.size
    else if b.inPos < b.outPos then b.outPos - b.inPos
    else b.size - (b.inPos - b.outPos)
  size - 1

def tmBufferGetFull (b : TmBuffer) : ℕ :=
  if b.inPos = b.outPos then 0
  else if b.outPos < b.inPos then b.inPos - b.outPos
  else b.size - (b.outPos - b.inPos)

/-- `Buffer->In = …` -/
def TmBuffer.setIn (b : TmBuffer) (inPos : ℕ) : TmBuffer := { b with inPos := inPos }

/-- `Buffer->Out = …` -/
def TmBuffer.setOut (b : TmBuffer) (outPos : ℕ) : TmBuffer := { b with outPos := outPos }

/-- `if (Buffer->In >= Buffer->Size) Buffer->In = 0` -/
def TmBuffer.checkIn (b : TmBuffer) : TmBuffer := if b.size ≤ b.inPos then b.setIn 0 else b

def TmBuffer.checkOut (b : TmBuffer) : TmBuffer := if b.size ≤ b.outPos then b.setOut 0 else b

/-- `memcpy(&Buffer->Buffer[Buffer->In], src, …)` -/
def TmBuffer.memcpyIn (b : TmBuffer) (src : List UInt8) : TmBuffer :=
  { b with buffer := b.buffer.store b.inPos src }

/-- `memcpy(…, &Buffer->Buffer[Buffer->Out], n)` -/
def TmBuffer.memcpyOut (b : TmBuffer) (n : ℕ) : List UInt8 := slice b.buffer.bytes b.outPos n

/-- The part of `TM_BUFFER_Write` behind the tests, for `data` that there is room for. -/
def TmBuffer.copyIn (b : TmBuffer) (data : List UInt8) : TmBuffer :=
  let tocopy := min (b.size - b.inPos) data.length
  let b := b.memcpyIn (data.take tocopy)
  let b := b.setIn (b.inPos + tocopy)
  let rest := data.drop tocopy
  let b :=
    if 0 < rest.length then
      let b := b.setIn 0
      let b := b.memcpyIn rest
      b.setIn rest.length
    else b
  b.checkIn

/-- `TM_BUFFER_Write` of the bytes `data`; the number of bytes that are taken. -/
def tmBufferWrite (b : TmBuffer) (data : List UInt8) : TmBuffer × ℕ :=
  if data.length = 0 then
    (b, 0)
  else
    let b := b.checkIn
    let free := tmBufferGetFree b
    if free < data.length ∧ free = 0 then
      (b, 0)
    else
      let count := min free data.length
      (b.copyIn (data.take count), count)

/-- The part of `TM_BUFFER_Read` behind the tests, for `count` bytes that there are. -/
def TmBuffer.copyOut (b : TmBuffer) (count : ℕ) : TmBuffer × List UInt8 :=
  let tocopy := min (b.size - b.outPos) count
  let d := b.memcpyOut tocopy
  let b := b.setOut (b.outPos + tocopy)
  let count := count - tocopy
  if 0 < count then
    let b := b.setOut 0
    let d := d ++ b.memcpyOut count
    let b := b.setOut count
    (b.checkOut, d)
  else
    (b.checkOut, d)

/-- `TM_BUFFER_Read` of `count` bytes; those that it gets. -/
def tmBufferRead (b : TmBuffer) (count : ℕ) : TmBuffer × List UInt8 :=
  if count = 0 then
    (b, [])
  else
    let b := b.checkOut
    let full := tmBufferGetFull b
    if full < count ∧ full = 0 then
      (b, [])
    else
      b.copyOut (min full count)

/-- The loop of `TM_BUFFER_WriteToTop`, from the last byte on. -/
def TmBuffer.toTopLoop (b : TmBuffer) : (reversed : List UInt8) → TmBuffer
  | [] => b
  | x :: reversed =>
      let b := b.setOut (if b.outPos = 0 then b.size - 1 else b.outPos - 1)
      TmBuffer.toTopLoop { b with buffer := b.buffer.store b.outPos [x] } reversed

/-- `TM_BUFFER_WriteToTop` -/
def tmBufferWriteToTop (b : TmBuffer) (data : List UInt8) : TmBuffer × ℕ :=
  if data.length = 0 then
    (b, 0)
  else
    let b := b.checkIn.checkOut
    let free := tmBufferGetFree b
    if free < data.length ∧ free = 0 then
      (b, 0)
    else
      let count := min free data.length
      (b.toTopLoop (data.take count).reverse, count)

def tmBufferReset (b : TmBuffer) : TmBuffer := (b.setIn 0).setOut 0

/-- The loop of `TM_BUFFER_FindElement`; `none` is -1. -/
def findElementLoop (b : TmBuffer) (element : UInt8) (out retval : ℕ) : (num : ℕ) → Option ℕ
  | 0 => none
  | num + 1 =>
      let out := if b.size ≤ out then 0 else out
      if b.buffer.bytes.getD out 0 = element then
        some retval
      else
        findElementLoop b element (out + 1) (retval + 1) num

/-- `TM_BUFFER_FindElement` -/
def tmBufferFindElement (b : TmBuffer) (element : UInt8) : Option ℕ :=
  findElementLoop b element b.outPos 0 (tmBufferGetFull b)

/-- `TM_BUFFER_WriteString` -/
def tmBufferWriteString (b : TmBuffer) (buff : List UInt8) : TmBuffer × ℕ :=
  tmBufferWrite b (cstr buff)

section Fields

variable (b : TmBuffer) (i : ℕ) (src : List UInt8)

@[simp] theorem size_setIn : (b.setIn i).size = b.size := rfl

@[simp] theorem inPos_setIn : (b.setIn i).inPos = i := rfl

@[simp] theorem outPos_setIn : (b.setIn i).outPos = b.outPos := rfl

@[simp] theorem buffer_setIn : (b.setIn i).buffer = b.buffer := rfl

@[simp] theorem size_setOut : (b.setOut i).size = b.size := rfl

@[simp] theorem inPos_setOut : (b.setOut i).inPos = b.inPos := rfl

@[simp] theorem outPos_setOut : (b.setOut i).outPos = i := rfl

@[simp] theorem buffer_setOut : (b.setOut i).buffer = b.buffer := rfl

@[simp] theorem size_memcpyIn : (b.memcpyIn src).size = b.size := rfl

@[simp] theorem inPos_memcpyIn : (b.memcpyIn src).inPos = b.inPos := rfl

@[simp] theorem outPos_memcpyIn : (b.memcpyIn src).outPos = b.outPos := rfl

@[simp] theorem length_memcpyIn :
    (b.memcpyIn src).buffer.bytes.length = b.buffer.bytes.length :=
  Block.length_store _ _ _

@[simp] theorem size_checkIn : b.checkIn.size = b.size := by
  rw [TmBuffer.checkIn]
  split <;> rfl

@[simp] theorem outPos_checkIn : b.checkIn.outPos = b.outPos := by
  rw [TmBuffer.checkIn]
  split <;> rfl

@[simp] theorem size_checkOut : b.checkOut.size = b.size := by
  rw [TmBuffer.checkOut]
  split <;> rfl

@[simp] theorem inPos_checkOut : b.checkOut.inPos = b.inPos := by
  rw [TmBuffer.checkOut]
  split <;> rfl

theorem setIn_setIn (j : ℕ) : (b.setIn i).setIn j = b.setIn j := rfl

theorem setOut_setOut (j : ℕ) : (b.setOut i).setOut j = b.setOut j := rfl

variable {b}

theorem checkIn_of_lt (h : b.inPos < b.size) : b.checkIn = b := if_neg (Nat.not_le_of_lt h)

theorem checkIn_of_le (h : b.size ≤ b.inPos) : b.checkIn = b.setIn 0 := if_pos h

theorem checkOut_of_lt (h : b.outPos < b.size) : b.checkOut = b := if_neg (Nat.not_le_of_lt h)

theorem checkOut_of_le (h : b.size ≤ b.outPos) : b.checkOut = b.setOut 0 := if_pos h

end Fields

/-! ## What the buffer holds -/

/-- The bytes of `contents` stand from `Out` to `In`, and one place is free. -/
structure Window (b : TmBuffer) (contents : List UInt8) : Prop where
  length : b.buffer.bytes.length = b.size
  overrun : b.buffer.overrun = false
  in_le : b.inPos ≤ b.size
  out_le : b.outPos ≤ b.size
  room : contents.length < b.size
  in_mod : b.inPos % b.size = (b.outPos + contents.length) % b.size
  holds : Holds b.buffer.bytes b.outPos contents

namespace Window

variable {b : TmBuffer} {contents : List UInt8}

/-- The place of `In`, told by `Out`: the window may go over the end once. -/
theorem in_cases (h : Window b contents) (hin : b.inPos < b.size) :
    b.inPos = b.outPos + contents.length ∨ b.inPos + b.size = b.outPos + contents.length := by
  have hle := h.out_le
  have hroom := h.room
  have hmod := h.in_mod
  rw [Nat.mod_eq_of_lt hin] at hmod
  by_cases hlt : b.outPos + contents.length < b.size
  · rw [Nat.mod_eq_of_lt hlt] at hmod
    exact Or.inl hmod
  · rw [Nat.mod_eq_sub_mod (Nat.le_of_not_lt hlt), Nat.mod_eq_of_lt (by omega)] at hmod
    omega

/-- The same when `In` is at the end. -/
theorem end_cases (h : Window b contents) (hin : b.inPos = b.size) :
    b.outPos + contents.length = b.size ∨ b.outPos + contents.length = 0 := by
  have hle := h.out_le
  have hroom := h.room
  have hmod := h.in_mod
  rw [hin, Nat.mod_self] at hmod
  by_cases hlt : b.outPos + contents.length < b.size
  · rw [Nat.mod_eq_of_lt hlt] at hmod
    exact Or.inr hmod.symm
  · rw [Nat.mod_eq_sub_mod (Nat.le_of_not_lt hlt), Nat.mod_eq_of_lt (by omega)] at hmod
    omega

theorem getFree_eq (h : Window b contents) (hin : b.inPos < b.size) :
    tmBufferGetFree b = b.size - 1 - contents.length := by
  have hroom := h.room
  have hcases := h.in_cases hin
  have hle := h.out_le
  rw [tmBufferGetFree]
  split_ifs <;> omega

/-- `In` at the end and `Out` at the start look like a buffer with every place taken. -/
theorem getFull_eq (h : Window b contents) (hout : b.outPos < b.size)
    (hends : ¬ (b.inPos = b.size ∧ b.outPos = 0)) : tmBufferGetFull b = contents.length := by
  have hroom := h.room
  rw [tmBufferGetFull]
  rcases Nat.lt_or_eq_of_le h.in_le with hin | hin
  · have hcases := h.in_cases hin
    split_ifs <;> omega
  · have hcases := h.end_cases hin
    split_ifs <;> omega

theorem getFull_of_ends (h : Window b contents) (hin : b.inPos = b.size) (hout : b.outPos = 0) :
    tmBufferGetFull b = b.size ∧ contents = [] := by
  have hroom := h.room
  have hcases := h.end_cases hin
  refine ⟨?_, List.length_eq_zero_iff.1 (by omega)⟩
  rw [tmBufferGetFull]
  split_ifs <;> omega

/-! ## The statements of a write -/

/-- A copy into the free places. -/
theorem memcpyIn (h : Window b contents) (hin : b.inPos < b.size) (src : List UInt8)
    (hroom : contents.length + src.length < b.size) (hend : b.inPos + src.length ≤ b.size) :
    Window (b.memcpyIn src) contents ∧
      Holds (b.memcpyIn src).buffer.bytes b.inPos src := by
  have hfit : b.inPos + src.length ≤ b.buffer.bytes.length := by
    rw [h.length]
    exact hend
  have hstore : b.memcpyIn src =
      { b with buffer := { bytes := patch b.buffer.bytes b.inPos src
                           overrun := b.buffer.overrun } } := by
    rw [TmBuffer.memcpyIn, Block.store_of_le hfit]
  have hstored := stored_patch hfit
  have hoff : b.inPos = (b.outPos + (contents.length + 0)) % b.buffer.bytes.length := by
    rw [Nat.add_zero, h.length, ← h.in_mod, Nat.mod_eq_of_lt hin]
  rw [hstore]
  refine ⟨⟨?_, h.overrun, h.in_le, h.out_le, h.room, h.in_mod, ?_⟩, ?_⟩
  · exact hstored.length.trans h.length
  · exact h.holds.frame hstored 0 (by rw [h.length]; omega) hoff
  · exact hstored.holds (by rw [h.length, Nat.mod_eq_of_lt hin]) hfit

/-- The copied bytes are handed over. -/
theorem addIn (h : Window b contents) {src : List UInt8} (hsrc : Holds b.buffer.bytes b.inPos src)
    (hroom : contents.length + src.length < b.size) (hend : b.inPos + src.length ≤ b.size) :
    Window (b.setIn (b.inPos + src.length)) (contents ++ src) := by
  have hmod : (b.outPos + contents.length) % b.buffer.bytes.length =
      b.inPos % b.buffer.bytes.length := by
    rw [h.length]
    exact h.in_mod.symm
  refine ⟨h.length, h.overrun, hend, h.out_le, ?_, ?_, ?_⟩
  · rw [List.length_append]
    exact hroom
  · simp only [inPos_setIn, size_setIn, outPos_setIn, List.length_append]
    rw [← Nat.add_assoc, ← Nat.mod_add_mod b.inPos, h.in_mod, Nat.mod_add_mod]
  · refine holds_append.2 ⟨h.holds, ?_⟩
    rw [← holds_mod] at hsrc ⊢
    simp only [buffer_setIn, outPos_setIn]
    rwa [hmod]

/-- A copy that is handed over. -/
theorem copy (h : Window b contents) (hin : b.inPos < b.size) (src : List UInt8)
    (hroom : contents.length + src.length < b.size) (hend : b.inPos + src.length ≤ b.size) :
    Window ((b.memcpyIn src).setIn (b.inPos + src.length)) (contents ++ src) := by
  obtain ⟨hcopied, hsrc⟩ := h.memcpyIn hin src hroom hend
  exact hcopied.addIn hsrc hroom hend

/-- The end is the start. -/
theorem clearIn (h : Window b contents) (hin : b.inPos = b.size) :
    Window (b.setIn 0) contents := by
  have hmod := h.in_mod
  rw [hin, Nat.mod_self] at hmod
  refine ⟨h.length, h.overrun, Nat.zero_le _, h.out_le, h.room, ?_, h.holds⟩
  simp only [inPos_setIn, size_setIn, outPos_setIn]
  rw [Nat.zero_mod, hmod]

theorem checkIn (h : Window b contents) :
    Window b.checkIn contents ∧ b.checkIn.inPos < b.size := by
  have hroom := h.room
  rw [TmBuffer.checkIn]
  split_ifs with hend
  · exact ⟨h.clearIn (Nat.le_antisymm h.in_le hend), by
      exact Nat.lt_of_le_of_lt (Nat.zero_le _) hroom⟩
  · exact ⟨h, Nat.lt_of_not_le hend⟩

/-! ## The statements of a read -/

theorem memcpyOut_eq (h : Window b contents) {n : ℕ} (hn : n ≤ contents.length)
    (hout : b.outPos < b.size) (hend : b.outPos + n ≤ b.size) :
    b.memcpyOut n = contents.take n := by
  refine h.holds.slice_eq hn ?_ ?_
  · rw [h.length, Nat.mod_eq_of_lt hout]
  · rw [h.length]
    exact hend

/-- The bytes that were copied are given up. -/
theorem addOut (h : Window b contents) {n : ℕ} (hn : n ≤ contents.length)
    (hend : b.outPos + n ≤ b.size) :
    Window (b.setOut (b.outPos + n)) (contents.drop n) := by
  have hroom := h.room
  refine ⟨h.length, h.overrun, h.in_le, hend, ?_, ?_, h.holds.drop n⟩
  · rw [List.length_drop]
    exact Nat.lt_of_le_of_lt (Nat.sub_le _ _) hroom
  · have hsum : b.outPos + n + (contents.drop n).length = b.outPos + contents.length := by
      rw [List.length_drop]
      omega
    simp only [inPos_setOut, size_setOut, outPos_setOut]
    rw [hsum]
    exact h.in_mod

theorem clearOut (h : Window b contents) (hout : b.outPos = b.size) :
    Window (b.setOut 0) contents := by
  have hmod := h.in_mod
  have hholds := h.holds
  rw [hout, Nat.add_mod_left] at hmod
  rw [hout, ← h.length, ← holds_mod, Nat.mod_self] at hholds
  refine ⟨h.length, h.overrun, h.in_le, Nat.zero_le _, h.room, ?_, hholds⟩
  simp only [inPos_setOut, size_setOut, outPos_setOut]
  rw [Nat.zero_add, hmod]

theorem checkOut (h : Window b contents) :
    Window b.checkOut contents ∧ b.checkOut.outPos < b.size := by
  have hroom := h.room
  rw [TmBuffer.checkOut]
  split_ifs with hend
  · exact ⟨h.clearOut (Nat.le_antisymm h.out_le hend), by
      exact Nat.lt_of_le_of_lt (Nat.zero_le _) hroom⟩
  · exact ⟨h, Nat.lt_of_not_le hend⟩

end Window

/-! ## Whole calls -/

/-- A buffer between two calls. -/
structure Represents (b : TmBuffer) (contents : List UInt8) : Prop where
  window : Window b contents
  in_lt : b.inPos < b.size
  out_lt : b.outPos < b.size

theorem Represents.checkIn_eq {b : TmBuffer} {contents : List UInt8} (h : Represents b contents) :
    b.checkIn = b :=
  checkIn_of_lt h.in_lt

theorem Represents.checkOut_eq {b : TmBuffer} {contents : List UInt8} (h : Represents b contents) :
    b.checkOut = b :=
  checkOut_of_lt h.out_lt

theorem Represents.getFree_eq {b : TmBuffer} {contents : List UInt8} (h : Represents b contents) :
    tmBufferGetFree b = b.size - 1 - contents.length :=
  h.window.getFree_eq h.in_lt

theorem Represents.getFull_eq {b : TmBuffer} {contents : List UInt8} (h : Represents b contents) :
    tmBufferGetFull b = contents.length :=
  h.window.getFull_eq h.out_lt fun hends => absurd hends.1 (Nat.ne_of_lt h.in_lt)

section Calls

variable {b : TmBuffer} {contents : List UInt8}

/-- A call ends with the check of the position that it has moved. -/
theorem Window.represents_checkIn (h : Window b contents) (hout : b.outPos < b.size) :
    Represents b.checkIn contents := by
  refine ⟨h.checkIn.1, ?_, ?_⟩
  · rw [size_checkIn]
    exact h.checkIn.2
  · rw [size_checkIn, outPos_checkIn]
    exact hout

theorem Window.represents_checkOut (h : Window b contents) (hin : b.inPos < b.size) :
    Represents b.checkOut contents := by
  refine ⟨h.checkOut.1, ?_, ?_⟩
  · rw [size_checkOut, inPos_checkOut]
    exact hin
  · rw [size_checkOut]
    exact h.checkOut.2

/-- The two copies append the data. -/
theorem Represents.copyIn (h : Represents b contents) (data : List UInt8)
    (hroom : contents.length + data.length < b.size) :
    Represents (b.copyIn data) (contents ++ data) ∧ (b.copyIn data).size = b.size := by
  have htake : (data.take (min (b.size - b.inPos) data.length)).length =
      min (b.size - b.inPos) data.length := by
    rw [List.length_take]
    omega
  have hin := h.in_lt
  have hfirst := h.window.copy h.in_lt (data.take (min (b.size - b.inPos) data.length))
    (by omega) (by omega)
  rw [htake] at hfirst
  rw [TmBuffer.copyIn]
  simp only
  by_cases hrest : 0 < (data.drop (min (b.size - b.inPos) data.length)).length
  · have hlen := List.length_drop (i := min (b.size - b.inPos) data.length) (l := data)
    have hend : b.inPos + min (b.size - b.inPos) data.length = b.size := by omega
    have hsecond := hfirst.clearIn hend
    have hsum : (contents ++ data.take (min (b.size - b.inPos) data.length)).length +
        (data.drop (min (b.size - b.inPos) data.length)).length < b.size := by
      rw [List.length_append, htake, hlen]
      omega
    have hfits : 0 + (data.drop (min (b.size - b.inPos) data.length)).length ≤ b.size := by
      rw [hlen]
      omega
    have hthird := hsecond.copy (Nat.zero_lt_of_lt h.in_lt) _ hsum hfits
    rw [List.append_assoc, List.take_append_drop] at hthird
    simp only [inPos_setIn, Nat.zero_add] at hthird
    rw [if_pos hrest]
    exact ⟨hthird.represents_checkIn h.out_lt, size_checkIn _⟩
  · have hnil : data.drop (min (b.size - b.inPos) data.length) = [] :=
      List.length_eq_zero_iff.1 (by omega)
    have hall : data.take (min (b.size - b.inPos) data.length) = data := by
      have happend := List.take_append_drop (min (b.size - b.inPos) data.length) data
      rwa [hnil, List.append_nil] at happend
    rw [hall] at hfirst ⊢
    rw [if_neg hrest]
    exact ⟨hfirst.represents_checkIn h.out_lt, size_checkIn _⟩

/-- The two copies take from the front. -/
theorem Represents.copyOut (h : Represents b contents) (count : ℕ)
    (hcount : count ≤ contents.length) :
    Represents (b.copyOut count).1 (contents.drop count) ∧
      (b.copyOut count).2 = contents.take count ∧ (b.copyOut count).1.size = b.size := by
  have hout := h.out_lt
  have hroom := h.window.room
  have hd := h.window.memcpyOut_eq (n := min (b.size - b.outPos) count) (by omega) hout (by omega)
  have hfirst := h.window.addOut (n := min (b.size - b.outPos) count) (by omega) (by omega)
  rw [TmBuffer.copyOut]
  simp only
  by_cases hrest : 0 < count - min (b.size - b.outPos) count
  · have hend : b.outPos + min (b.size - b.outPos) count = b.size := by omega
    have hlen := List.length_drop (i := min (b.size - b.outPos) count) (l := contents)
    have hsecond := hfirst.clearOut hend
    have hmore : count - min (b.size - b.outPos) count ≤
        (contents.drop (min (b.size - b.outPos) count)).length := by omega
    have hfits : 0 + (count - min (b.size - b.outPos) count) ≤ b.size := by omega
    have hd' := hsecond.memcpyOut_eq hmore (Nat.zero_lt_of_lt hout) hfits
    have hthird := hsecond.addOut hmore hfits
    have hsum :
        min (b.size - b.outPos) count + (count - min (b.size - b.outPos) count) = count := by
      omega
    rw [List.drop_drop, hsum] at hthird
    simp only [outPos_setOut, Nat.zero_add] at hthird
    rw [if_pos hrest]
    refine ⟨hthird.represents_checkOut h.in_lt, ?_, size_checkOut _⟩
    rw [hd, hd', ← List.take_add, hsum]
  · have hall : min (b.size - b.outPos) count = count := by omega
    rw [hall] at hd hfirst ⊢
    rw [if_neg (by omega)]
    exact ⟨hfirst.represents_checkOut h.in_lt, hd, size_checkOut _⟩

/-- `TM_BUFFER_Write` takes what there is room for. -/
theorem Represents.write (h : Represents b contents) (data : List UInt8) :
    (tmBufferWrite b data).2 = min (b.size - 1 - contents.length) data.length ∧
      Represents (tmBufferWrite b data).1
        (contents ++ data.take (b.size - 1 - contents.length)) ∧
      (tmBufferWrite b data).1.size = b.size := by
  have hfree := h.getFree_eq
  have hroom := h.window.room
  rw [tmBufferWrite, h.checkIn_eq]
  simp only [hfree]
  split_ifs with hzero hfull
  · rw [List.length_eq_zero_iff.1 hzero, List.take_nil, List.append_nil]
    exact ⟨(Nat.min_zero _).symm, h, rfl⟩
  · rw [hfull.2, List.take_zero, List.append_nil]
    exact ⟨(Nat.zero_min _).symm, h, rfl⟩
  · have htake : data.take (min (b.size - 1 - contents.length) data.length) =
        data.take (b.size - 1 - contents.length) := List.take_eq_take_min.symm
    rw [htake]
    obtain ⟨hcopied, hsize⟩ := h.copyIn (data.take (b.size - 1 - contents.length))
      (by rw [List.length_take]; omega)
    exact ⟨rfl, hcopied, hsize⟩

/-- `TM_BUFFER_Read` gets the front of what there is. -/
theorem Represents.read (h : Represents b contents) (count : ℕ) :
    (tmBufferRead b count).2 = contents.take count ∧
      Represents (tmBufferRead b count).1 (contents.drop count) ∧
      (tmBufferRead b count).1.size = b.size := by
  have hfull := h.getFull_eq
  rw [tmBufferRead, h.checkOut_eq]
  simp only [hfull]
  split_ifs with hzero hempty
  · rw [hzero]
    exact ⟨List.take_zero.symm, h, rfl⟩
  · rw [List.length_eq_zero_iff.1 hempty.2] at h ⊢
    rw [List.take_nil, List.drop_nil]
    exact ⟨rfl, h, rfl⟩
  · obtain ⟨hcopied, hd, hsize⟩ := h.copyOut (min contents.length count)
      (Nat.min_le_left _ _)
    rw [Nat.min_comm] at hcopied hd hsize ⊢
    rw [List.take_eq_take_min (i := count)]
    rcases Nat.le_total count contents.length with hle | hle
    · rw [Nat.min_eq_left hle] at hcopied hd hsize ⊢
      exact ⟨hd, hcopied, hsize⟩
    · rw [Nat.min_eq_right hle] at hcopied hd hsize ⊢
      rw [List.drop_length] at hcopied
      rw [List.drop_eq_nil_of_le hle]
      exact ⟨hd, hcopied, hsize⟩

/-- One byte in front. -/
theorem Represents.toTop (h : Represents b contents) (x : UInt8)
    (hroom : contents.length + 1 < b.size) (o : ℕ)
    (ho : o = if b.outPos = 0 then b.size - 1 else b.outPos - 1) :
    Represents { b.setOut o with buffer := b.buffer.store o [x] } (x :: contents) := by
  have hout := h.out_lt
  have hlt : o < b.size := by
    rw [ho]
    split_ifs <;> omega
  have hnext : (o + 1) % b.size = b.outPos := by
    rw [ho]
    split_ifs with hzero
    · rw [Nat.sub_add_cancel (by omega), Nat.mod_self, hzero]
    · rw [Nat.sub_add_cancel (by omega), Nat.mod_eq_of_lt hout]
  have hlength := h.window.length
  have hfit : o + [x].length ≤ b.buffer.bytes.length := by
    rw [hlength]
    exact hlt
  have hbehind : Holds b.buffer.bytes (o + 1) contents := by
    rw [← holds_mod, hlength, hnext]
    exact h.window.holds
  rw [Block.store_of_le hfit]
  refine ⟨⟨?_, h.window.overrun, h.window.in_le, Nat.le_of_lt hlt, ?_, ?_, ?_⟩, h.in_lt, hlt⟩
  · exact (length_patch hfit).trans hlength
  · rw [List.length_cons]
    exact hroom
  · change b.inPos % b.size = (o + (contents.length + 1)) % b.size
    rw [h.window.in_mod, ← hnext, Nat.mod_add_mod]
    congr 1
    omega
  · exact hbehind.cons (stored_patch hfit) (by rw [hlength]; omega)
      (by rw [hlength, Nat.mod_eq_of_lt hlt])

theorem Represents.toTopLoop (h : Represents b contents) {reversed : List UInt8}
    (hroom : contents.length + reversed.length < b.size) :
    Represents (b.toTopLoop reversed) (reversed.reverse ++ contents) ∧
      (b.toTopLoop reversed).size = b.size := by
  induction reversed generalizing b contents with
  | nil => exact ⟨h, rfl⟩
  | cons x reversed ih =>
      rw [List.length_cons] at hroom
      have hone := h.toTop x (by omega) _ rfl
      rw [TmBuffer.toTopLoop, List.reverse_cons, List.append_assoc]
      refine ih hone ?_
      show contents.length + 1 + reversed.length < b.size
      omega

/-- `TM_BUFFER_WriteToTop` puts the data in front, as much of its start as there is room
for. -/
theorem Represents.writeToTop (h : Represents b contents) (data : List UInt8) :
    (tmBufferWriteToTop b data).2 = min (b.size - 1 - contents.length) data.length ∧
      Represents (tmBufferWriteToTop b data).1
        (data.take (b.size - 1 - contents.length) ++ contents) ∧
      (tmBufferWriteToTop b data).1.size = b.size := by
  have hfree := h.getFree_eq
  have hroom := h.window.room
  rw [tmBufferWriteToTop, h.checkIn_eq, h.checkOut_eq]
  simp only [hfree]
  split_ifs with hzero hfull
  · rw [List.length_eq_zero_iff.1 hzero, List.take_nil, List.nil_append]
    exact ⟨(Nat.min_zero _).symm, h, rfl⟩
  · rw [hfull.2, List.take_zero, List.nil_append]
    exact ⟨(Nat.zero_min _).symm, h, rfl⟩
  · have htake : data.take (min (b.size - 1 - contents.length) data.length) =
        data.take (b.size - 1 - contents.length) := List.take_eq_take_min.symm
    rw [htake]
    obtain ⟨hstored, hsize⟩ := h.toTopLoop
      (by rw [List.length_reverse, List.length_take]; omega :
        contents.length + (data.take (b.size - 1 - contents.length)).reverse.length < b.size)
    rw [List.reverse_reverse] at hstored
    exact ⟨rfl, hstored, hsize⟩

theorem Represents.reset (h : Represents b contents) : Represents (tmBufferReset b) [] := by
  have hsize := Nat.zero_lt_of_lt h.in_lt
  exact ⟨⟨h.window.length, h.window.overrun, Nat.zero_le _, Nat.zero_le _, hsize, rfl, holds_nil⟩,
    hsize, hsize⟩

/-- The loop looks at the elements in their order. -/
theorem findElementLoop_eq (hlength : b.buffer.bytes.length = b.size) (element : UInt8)
    {out : ℕ} (retval : ℕ) (hout : out ≤ b.size) (hroom : contents.length ≤ b.size)
    (hholds : Holds b.buffer.bytes out contents) :
    findElementLoop b element out retval contents.length =
      (contents.findIdx? (· = element)).map (retval + ·) := by
  induction contents generalizing out retval with
  | nil => rfl
  | cons x contents ih =>
      rw [List.length_cons] at hroom
      have hplace : (if b.size ≤ out then 0 else out) = out % b.buffer.bytes.length := by
        rw [hlength]
        split_ifs with hend
        · rw [Nat.le_antisymm hout hend, Nat.mod_self]
        · rw [Nat.mod_eq_of_lt (Nat.lt_of_not_le hend)]
      have hlt : (if b.size ≤ out then 0 else out) < b.size := by
        split_ifs <;> omega
      have hget : b.buffer.bytes.getD (if b.size ≤ out then 0 else out) 0 = x := by
        have hfirst := hholds 0 (Nat.succ_pos _)
        rw [Nat.add_zero, ← hplace, List.getElem?_cons_zero] at hfirst
        rw [List.getD_eq_getElem?_getD, hfirst, Option.getD_some]
      have hrest : Holds b.buffer.bytes ((if b.size ≤ out then 0 else out) + 1) contents := by
        have hdrop := hholds.drop 1
        rw [← holds_mod] at hdrop ⊢
        rwa [hplace, Nat.mod_add_mod]
      rw [List.length_cons, findElementLoop, List.findIdx?_cons]
      simp only [hget]
      by_cases hx : x = element
      · simp [hx]
      · rw [if_neg hx, ih (retval + 1) hlt (by omega) hrest]
        simp [hx, Option.map_map, Function.comp_def, Nat.add_assoc, Nat.add_comm 1]

/-- `TM_BUFFER_FindElement` finds the first place of the element. -/
theorem Represents.findElement (h : Represents b contents) (element : UInt8) :
    tmBufferFindElement b element = contents.findIdx? (· = element) := by
  have hroom := h.window.room
  rw [tmBufferFindElement, h.getFull_eq,
    findElementLoop_eq h.window.length element 0 (Nat.le_of_lt h.out_lt) (by omega) h.window.holds]
  simp

end Calls

end RingBuffer

end EspHosted
