import EspHosted.Usart.TxStream
import Mathlib.Algebra.BigOperators.Group.Finset.Basic

/-!
# The output of the console

`_write` hands its bytes to `put_tx_data_with_wait`, which offers them to `put_tx_data`
again and again, a thousand times at most, and returns nothing. `_write` reports the whole
length all the same.
-/

namespace EspHosted

namespace Usart

/-- The room in `tx_buffer` at each call of `put_tx_data`. -/
abbrev Room := ℕ → ℕ

/-- `retries` at the start of `put_tx_data_with_wait` -/
def maxRetries : ℕ := 1000

def stdoutFileno : Int32 := 1

def stderrFileno : Int32 := 2

/-- Bytes whose number is an `int`. -/
abbrev ConsoleData := { data : List UInt8 // data.length < 2 ^ 31 }

/-- `put_tx_data`: as many of the bytes as there is room for. -/
def putTxData (room : ℕ) (bufferLength : UInt32) : ℕ := min room bufferLength.toNat

/-- The bytes that were accepted, call by call, in `put_tx_data_with_wait` with `retries`
calls left. -/
def putTxDataWithWait (room : Room) :
    (retries : ℕ) → (buffer : List UInt8) → (bufferLength : UInt32) → List (List UInt8)
  | 0, _, _ => []
  | retries + 1, buffer, bufferLength =>
      let pushedBytes := putTxData (room 0) bufferLength
      let rest := bufferLength - UInt32.ofNat pushedBytes
      buffer.take pushedBytes ::
        if rest = 0 then []
        else putTxDataWithWait (fun k => room (k + 1)) retries (buffer.drop pushedBytes) rest

/-- The result of `_write` and the bytes that were accepted on its way. -/
structure WriteResult where
  ret : ℤ
  pieces : List (List UInt8)

/-- `_write` -/
def consoleWrite (room : Room) (file : Int32) (data : ConsoleData) : WriteResult :=
  if file ≠ stdoutFileno ∧ file ≠ stderrFileno then
    { ret := -1, pieces := [] }
  else
    { ret := data.1.length
      pieces := putTxDataWithWait room maxRetries data.1 (UInt32.ofNat data.1.length) }

/-- The accepted bytes are a first part of the data, and their number is reported. -/
structure Truthful (data : ConsoleData) (r : WriteResult) : Prop where
  calls : r.pieces.length ≤ maxRetries
  isPrefix : ∃ n, r.pieces.flatten = data.1.take n
  ret : r.ret = r.pieces.flatten.length

section Write

variable {room : Room}

theorem length_putTxDataWithWait_le (room : Room) (retries : ℕ) (buffer : List UInt8)
    (bufferLength : UInt32) :
    (putTxDataWithWait room retries buffer bufferLength).length ≤ retries := by
  induction retries generalizing room buffer bufferLength with
  | zero => exact Nat.le_refl 0
  | succ retries ih =>
      rw [putTxDataWithWait, List.length_cons]
      apply Nat.succ_le_succ
      split
      · exact Nat.zero_le retries
      · exact ih _ _ _

/-- What is left after a call, as a length and as bytes. -/
theorem toNat_sub_putTxData {buffer : List UInt8} {bufferLength : UInt32}
    (hlen : bufferLength.toNat = buffer.length) (room : ℕ) :
    (bufferLength - UInt32.ofNat (putTxData room bufferLength)).toNat =
      (buffer.drop (putTxData room bufferLength)).length := by
  have hle : putTxData room bufferLength ≤ bufferLength.toNat := Nat.min_le_right _ _
  have hpushed : (UInt32.ofNat (putTxData room bufferLength)).toNat =
      putTxData room bufferLength :=
    UInt32.toNat_ofNat_of_lt' (Nat.lt_of_le_of_lt hle bufferLength.toNat_lt)
  have hsub : UInt32.ofNat (putTxData room bufferLength) ≤ bufferLength := by
    rw [UInt32.le_iff_toNat_le, hpushed]
    exact hle
  rw [UInt32.toNat_sub_of_le _ _ hsub, hpushed, hlen, List.length_drop]

/-- The pointer and the length stay together, so that the calls take the bytes one after
another. -/
theorem flatten_putTxDataWithWait (room : Room) (retries : ℕ) {buffer : List UInt8}
    {bufferLength : UInt32} (hlen : bufferLength.toNat = buffer.length) :
    (putTxDataWithWait room retries buffer bufferLength).flatten =
      buffer.take (∑ k ∈ Finset.range retries, room k) := by
  induction retries generalizing room buffer bufferLength with
  | zero => simp [putTxDataWithWait]
  | succ retries ih =>
      have hrest := toNat_sub_putTxData hlen (room 0)
      have hpushed : putTxData (room 0) bufferLength = min (room 0) buffer.length := by
        rw [putTxData, hlen]
      rw [putTxDataWithWait, List.flatten_cons, Finset.sum_range_succ', Nat.add_comm _ (room 0)]
      rw [hpushed] at hrest ⊢
      by_cases hfit : buffer.length ≤ room 0
      · -- The last call takes what is left.
        rw [Nat.min_eq_right hfit, List.drop_length, List.length_nil] at hrest
        rw [Nat.min_eq_right hfit, if_pos (UInt32.toNat_inj.1 hrest), List.flatten_nil,
          List.append_nil, List.take_length, List.take_of_length_le]
        exact Nat.le_trans hfit (Nat.le_add_right _ _)
      · have hlt : room 0 < buffer.length := Nat.not_le.1 hfit
        rw [Nat.min_eq_left (Nat.le_of_lt hlt)] at hrest ⊢
        have hne : bufferLength - UInt32.ofNat (room 0) ≠ 0 := by
          intro hzero
          rw [hzero, List.length_drop, UInt32.toNat_zero] at hrest
          omega
        rw [if_neg hne, ih (fun k => room (k + 1)) hrest, ← List.take_add]

theorem consoleWrite_spec (room : Room) {file : Int32} (data : ConsoleData)
    (hfile : file = stdoutFileno ∨ file = stderrFileno) :
    (consoleWrite room file data).ret = data.1.length ∧
      (consoleWrite room file data).pieces.length ≤ maxRetries ∧
        (consoleWrite room file data).pieces.flatten =
          data.1.take (∑ k ∈ Finset.range maxRetries, room k) := by
  have hopen : ¬ (file ≠ stdoutFileno ∧ file ≠ stderrFileno) := by
    rw [not_and_or, not_not, not_not]
    exact hfile
  have hlen : (UInt32.ofNat data.1.length).toNat = data.1.length :=
    UInt32.toNat_ofNat_of_lt' (Nat.lt_trans data.2 (by decide))
  rw [consoleWrite, if_neg hopen]
  exact ⟨rfl, length_putTxDataWithWait_le _ _ _ _,
    flatten_putTxDataWithWait room maxRetries hlen⟩

/-- The accepted bytes are always a first part of the data; that the caller is told their
number holds exactly when a thousand calls have room for all of the data. -/
theorem write_truthful_iff (room : Room) {file : Int32} (data : ConsoleData)
    (hfile : file = stdoutFileno ∨ file = stderrFileno) :
    Truthful data (consoleWrite room file data) ↔
      data.1.length ≤ ∑ k ∈ Finset.range maxRetries, room k := by
  obtain ⟨hret, hcalls, hpieces⟩ := consoleWrite_spec room data hfile
  constructor
  · intro h
    have hreported := h.ret
    rw [hret, hpieces, List.length_take] at hreported
    omega
  · intro h
    constructor
    · exact hcalls
    · exact ⟨_, hpieces⟩
    · rw [hret, hpieces, List.take_of_length_le h]

/-- A line of seventy bytes. -/
def consoleLine : ConsoleData :=
  ⟨List.replicate 70 65, by rw [List.length_replicate]; decide⟩

/-- The transmission makes room for seven bytes at each of the first ten calls. -/
def drainedRoom : Room := fun k => if k < 10 then 7 else 0

theorem sum_drainedRoom : (∑ k ∈ Finset.range maxRetries, drainedRoom k) = 70 := by
  have hsplit : maxRetries = 10 + 990 := rfl
  have hlater : ∀ k ∈ Finset.range 990, drainedRoom (10 + k) = 0 := by
    intro k _
    exact if_neg (Nat.not_lt.2 (Nat.le_add_right 10 k))
  rw [hsplit, Finset.sum_range_add, Finset.sum_eq_zero hlater]
  decide

/-- The line is accepted in pieces of seven bytes. -/
theorem write_truthful_in_pieces :
    Truthful consoleLine (consoleWrite drainedRoom stdoutFileno consoleLine) := by
  refine (write_truthful_iff drainedRoom consoleLine (Or.inl rfl)).2 ?_
  rw [sum_drainedRoom, consoleLine, List.length_replicate]

/-- The buffer stays full: no byte is accepted, and one is reported. -/
theorem dropped_byte_reported :
    (consoleWrite (fun _ => 0) stdoutFileno ⟨[65], by decide⟩).ret = 1 ∧
      (consoleWrite (fun _ => 0) stdoutFileno ⟨[65], by decide⟩).pieces.flatten = [] ∧
      ¬ Truthful ⟨[65], by decide⟩
        (consoleWrite (fun _ => 0) stdoutFileno ⟨[65], by decide⟩) := by
  obtain ⟨hret, -, hpieces⟩ :=
    consoleWrite_spec (fun _ => 0) ⟨[65], by decide⟩ (Or.inl (rfl : stdoutFileno = stdoutFileno))
  rw [Finset.sum_const_zero, List.take_zero] at hpieces
  refine ⟨hret, hpieces, ?_⟩
  intro h
  have hreported := h.ret
  rw [hret, hpieces] at hreported
  revert hreported
  decide

end Write

section Stream

open Machine

variable {ι : Type}

/-- The bytes that an action puts into `tx_buffer`. -/
def Action.pieces : Action ι → List (List UInt8)
  | .putTxData _ buffer ret => [buffer.take ret]
  | _ => []

variable [DecidableEq ι]

theorem accepted_step {s t : State ι} {a : Action ι} (hs : step s a = some t) :
    t.accepted = s.accepted ++ a.pieces.flatten := by
  unfold step at hs
  split at hs
  · cases hs
  cases a with
  | putTxData _ buffer ret =>
      simp only at hs
      split at hs
      · cases hs
        rw [Action.pieces, List.flatten_singleton]
        rfl
      · cases hs
  | testGState _ =>
      simp only at hs
      split at hs
      · cases hs
        exact (List.append_nil _).symm
      · cases hs
  | tmBufferRead a =>
      simp only at hs
      split at hs
      · cases hs
        unfold tmBufferRead
        split
        · exact (List.append_nil _).symm
        · exact (List.append_nil _).symm
      · cases hs
  | transmitDma a =>
      simp only at hs
      split at hs
      · cases hs
        unfold transmitDma
        split
        · exact (List.append_nil _).symm
        · exact (List.append_nil _).symm
      · cases hs
  | transferComplete =>
      simp only at hs
      split at hs
      · cases hs
        exact (List.append_nil _).symm
      · cases hs

theorem accepted_run {s t : State ι} {as : List (Action ι)} (hrun : run step s as = some t) :
    t.accepted = s.accepted ++ (as.flatMap Action.pieces).flatten := by
  induction as generalizing s with
  | nil =>
      cases hrun
      exact (List.append_nil _).symm
  | cons a as ih =>
      rw [run_cons] at hrun
      obtain ⟨s', hs, hrest⟩ := Option.bind_eq_some_iff.1 hrun
      rw [ih hrest, accepted_step hs, List.flatMap_cons, List.flatten_append,
        List.append_assoc]

/-- A console write that has the UART to itself comes out as far as it was accepted. -/
theorem console_stream (room : Room) {file : Int32} (data : ConsoleData)
    (hfile : file = stdoutFileno ∨ file = stderrFileno) {as : List (Action ι)} {t : State ι}
    (hrun : run step init as = some t) (hundisturbed : Along step Undisturbed init as)
    (hpieces : as.flatMap Action.pieces = (consoleWrite room file data).pieces) :
    t.wire ++ t.chunk ++ t.txBuffer =
      data.1.take (∑ k ∈ Finset.range maxRetries, room k) := by
  have halways : Always step Core (init : State ι) as :=
    always_of_along step (fun _ _ _ h ha hs => h.keep ha hs) Core.init hundisturbed
  have hcore : Core t := halways.last step hrun
  obtain ⟨-, -, hflatten⟩ := consoleWrite_spec room data hfile
  have haccepted := accepted_run hrun
  rw [hpieces, hflatten, show (init : State ι).accepted = [] from rfl, List.nil_append]
    at haccepted
  rw [hcore.integrity.stream, haccepted]

end Stream

end Usart

end EspHosted
