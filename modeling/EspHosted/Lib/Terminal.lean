import Mathlib.Data.List.GetD
import EspHosted.Lib.Numeral

/-!
# A terminal

The row of a terminal that the cursor is in, as wide as it has to be, and what characters and
control sequences do to it. A line feed starts a new row. Colours are not shown.
-/

namespace EspHosted

open EspHosted.Bytes

/-- How far a control sequence has come. -/
inductive TerminalMode where
  | text
  | escape
  | control (digits : List UInt8)
  deriving DecidableEq

structure Terminal where
  row : ℕ → UInt8
  col : ℕ
  mode : TerminalMode

namespace Terminal

/-- A control sequence with the number `n`. The ones without one have the number 0. -/
def act (t : Terminal) (n : ℕ) (final : UInt8) : Terminal :=
  if final = 67 then { t with col := t.col + max 1 n }
  else if final = 68 then { t with col := t.col - max 1 n }
  else if final = 75 ∧ n = 0 then { t with row := fun i => if i < t.col then t.row i else 32 }
  else t

def put (t : Terminal) (c : UInt8) : Terminal :=
  match t.mode with
  | .text =>
      if c = 27 then { t with mode := .escape }
      else if c = 10 then { t with row := fun _ => 32, col := 0 }
      else if c = 13 then { t with col := 0 }
      else if c < 32 ∨ c = 127 then t
      else { t with row := fun i => if i = t.col then c else t.row i, col := t.col + 1 }
  | .escape => { t with mode := if c = 91 then .control [] else .text }
  | .control digits =>
      if isdigit c then { t with mode := .control (digits ++ [c]) }
      else { t.act (valueFrom 10 0 digits) c with mode := .text }

def write (t : Terminal) (s : List UInt8) : Terminal := s.foldl put t

/-- A character that takes a place of the row. -/
def Printable (c : UInt8) : Prop := ¬ (c < 32 ∨ c = 127)

instance (c : UInt8) : Decidable (Printable c) := inferInstanceAs (Decidable (¬ _))

/-- The row is `line` and nothing else, with the cursor at `col`. -/
structure Displays (t : Terminal) (line : List UInt8) (col : ℕ) : Prop where
  mode : t.mode = .text
  col : t.col = col
  row : ∀ i, t.row i = line.getD i 32

/-- The row up to the cursor is `line`. -/
structure Front (t : Terminal) (line : List UInt8) : Prop where
  mode : t.mode = .text
  col : t.col = line.length
  row : ∀ i < line.length, t.row i = line.getD i 32

section Write

variable {t : Terminal} {line s : List UInt8} {c : UInt8} {col : ℕ}

@[simp] theorem write_nil (t : Terminal) : t.write [] = t := rfl

@[simp] theorem write_cons (t : Terminal) (c : UInt8) (s : List UInt8) :
    t.write (c :: s) = (t.put c).write s := rfl

theorem write_append (t : Terminal) (s s' : List UInt8) :
    t.write (s ++ s') = (t.write s).write s' := List.foldl_append

theorem Printable.ne (h : Printable c) : c ≠ 27 ∧ c ≠ 10 ∧ c ≠ 13 := by
  refine ⟨?_, ?_, ?_⟩ <;> rintro rfl <;> exact absurd h (by decide)

theorem put_printable (hmode : t.mode = .text) (hc : Printable c) :
    t.put c =
      { t with row := fun i => if i = t.col then c else t.row i, col := t.col + 1 } := by
  obtain ⟨hesc, hlf, hcr⟩ := hc.ne
  rw [put, hmode]
  simp only
  rw [if_neg hesc, if_neg hlf, if_neg hcr, if_neg hc]

theorem put_lineFeed (hmode : t.mode = .text) :
    t.put 10 = { t with row := fun _ => 32, col := 0 } := by
  rw [put, hmode]
  rfl

/-! ## Control sequences -/

theorem put_escape (hmode : t.mode = .text) : t.put 27 = { t with mode := .escape } := by
  rw [put, hmode]
  rfl

theorem put_bracket (hmode : t.mode = .escape) : t.put 91 = { t with mode := .control [] } := by
  rw [put, hmode]
  rfl

theorem write_digits {digits : List UInt8} (hmode : t.mode = .control digits)
    (hs : ∀ c ∈ s, isdigit c) : t.write s = { t with mode := .control (digits ++ s) } := by
  induction s generalizing t digits with
  | nil => rw [write_nil, List.append_nil, ← hmode]
  | cons c s ih =>
      have hput : t.put c = { t with mode := .control (digits ++ [c]) } := by
        rw [put, hmode]
        exact if_pos (hs c List.mem_cons_self)
      rw [write_cons, hput, ih rfl fun d hd => hs d (List.mem_cons_of_mem c hd)]
      rw [← List.append_cons]

/-- A whole sequence. -/
theorem write_sequence (hmode : t.mode = .text) {digits : List UInt8}
    (hdigits : ∀ c ∈ digits, isdigit c) (hc : isdigit c = false) :
    t.write ([27, 91] ++ digits ++ [c]) =
      { t.act (valueFrom 10 0 digits) c with mode := .text } := by
  have hstart : t.write [27, 91] = { t with mode := .control [] } := by
    rw [write_cons, write_cons, put_escape hmode, put_bracket rfl, write_nil]
  rw [write_append, write_append, hstart, write_digits rfl hdigits, List.nil_append]
  rw [write_cons, write_nil, put]
  simp only [hc, Bool.false_eq_true, if_false]
  rw [act, act]
  split_ifs <;> rfl

theorem write_right (hmode : t.mode = .text) {n : ℕ} (hn : 0 < n) :
    t.write ([27, 91] ++ decimalText n ++ [67]) = { t with col := t.col + n } := by
  rw [write_sequence hmode (isdigit_of_mem_decimalText n) rfl, valueFrom_decimalText, act,
    if_pos rfl, max_eq_right hn, ← hmode]

theorem write_left (hmode : t.mode = .text) {n : ℕ} (hn : 0 < n) :
    t.write ([27, 91] ++ decimalText n ++ [68]) = { t with col := t.col - n } := by
  rw [write_sequence hmode (isdigit_of_mem_decimalText n) rfl, valueFrom_decimalText, act,
    if_neg (by decide), if_pos rfl, max_eq_right hn, ← hmode]

theorem write_back (hmode : t.mode = .text) :
    t.write [27, 91, 68] = { t with col := t.col - 1 } := by
  have hback : t.write [27, 91, 68] = { t.act 0 68 with mode := .text } :=
    write_sequence hmode (List.forall_mem_nil _) rfl
  rw [hback, act, if_neg (by decide), if_pos rfl, ← hmode]
  rfl

theorem write_erase (hmode : t.mode = .text) :
    t.write [27, 91, 75] = { t with row := fun i => if i < t.col then t.row i else 32 } := by
  have herase : t.write [27, 91, 75] = { t.act 0 75 with mode := .text } :=
    write_sequence hmode (List.forall_mem_nil _) rfl
  rw [herase, act, if_neg (by decide), if_neg (by decide), if_pos ⟨rfl, rfl⟩, ← hmode]

/-- A sequence that changes nothing in the row. -/
theorem write_colour (hmode : t.mode = .text) {digits : List UInt8}
    (hdigits : ∀ c ∈ digits, isdigit c) : t.write ([27, 91] ++ digits ++ [109]) = t := by
  rw [write_sequence hmode hdigits rfl, act, if_neg (by decide), if_neg (by decide),
    if_neg (fun h => absurd h.1 (by decide)), ← hmode]

/-! ## The row -/

theorem Front.put (h : Front t line) (hc : Printable c) : Front (t.put c) (line ++ [c]) := by
  rw [put_printable h.mode hc]
  refine ⟨h.mode, ?_, fun i hi => ?_⟩
  · rw [List.length_append, List.length_singleton]
    exact congrArg (· + 1) h.col
  · rw [List.length_append, List.length_singleton] at hi
    dsimp only
    rw [h.col]
    split_ifs with hlast
    · rw [hlast, List.getD_append_right _ _ _ _ (Nat.le_refl _), Nat.sub_self]
      rfl
    · have hlt : i < line.length := by omega
      rw [List.getD_append _ _ _ _ hlt]
      exact h.row i hlt

theorem Front.back (h : Front t (line ++ [c])) : Front (t.write [27, 91, 68]) line := by
  have hcol := h.col
  rw [List.length_append, List.length_singleton] at hcol
  rw [write_back h.mode]
  refine ⟨h.mode, by rw [hcol, Nat.add_sub_cancel], fun i hi => ?_⟩
  have hrow := h.row i (by rw [List.length_append]; exact Nat.lt_add_right _ hi)
  rwa [List.getD_append _ _ _ _ hi] at hrow

/-- What stands behind the cursor is erased. -/
theorem Front.erase (h : Front t line) : Displays (t.write [27, 91, 75]) line line.length := by
  rw [write_erase h.mode]
  refine ⟨h.mode, h.col, fun i => ?_⟩
  dsimp only
  rw [h.col]
  split_ifs with hi
  · exact h.row i hi
  · rw [List.getD_eq_default _ _ (Nat.le_of_not_lt hi)]

theorem Displays.front (h : Displays t line col) (hcol : col ≤ line.length) :
    Front t (line.take col) := by
  have hlength : (line.take col).length = col := by
    rw [List.length_take, Nat.min_eq_left hcol]
  refine ⟨h.mode, h.col.trans hlength.symm, fun i hi => ?_⟩
  rw [hlength] at hi
  rw [h.row, List.getD_eq_getElem?_getD, List.getD_eq_getElem?_getD, List.getElem?_take_of_lt hi]

theorem Displays.right (h : Displays t line col) {n : ℕ} (hn : 0 < n) :
    Displays (t.write ([27, 91] ++ decimalText n ++ [67])) line (col + n) := by
  rw [write_right h.mode hn, h.col]
  exact ⟨h.mode, rfl, h.row⟩

theorem Displays.left (h : Displays t line col) {n : ℕ} (hn : 0 < n) :
    Displays (t.write ([27, 91] ++ decimalText n ++ [68])) line (col - n) := by
  rw [write_left h.mode hn, h.col]
  exact ⟨h.mode, rfl, h.row⟩

theorem Displays.put (h : Displays t line line.length) (hc : Printable c) :
    Displays (t.put c) (line ++ [c]) (line ++ [c]).length := by
  have hfront := (h.front (Nat.le_refl _)).put hc
  rw [List.take_length] at hfront
  refine ⟨hfront.mode, hfront.col, fun i => ?_⟩
  by_cases hi : i < (line ++ [c]).length
  · exact hfront.row i hi
  · rw [List.getD_eq_default _ _ (Nat.le_of_not_lt hi), put_printable h.mode hc]
    rw [List.length_append, List.length_singleton] at hi
    dsimp only
    rw [h.col, if_neg (by omega), h.row, List.getD_eq_default _ _ (by omega)]

theorem Displays.write (h : Displays t line line.length) (hs : ∀ c ∈ s, Printable c) :
    Displays (t.write s) (line ++ s) (line ++ s).length := by
  induction s generalizing t line with
  | nil =>
      rw [List.append_nil]
      exact h
  | cons c s ih =>
      rw [write_cons, List.append_cons]
      exact ih (h.put (hs c List.mem_cons_self)) fun d hd => hs d (List.mem_cons_of_mem c hd)

/-! ## Lines -/

/-- Nothing, or lines that end. -/
def Lines (s : List UInt8) : Prop := 27 ∉ s ∧ (s = [] ∨ s.getLast? = some 10)

theorem put_mode (hmode : t.mode = .text) (hc : c ≠ 27) : (t.put c).mode = .text := by
  rw [put, hmode]
  simp only
  rw [if_neg hc]
  split_ifs
  exacts [rfl, rfl, hmode, rfl]

theorem write_mode (hmode : t.mode = .text) (hs : 27 ∉ s) : (t.write s).mode = .text := by
  induction s generalizing t with
  | nil => exact hmode
  | cons c s ih =>
      rw [List.mem_cons, not_or] at hs
      exact ih (put_mode hmode (Ne.symm hs.1)) hs.2

theorem displays_lineFeed (hmode : t.mode = .text) : Displays (t.put 10) [] 0 := by
  rw [put_lineFeed hmode]
  exact ⟨hmode, rfl, fun _ => rfl⟩

/-- Lines leave a row that is empty. -/
theorem Displays.lines (h : Displays t [] 0) (hs : Lines s) : Displays (t.write s) [] 0 := by
  obtain ⟨hesc, hnil | hlast⟩ := hs
  · rw [hnil]
    exact h
  · obtain ⟨front, rfl⟩ := List.getLast?_eq_some_iff.1 hlast
    rw [List.mem_append, not_or] at hesc
    rw [write_append]
    exact displays_lineFeed (write_mode h.mode hesc.1)

end Write

end Terminal

end EspHosted
