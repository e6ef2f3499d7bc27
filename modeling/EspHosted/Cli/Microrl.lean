import EspHosted.Cli.History
import EspHosted.Lib.Numeral

/-!
# The command line

`microrl.c` as `config.h` sets it up: with the history, escape sequences, `^C` and `snprintf`,
without completion. A byte comes in, and what goes out is in `out`, a log that no branch reads.

A blank is stored as 0, so that the line is cut into C strings as it is typed.
-/

namespace EspHosted

namespace CommandLine

open EspHosted.Bytes

/-- `_COMMAND_TOKEN_NMB` -/
def COMMAND_TOKEN_NMB : ℕ := 8

/-- `_PROMPT_LEN` -/
def PROMPT_LEN : ℕ := 2

/-- `_PROMPT_DEFAULT`: a green `>`, and a blank. -/
def PROMPT_DEFAULT : List UInt8 := [27, 91, 51, 50, 109, 62, 27, 91, 48, 109, 32]

def ENDL : List UInt8 := [10]

/-- `ERROR:too many tokens` -/
def tooManyTokens : List UInt8 :=
  [69, 82, 82, 79, 82, 58, 116, 111, 111, 32, 109, 97, 110, 121, 32, 116, 111, 107, 101, 110, 115]

/-- `escape_seq`: 0, `_ESC_BRACKET`, `_ESC_HOME` or `_ESC_END` -/
inductive EscapeSeq where
  | none
  | bracket
  | home
  | endKey
  deriving DecidableEq

/-- What the callbacks are called with. -/
inductive Output where
  | print (str : List UInt8)
  | execute (argv : List (List UInt8))
  | sigint
  deriving DecidableEq

/-- `microrl_t` -/
structure Microrl where
  escapeSeq : EscapeSeq
  escape : Bool
  ringHist : RingHistory
  cmdline : Block
  cmdlen : ℕ
  cursor : ℕ
  out : List Output
  deriving DecidableEq

/-- `microrl_init` of a static object, whose flags are 0. -/
def microrlInit : Microrl where
  escapeSeq := .none
  escape := false
  ringHist := .init
  cmdline := Block.calloc COMMAND_LINE_LEN
  cmdlen := 0
  cursor := 0
  out := []

/-! ## The terminal -/

def Microrl.print (m : Microrl) (str : List UInt8) : Microrl :=
  { m with out := m.out ++ [.print str] }

def printPrompt (m : Microrl) : Microrl := m.print PROMPT_DEFAULT

def terminalBackspace (m : Microrl) : Microrl := m.print [27, 91, 68, 32, 27, 91, 68]

def terminalNewline (m : Microrl) : Microrl := m.print ENDL

/-- `"\033[%dC"` and `"\033[%dD"` -/
def cursorRight (n : ℕ) : List UInt8 := [27, 91] ++ decimalText n ++ [67]

def cursorLeft (n : ℕ) : List UInt8 := [27, 91] ++ decimalText n ++ [68]

def terminalMoveCursor (m : Microrl) (offset : ℤ) : Microrl :=
  m.print
    (if 0 < offset then cursorRight offset.toNat
    else if offset < 0 then cursorLeft (-offset).toNat
    else [])

def terminalResetCursor (m : Microrl) : Microrl :=
  m.print (cursorLeft (COMMAND_LINE_LEN + PROMPT_LEN + 2) ++ cursorRight PROMPT_LEN)

/-- `"\033[K"` -/
def eraseToEnd : List UInt8 := [27, 91, 75]

/-- A character of the line as it is printed. -/
def nch (c : UInt8) : UInt8 := if c = 0 then 32 else c

def terminalPrintLine (m : Microrl) (pos cursor : ℕ) : Microrl :=
  let m := m.print eraseToEnd
  let m := (slice m.cmdline.bytes pos (m.cmdlen - pos)).foldl (fun m c => m.print [nch c]) m
  terminalMoveCursor (terminalResetCursor m) cursor

/-! ## Tokens -/

/-- `while (p (cmdline [ind]) && (ind < limit)) ind++` -/
def scanWhile (p : UInt8 → Bool) (cmdline : List UInt8) (limit : ℕ) : (budget ind : ℕ) → ℕ
  | 0, ind => ind
  | budget + 1, ind =>
      if p (cmdline.getD ind 0) ∧ ind < limit then scanWhile p cmdline limit budget (ind + 1)
      else ind

/-- The loop of `split`. The tokens are told by where they start, and `room` is how many more
`tkn_arr` can take; `none` is -1. -/
def splitLoop (cmdline : List UInt8) (limit : ℕ) :
    (room ind : ℕ) → (tknArr : List ℕ) → Option (List ℕ)
  | 0, _, _ => none
  | room + 1, ind, tknArr =>
      let ind := scanWhile (· = 0) cmdline limit limit ind
      if ind < limit then
        let tknArr := tknArr ++ [ind]
        if room = 0 then
          none
        else
          let ind := scanWhile (· ≠ 0) cmdline limit limit ind
          if ind < limit then splitLoop cmdline limit room ind tknArr else some tknArr
      else
        some tknArr

def split (m : Microrl) (limit : ℕ) : Option (List ℕ) :=
  splitLoop m.cmdline.bytes limit COMMAND_TOKEN_NMB 0 []

/-- The strings that `tkn_arr` points to. -/
def Microrl.argv (m : Microrl) (tknArr : List ℕ) : List (List UInt8) :=
  tknArr.map fun ind => cstr (m.cmdline.bytes.drop ind)

/-! ## Editing -/

/-- What `microrl_insert_text` stores for a character. -/
def stored (c : UInt8) : UInt8 := if c = 32 then 0 else c

/-- `microrl_insert_text`, and whether there was room. -/
def microrlInsertText (m : Microrl) (text : List UInt8) : Microrl × Bool :=
  let len := text.length
  if m.cmdlen + len < COMMAND_LINE_LEN then
    let behind := slice m.cmdline.bytes m.cursor (m.cmdlen - m.cursor)
    let cmdline := m.cmdline.store (m.cursor + len) behind
    let cmdline := cmdline.store m.cursor (text.map stored)
    let m := { m with cursor := m.cursor + len, cmdlen := m.cmdlen + len }
    ({ m with cmdline := cmdline.store m.cmdlen [0] }, true)
  else
    (m, false)

def microrlBackspace (m : Microrl) : Microrl :=
  if 0 < m.cursor then
    let m := terminalBackspace m
    let behind := slice m.cmdline.bytes m.cursor (m.cmdlen - m.cursor + 1)
    let cmdline := m.cmdline.store (m.cursor - 1) behind
    { m with
      cursor := m.cursor - 1
      cmdline := cmdline.store m.cmdlen [0]
      cmdlen := m.cmdlen - 1 }
  else
    m

/-- The loop of `^U`; every turn takes one from `cursor`. -/
def backspaceAll : (budget : ℕ) → Microrl → Microrl
  | 0, m => m
  | budget + 1, m => if 0 < m.cursor then backspaceAll budget (microrlBackspace m) else m

/-- `hist_search`; `none` when a loop of the history does not end. -/
def histSearch (m : Microrl) (dir : HistDir) : Option Microrl :=
  (histRestoreLine m.ringHist m.cmdline dir).map fun (ringHist, cmdline, ret) =>
    let m := { m with ringHist := ringHist, cmdline := cmdline }
    match ret with
    | none => m
    | some len =>
        let m := { m with cmdline := m.cmdline.store len [0], cursor := len, cmdlen := len }
        terminalPrintLine (terminalResetCursor m) 0 m.cursor

/-- `^F` and the key to the right -/
def cursorForward (m : Microrl) : Microrl :=
  if m.cursor < m.cmdlen then
    { terminalMoveCursor m 1 with cursor := m.cursor + 1 }
  else
    m

/-- `^B` and the key to the left -/
def cursorBack (m : Microrl) : Microrl :=
  if 0 < m.cursor then
    { terminalMoveCursor m (-1) with cursor := m.cursor - 1 }
  else
    m

/-- `^A` and the home key -/
def cursorHome (m : Microrl) : Microrl := { terminalResetCursor m with cursor := 0 }

/-- `^E` and the end key -/
def cursorEnd (m : Microrl) : Microrl :=
  { terminalMoveCursor m (m.cmdlen - m.cursor) with cursor := m.cmdlen }

/-- `escape_process`, and whether the sequence is over. -/
def escapeProcess (m : Microrl) (ch : UInt8) : Option (Microrl × Bool) :=
  if ch = 91 then
    some ({ m with escapeSeq := .bracket }, false)
  else if m.escapeSeq = .bracket then
    if ch = 65 then (histSearch m .up).map fun m => (m, true)
    else if ch = 66 then (histSearch m .down).map fun m => (m, true)
    else if ch = 67 then some (cursorForward m, true)
    else if ch = 68 then some (cursorBack m, true)
    else if ch = 55 then some ({ m with escapeSeq := .home }, false)
    else if ch = 56 then some ({ m with escapeSeq := .endKey }, false)
    else some (m, true)
  else if ch = 126 then
    if m.escapeSeq = .home then some (cursorHome m, true)
    else if m.escapeSeq = .endKey then some (cursorEnd m, true)
    else some (m, true)
  else
    some (m, true)

/-- The part of `new_line_handler` that runs the command. -/
def executeLine (m : Microrl) : Microrl :=
  match split m m.cmdlen with
  | none => (m.print tooManyTokens).print ENDL
  | some tknArr =>
      if 0 < tknArr.length then { m with out := m.out ++ [.execute (m.argv tknArr)] } else m

/-- The part of `new_line_handler` that saves the line. -/
def saveCommand (m : Microrl) : Option RingHistory :=
  if 0 < m.cmdlen then histSaveLine m.ringHist (slice m.cmdline.bytes 0 m.cmdlen)
  else some m.ringHist

def newLineHandler (m : Microrl) : Option Microrl :=
  let m := terminalNewline m
  (saveCommand m).map fun ringHist =>
    let m := printPrompt (executeLine { m with ringHist := ringHist })
    { m with
      cmdlen := 0
      cursor := 0
      cmdline := m.cmdline.store 0 (List.replicate COMMAND_LINE_LEN 0)
      ringHist := { m.ringHist with cur := 0 } }

/-- `microrl_insert_char`. The character is a byte; the keys are told by their codes. -/
def microrlInsertChar (m : Microrl) (ch : UInt8) : Option Microrl :=
  if m.escape then
    (escapeProcess m ch).map fun (m, ended) => if ended then { m with escape := false } else m
  else if ch = 13 ∨ ch = 10 then newLineHandler m
  else if ch = 27 then some { m with escape := true }
  else if ch = 21 then
    let m := backspaceAll m.cursor m
    some (terminalPrintLine m 0 m.cursor)
  else if ch = 11 then some { m.print eraseToEnd with cmdlen := m.cursor }
  else if ch = 5 then some (cursorEnd m)
  else if ch = 1 then some (cursorHome m)
  else if ch = 6 then some (cursorForward m)
  else if ch = 2 then some (cursorBack m)
  else if ch = 16 then histSearch m .up
  else if ch = 14 then histSearch m .down
  else if ch = 127 ∨ ch = 8 then
    let m := microrlBackspace m
    some (terminalPrintLine m m.cursor m.cursor)
  else if ch = 18 then
    some (terminalPrintLine (terminalResetCursor (printPrompt (terminalNewline m))) 0 m.cursor)
  else if ch = 3 then some { m with out := m.out ++ [.sigint] }
  else if (ch = 32 ∧ m.cmdlen = 0) ∨ ch ≤ 31 then some m
  else
    match microrlInsertText m [ch] with
    | (m, true) => some (terminalPrintLine m (m.cursor - 1) m.cursor)
    | (m, false) => some m

/-! ## What is printed -/

section Prints

variable (m : Microrl)

def Microrl.prints (strs : List (List UInt8)) : Microrl :=
  { m with out := m.out ++ strs.map .print }

theorem print_eq (str : List UInt8) : m.print str = m.prints [str] := rfl

@[simp] theorem prints_prints (strs strs' : List (List UInt8)) :
    (m.prints strs).prints strs' = m.prints (strs ++ strs') := by
  simp only [Microrl.prints, List.append_assoc, List.map_append]

theorem foldl_print (chars : List UInt8) :
    chars.foldl (fun m c => m.print [nch c]) m = m.prints (chars.map fun c => [nch c]) := by
  induction chars generalizing m with
  | nil => simp only [Microrl.prints, List.foldl_nil, List.map_nil, List.append_nil]
  | cons c chars ih =>
      rw [List.foldl_cons, ih, print_eq, prints_prints]
      rfl

/-- The cursor at its place, from the start of the row. -/
def placing (cursor : ℕ) : List (List UInt8) :=
  [cursorLeft (COMMAND_LINE_LEN + PROMPT_LEN + 2) ++ cursorRight PROMPT_LEN,
    if 0 < cursor then cursorRight cursor else []]

theorem terminalPrintLine_eq (pos cursor : ℕ) :
    terminalPrintLine m pos cursor =
      m.prints (eraseToEnd ::
        (slice m.cmdline.bytes pos (m.cmdlen - pos)).map (fun c => [nch c]) ++ placing cursor) := by
  have hmove : (if 0 < (cursor : ℤ) then cursorRight (cursor : ℤ).toNat
      else if (cursor : ℤ) < 0 then cursorLeft (-(cursor : ℤ)).toNat else []) =
      if 0 < cursor then cursorRight cursor else [] := by
    by_cases hpos : 0 < cursor
    · rw [if_pos hpos, if_pos (by omega), Int.toNat_natCast]
    · rw [if_neg hpos, if_neg (by omega), if_neg (by omega)]
  rw [terminalPrintLine]
  simp only [foldl_print]
  simp only [terminalMoveCursor, terminalResetCursor, print_eq, prints_prints, hmove]
  rw [List.append_assoc]
  rfl

end Prints

end CommandLine

end EspHosted
