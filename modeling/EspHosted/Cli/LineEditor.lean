import EspHosted.Cli.Tokens

/-!
# A line editor

What the command line is for: a text with a cursor in it, the lines that were entered before,
and the words of a line when it is entered. The keys are told by bytes and by the sequences
that a terminal sends for the keys without a character.
-/

namespace EspHosted

namespace CommandLine

open EspHosted.Words

inductive Key where
  | char (c : UInt8)
  | enter
  | left
  | right
  | home
  | endKey
  | up
  | down
  | backspace
  | killBack
  | killForward
  | redraw
  | interrupt
  | none
  deriving DecidableEq

/-- Whether an escape sequence has started, and what it was last about. -/
structure Decoder where
  escape : Bool
  escapeSeq : EscapeSeq
  deriving DecidableEq

/-- The keys without a sequence. -/
def plainKey (ch : UInt8) : Key :=
  if ch = 13 ∨ ch = 10 then .enter
  else if ch = 21 then .killBack
  else if ch = 11 then .killForward
  else if ch = 5 then .endKey
  else if ch = 1 then .home
  else if ch = 6 then .right
  else if ch = 2 then .left
  else if ch = 16 then .up
  else if ch = 14 then .down
  else if ch = 127 ∨ ch = 8 then .backspace
  else if ch = 18 then .redraw
  else if ch = 3 then .interrupt
  else if ch ≤ 31 then .none
  else .char ch

/-- The key of a sequence that ends with `ch`. -/
def sequenceKey (escapeSeq : EscapeSeq) (ch : UInt8) : Key :=
  if escapeSeq = .bracket then
    if ch = 65 then .up
    else if ch = 66 then .down
    else if ch = 67 then .right
    else if ch = 68 then .left
    else .none
  else if ch = 126 then
    if escapeSeq = .home then .home
    else if escapeSeq = .endKey then .endKey
    else .none
  else
    .none

/-- What follows a bracket, and does not end the sequence. -/
def longSequence (escapeSeq : EscapeSeq) (ch : UInt8) : Option EscapeSeq :=
  if ch = 91 then some .bracket
  else if escapeSeq = .bracket ∧ ch = 55 then some .home
  else if escapeSeq = .bracket ∧ ch = 56 then some .endKey
  else none

def Decoder.decode (d : Decoder) (ch : UInt8) : Decoder × Key :=
  if d.escape = false then
    if ch = 27 then ({ d with escape := true }, .none) else (d, plainKey ch)
  else
    match longSequence d.escapeSeq ch with
    | some escapeSeq => ({ d with escapeSeq := escapeSeq }, .none)
    | none => ({ d with escape := false }, sequenceKey d.escapeSeq ch)

/-- The text in front of the cursor and behind it, the lines that were entered, the oldest one
first, and how far back in them the text was taken from. -/
structure Editor where
  before : List UInt8
  after : List UInt8
  history : List (List UInt8)
  place : ℕ
  deriving DecidableEq

def Editor.start : Editor where
  before := []
  after := []
  history := []
  place := 0

def Editor.text (e : Editor) : List UInt8 := e.before ++ e.after

/-- The words of a text, between its blanks. -/
def typedWords (text : List UInt8) : List (List UInt8) := words (fun c => decide (c = 32)) text

/-- A line with words is a command, unless there are too many of them. -/
def commandOf (argv : List (List UInt8)) : List Output :=
  if 0 < argv.length ∧ argv.length < COMMAND_TOKEN_NMB then [.execute argv] else []

def Editor.press (e : Editor) : Key → Editor
  | .char c =>
      if (c = 32 ∧ e.text = []) ∨ COMMAND_LINE_LEN ≤ e.text.length + 1 then e
      else { e with before := e.before ++ [c] }
  | .enter =>
      { before := []
        after := []
        history := if e.text = [] then e.history else saveLine e.history e.text
        place := 0 }
  | .left => { e with before := e.before.dropLast, after := e.before.getLast?.toList ++ e.after }
  | .right => { e with before := e.before ++ e.after.head?.toList, after := e.after.tail }
  | .home => { e with before := [], after := e.text }
  | .endKey => { e with before := e.text, after := [] }
  | .up =>
      if e.place < e.history.length then
        { e with before := recalled e.history (e.place + 1), after := [], place := e.place + 1 }
      else
        e
  | .down =>
      { e with before := recalled e.history (e.place - 1), after := [], place := e.place - 1 }
  | .backspace => { e with before := e.before.dropLast }
  | .killBack => { e with before := [] }
  | .killForward => { e with after := [] }
  | .redraw => e
  | .interrupt => e
  | .none => e

/-- What a key calls. -/
def Editor.calls (e : Editor) : Key → List Output
  | .enter => commandOf (typedWords e.text)
  | .interrupt => [.sigint]
  | _ => []

/-- An editor that reads bytes. -/
structure Session where
  decoder : Decoder
  editor : Editor
  deriving DecidableEq

def Session.start : Session where
  decoder := { escape := false, escapeSeq := .none }
  editor := .start

def Session.key (s : Session) (ch : UInt8) : Key := (s.decoder.decode ch).2

def Session.feed (s : Session) (ch : UInt8) : Session × List Output :=
  ({ decoder := (s.decoder.decode ch).1, editor := s.editor.press (s.key ch) },
    s.editor.calls (s.key ch))

end CommandLine

end EspHosted
