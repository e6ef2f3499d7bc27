import EspHosted.Cli.LineEditor
import EspHosted.Lib.Simulation

/-!
# The command line is a line editor

`microrl_insert_char` keeps the text, the cursor and the history of the editor for every input.
The command that it calls is that of the editor, unless something is left behind the line:
`^K` makes the line shorter and leaves its characters in `cmdline`, and a token that ends with
the line then goes on into them.
-/

namespace EspHosted

namespace CommandLine

open EspHosted.Bytes EspHosted.Words EspHosted.Simulation

/-! ## The line -/

/-- `cmdline` holds the text with the cursor behind `before`, and then `rest`, which has the 0
that ends the last string. -/
structure LineIs (cmdline : Block) (cmdlen cursor : ℕ) (before after rest : List UInt8) :
    Prop where
  bytes : cmdline.bytes = before.map stored ++ (after.map stored ++ rest)
  length : cmdline.bytes.length = COMMAND_LINE_LEN
  overrun : cmdline.overrun = false
  cmdlen : cmdlen = before.length + after.length
  cursor : cursor = before.length
  ended : 0 ∈ rest
  typed : 0 ∉ before ++ after

namespace LineIs

variable {cmdline : Block} {cmdlen cursor : ℕ} {before after rest : List UInt8}

theorem length_rest (h : LineIs cmdline cmdlen cursor before after rest) :
    cmdlen + rest.length = COMMAND_LINE_LEN := by
  have hlength := h.length
  rw [h.bytes, List.length_append, List.length_append, List.length_map, List.length_map] at hlength
  rw [h.cmdlen]
  omega

theorem slice_behind (h : LineIs cmdline cmdlen cursor before after rest) :
    slice cmdline.bytes cursor (cmdlen - cursor) = after.map stored := by
  rw [h.bytes]
  refine slice_append ?_ ?_ rest
  · rw [List.length_map, h.cursor]
  · rw [List.length_map, h.cmdlen, h.cursor]
    omega

theorem slice_line (h : LineIs cmdline cmdlen cursor before after rest) :
    slice cmdline.bytes 0 cmdlen = (before ++ after).map stored := by
  rw [h.bytes, ← List.append_assoc, ← List.map_append, slice, List.drop_zero]
  exact List.take_left' (by rw [List.length_map, List.length_append, h.cmdlen])

theorem drop_cmdlen (h : LineIs cmdline cmdlen cursor before after rest) :
    cmdline.bytes.drop cmdlen = rest := by
  rw [h.bytes, ← List.append_assoc, ← List.map_append]
  exact List.drop_left' (by rw [List.length_map, List.length_append, h.cmdlen])

/-- The cursor moves. -/
theorem move (h : LineIs cmdline cmdlen cursor before after rest) {before' after' : List UInt8}
    (htext : before' ++ after' = before ++ after) :
    LineIs cmdline cmdlen before'.length before' after' rest := by
  have hlength := congrArg List.length htext
  rw [List.length_append, List.length_append] at hlength
  refine ⟨?_, h.length, h.overrun, by rw [h.cmdlen, hlength], rfl, h.ended, ?_⟩
  · rw [← List.append_assoc, ← List.map_append, htext, List.map_append, List.append_assoc]
    exact h.bytes
  · rw [htext]
    exact h.typed

/-- `^K` -/
theorem killForward (h : LineIs cmdline cmdlen cursor before after rest) :
    LineIs cmdline cursor cursor before [] (after.map stored ++ rest) := by
  refine ⟨h.bytes, h.length, h.overrun, by rw [h.cursor]; rfl, h.cursor, ?_, ?_⟩
  · exact List.mem_append_right _ h.ended
  · rw [List.append_nil]
    exact fun hmem => h.typed (List.mem_append_left _ hmem)

/-- The stores of `microrl_insert_text` for one character. -/
theorem insert (h : LineIs cmdline cmdlen cursor before after rest) {c : UInt8} (hc : c ≠ 0)
    (hroom : cmdlen + 1 < COMMAND_LINE_LEN) :
    ∃ rest', LineIs
      (((cmdline.store (cursor + 1) (slice cmdline.bytes cursor (cmdlen - cursor))).store cursor
        [stored c]).store (cmdlen + 1) [0]) (cmdlen + 1) (cursor + 1) (before ++ [c]) after rest' ∧
      cstr rest' = [] := by
  have hrest := h.length_rest
  obtain ⟨r₀, rest, rfl⟩ : ∃ r₀ rest', rest = r₀ :: rest' :=
    List.exists_cons_of_length_pos (by omega)
  rw [List.length_cons] at hrest
  obtain ⟨r₁, rest, rfl⟩ : ∃ r₁ rest', rest = r₁ :: rest' :=
    List.exists_cons_of_length_pos (by omega)
  -- what the moved characters are stored over
  obtain ⟨y, moved, hmoved⟩ : ∃ y moved, after.map stored ++ [r₀] = y :: moved :=
    List.exists_cons_of_ne_nil (List.append_ne_nil_of_right_ne_nil _ (List.cons_ne_nil _ _))
  have hmovedlength := congrArg List.length hmoved
  simp only [List.length_append, List.length_cons, List.length_map, List.length_nil] at hmovedlength
  have hbytes : cmdline.bytes = (before.map stored ++ [y]) ++ (moved ++ (r₁ :: rest)) := by
    rw [h.bytes, List.append_assoc, List.append_cancel_left_eq, ← List.append_assoc [y]]
    rw [List.singleton_append, ← hmoved, List.append_assoc]
    rfl
  have hmove := Block.store_between hbytes (cursor + 1) (after.map stored) (by
    rw [h.cursor, List.length_append, List.length_map, List.length_singleton]) (by
    rw [List.length_map]
    omega)
  rw [h.slice_behind, hmove]
  have hput := Block.store_between (b := ⟨(before.map stored ++ [y]) ++ (after.map stored ++
    (r₁ :: rest)), cmdline.overrun⟩) (l := before.map stored) (m := [y])
    (r := after.map stored ++ (r₁ :: rest)) (List.append_assoc _ _ _) cursor [stored c]
    (by rw [h.cursor, List.length_map]) rfl
  rw [hput]
  have hzero := Block.store_between (b := ⟨before.map stored ++ ([stored c] ++ (after.map stored ++
    (r₁ :: rest))), cmdline.overrun⟩) (l := before.map stored ++ ([stored c] ++ after.map stored))
    (m := [r₁]) (r := rest) (by simp only [List.append_assoc]; rfl) (cmdlen + 1) [0] (by
      simp only [List.length_append, List.length_map, List.length_singleton, h.cmdlen]
      omega) rfl
  rw [hzero]
  refine ⟨0 :: rest, ⟨?_, ?_, h.overrun, ?_, ?_, List.mem_cons_self, ?_⟩, cstr_zero_cons rest⟩
  · simp only [List.map_append, List.append_assoc]
    rfl
  · simp only [List.length_append, List.length_map, List.length_singleton]
    rw [List.length_cons, h.cmdlen] at hrest
    omega
  · rw [h.cmdlen, List.length_append, List.length_singleton]
    omega
  · rw [h.cursor, List.length_append, List.length_singleton]
  · have htyped := h.typed
    simp only [List.mem_append, not_or, List.mem_singleton] at htyped ⊢
    exact ⟨⟨htyped.1, Ne.symm hc⟩, htyped.2⟩

/-- The stores of `microrl_backspace`. The byte behind the line is moved too. -/
theorem backspace {c : UInt8} (h : LineIs cmdline cmdlen cursor (before ++ [c]) after rest) :
    ∃ rest', LineIs
      ((cmdline.store (cursor - 1) (slice cmdline.bytes cursor (cmdlen - cursor + 1))).store cmdlen
        [0]) (cmdlen - 1) (cursor - 1) before after rest' ∧
      (cstr rest = [] → cstr rest' = []) := by
  have hrest := h.length_rest
  have hlength := h.length
  have hcmdlen := h.cmdlen
  have hcursor := h.cursor
  have htyped := h.typed
  obtain ⟨r, rest, rfl⟩ : ∃ r rest', rest = r :: rest' :=
    List.exists_cons_of_ne_nil (List.ne_nil_of_mem h.ended)
  have hbytes := h.bytes
  rw [List.map_append, List.append_assoc] at hbytes
  simp only [List.length_append, List.length_singleton] at hcmdlen hcursor
  have hbehind : slice cmdline.bytes cursor (cmdlen - cursor + 1) = after.map stored ++ [r] := by
    rw [hbytes, ← List.append_assoc, List.append_cons, ← List.append_assoc,
      List.append_assoc _ _ rest]
    refine slice_append ?_ ?_ rest
    · simp only [List.length_append, List.length_map, List.length_singleton, hcursor]
    · simp only [List.length_append, List.length_map, List.length_singleton]
      omega
  have hmove := Block.store_between (b := cmdline) (l := before.map stored)
    (m := [c].map stored ++ after.map stored) (r := r :: rest)
    (by rw [hbytes, List.append_assoc]) (cursor - 1) (after.map stored ++ [r]) (by
      rw [List.length_map]
      omega) (by
      simp only [List.length_append, List.length_map, List.length_singleton]
      omega)
  rw [hbehind, hmove]
  have hzero := Block.store_between (b := ⟨before.map stored ++ (after.map stored ++ [r] ++
    r :: rest), cmdline.overrun⟩) (l := before.map stored ++ (after.map stored ++ [r])) (m := [r])
    (r := rest) (by simp only [List.append_assoc]; rfl) cmdlen [0] (by
      simp only [List.length_append, List.length_map, List.length_singleton]
      omega) rfl
  rw [hzero]
  refine ⟨r :: 0 :: rest, ⟨?_, ?_, h.overrun, by omega, by omega, ?_, ?_⟩, ?_⟩
  · simp only [List.append_assoc]
    rfl
  · simp only [List.length_append, List.length_map, List.length_singleton]
    rw [List.length_cons] at hrest
    omega
  · exact List.mem_cons_of_mem r List.mem_cons_self
  · simp only [List.mem_append, not_or] at htyped ⊢
    exact ⟨htyped.1.1, htyped.2⟩
  · intro hnone
    by_cases hr : r = 0
    · rw [hr, cstr_zero_cons]
    · rw [cstr_cons hr] at hnone
      cases hnone

end LineIs

/-- A line of the history in the place of the text. -/
theorem lineIs_recall {cmdline : Block} {text : List UInt8}
    (hlength : cmdline.bytes.length = COMMAND_LINE_LEN) (hoverrun : cmdline.overrun = false)
    (htyped : 0 ∉ text) (hroom : text.length < COMMAND_LINE_LEN) :
    LineIs ((cmdline.store 0 (text.map stored)).store text.length [0]) text.length text.length
      text [] (0 :: cmdline.bytes.drop (text.length + 1)) := by
  have hmap : (text.map stored).length = text.length := List.length_map _
  have hfirst := Block.store_between (b := cmdline) (l := []) (m := cmdline.bytes.take text.length)
    (r := cmdline.bytes.drop text.length) (by rw [List.take_append_drop]; rfl) 0
    (text.map stored) rfl (by
      rw [List.length_take, hmap]
      omega)
  have hlt : text.length < cmdline.bytes.length := by omega
  rw [List.drop_eq_getElem_cons hlt, List.nil_append] at hfirst
  rw [hfirst]
  have hzero := Block.store_between (b := ⟨text.map stored ++ (cmdline.bytes[text.length] ::
    cmdline.bytes.drop (text.length + 1)), cmdline.overrun⟩) (l := text.map stored)
    (m := [cmdline.bytes[text.length]]) (r := cmdline.bytes.drop (text.length + 1)) rfl
    text.length [0] hmap.symm rfl
  rw [hzero]
  refine ⟨rfl, ?_, hoverrun, rfl, rfl, List.mem_cons_self, ?_⟩
  · simp only [List.length_append, List.length_singleton, List.length_drop, hmap]
    omega
  · rw [List.append_nil]
    exact htyped

theorem store_clear {cmdline : Block} (hlength : cmdline.bytes.length = COMMAND_LINE_LEN) :
    cmdline.store 0 (List.replicate COMMAND_LINE_LEN 0) =
      { bytes := List.replicate COMMAND_LINE_LEN 0, overrun := cmdline.overrun } := by
  have hstore := Block.store_between (b := cmdline) (l := []) (m := cmdline.bytes) (r := [])
    (by rw [List.append_nil]; rfl) 0 (List.replicate COMMAND_LINE_LEN 0) rfl
    (by rw [hlength, List.length_replicate])
  rwa [List.append_nil, List.nil_append] at hstore

/-- The empty line. -/
theorem lineIs_clear {cmdline : Block} (hlength : cmdline.bytes.length = COMMAND_LINE_LEN)
    (hoverrun : cmdline.overrun = false) :
    LineIs (cmdline.store 0 (List.replicate COMMAND_LINE_LEN 0)) 0 0 [] []
      (List.replicate COMMAND_LINE_LEN 0) := by
  rw [store_clear hlength]
  exact ⟨rfl, List.length_replicate, hoverrun, rfl, rfl,
    List.mem_replicate.2 ⟨by decide, rfl⟩, List.not_mem_nil⟩

/-! ## Keys -/

/-- What `microrl_insert_char` does for a key. -/
def perform (m : Microrl) : Key → Option Microrl
  | .char c =>
      if c = 32 ∧ m.cmdlen = 0 then
        some m
      else
        match microrlInsertText m [c] with
        | (m, true) => some (terminalPrintLine m (m.cursor - 1) m.cursor)
        | (m, false) => some m
  | .enter => newLineHandler m
  | .left => some (cursorBack m)
  | .right => some (cursorForward m)
  | .home => some (cursorHome m)
  | .endKey => some (cursorEnd m)
  | .up => histSearch m .up
  | .down => histSearch m .down
  | .backspace =>
      let m := microrlBackspace m
      some (terminalPrintLine m m.cursor m.cursor)
  | .killBack =>
      let m := backspaceAll m.cursor m
      some (terminalPrintLine m 0 m.cursor)
  | .killForward => some { m.print eraseToEnd with cmdlen := m.cursor }
  | .redraw =>
      some (terminalPrintLine (terminalResetCursor (printPrompt (terminalNewline m))) 0 m.cursor)
  | .interrupt => some { m with out := m.out ++ [.sigint] }
  | .none => some m

section Dispatch

variable {m : Microrl} {ch : UInt8}

theorem microrlInsertChar_plain (hescape : m.escape = false) (hch : ch ≠ 27) :
    microrlInsertChar m ch = perform m (plainKey ch) := by
  rw [microrlInsertChar, if_neg (by rw [hescape]; exact Bool.false_ne_true), plainKey]
  by_cases henter : ch = 13 ∨ ch = 10
  · rw [if_pos henter, if_pos henter]
    rfl
  rw [if_neg henter, if_neg henter, if_neg hch]
  by_cases hkillBack : ch = 21
  · rw [if_pos hkillBack, if_pos hkillBack]
    rfl
  rw [if_neg hkillBack, if_neg hkillBack]
  by_cases hkillForward : ch = 11
  · rw [if_pos hkillForward, if_pos hkillForward]
    rfl
  rw [if_neg hkillForward, if_neg hkillForward]
  by_cases hend : ch = 5
  · rw [if_pos hend, if_pos hend]
    rfl
  rw [if_neg hend, if_neg hend]
  by_cases hhome : ch = 1
  · rw [if_pos hhome, if_pos hhome]
    rfl
  rw [if_neg hhome, if_neg hhome]
  by_cases hright : ch = 6
  · rw [if_pos hright, if_pos hright]
    rfl
  rw [if_neg hright, if_neg hright]
  by_cases hleft : ch = 2
  · rw [if_pos hleft, if_pos hleft]
    rfl
  rw [if_neg hleft, if_neg hleft]
  by_cases hup : ch = 16
  · rw [if_pos hup, if_pos hup]
    rfl
  rw [if_neg hup, if_neg hup]
  by_cases hdown : ch = 14
  · rw [if_pos hdown, if_pos hdown]
    rfl
  rw [if_neg hdown, if_neg hdown]
  by_cases hback : ch = 127 ∨ ch = 8
  · rw [if_pos hback, if_pos hback]
    rfl
  rw [if_neg hback, if_neg hback]
  by_cases hredraw : ch = 18
  · rw [if_pos hredraw, if_pos hredraw]
    rfl
  rw [if_neg hredraw, if_neg hredraw]
  by_cases hinterrupt : ch = 3
  · rw [if_pos hinterrupt, if_pos hinterrupt]
    rfl
  rw [if_neg hinterrupt, if_neg hinterrupt]
  by_cases hcontrol : ch ≤ 31
  · rw [if_pos hcontrol, if_pos (Or.inr hcontrol)]
    rfl
  rw [if_neg hcontrol, perform]
  by_cases hblank : ch = 32 ∧ m.cmdlen = 0
  · rw [if_pos hblank, if_pos (Or.inl hblank)]
  · exact (if_neg (not_or.2 ⟨hblank, hcontrol⟩)).trans (if_neg hblank).symm

theorem microrlInsertChar_long (hescape : m.escape = true) {escapeSeq : EscapeSeq}
    (hlong : longSequence m.escapeSeq ch = some escapeSeq) :
    microrlInsertChar m ch = some { m with escapeSeq := escapeSeq } := by
  rw [microrlInsertChar, if_pos hescape, escapeProcess]
  rw [longSequence] at hlong
  by_cases hbracket : ch = 91
  · rw [if_pos hbracket] at hlong ⊢
    cases hlong
    rfl
  rw [if_neg hbracket] at hlong ⊢
  by_cases hhome : m.escapeSeq = .bracket ∧ ch = 55
  · rw [if_pos hhome] at hlong
    obtain ⟨hseq, rfl⟩ := hhome
    cases hlong
    rw [if_pos hseq]
    rfl
  rw [if_neg hhome] at hlong
  by_cases hend : m.escapeSeq = .bracket ∧ ch = 56
  · rw [if_pos hend] at hlong
    obtain ⟨hseq, rfl⟩ := hend
    cases hlong
    rw [if_pos hseq]
    rfl
  rw [if_neg hend] at hlong
  cases hlong

theorem microrlInsertChar_over (hescape : m.escape = true)
    (hlong : longSequence m.escapeSeq ch = none) :
    microrlInsertChar m ch =
      (perform m (sequenceKey m.escapeSeq ch)).map fun m' => { m' with escape := false } := by
  rw [microrlInsertChar, if_pos hescape, escapeProcess, sequenceKey]
  rw [longSequence] at hlong
  by_cases hbracket : ch = 91
  · rw [if_pos hbracket] at hlong
    cases hlong
  rw [if_neg hbracket] at hlong ⊢
  by_cases hseq : m.escapeSeq = .bracket
  · have h7 : ch ≠ 55 := by
      rintro rfl
      rw [if_pos ⟨hseq, rfl⟩] at hlong
      cases hlong
    have h8 : ch ≠ 56 := by
      rintro rfl
      rw [if_neg (fun h => h7 h.2), if_pos ⟨hseq, rfl⟩] at hlong
      cases hlong
    rw [if_pos hseq, if_pos hseq, if_neg h7, if_neg h8]
    by_cases hup : ch = 65
    · rw [if_pos hup, if_pos hup, Option.map_map]
      rfl
    rw [if_neg hup, if_neg hup]
    by_cases hdown : ch = 66
    · rw [if_pos hdown, if_pos hdown, Option.map_map]
      rfl
    rw [if_neg hdown, if_neg hdown]
    by_cases hright : ch = 67
    · rw [if_pos hright, if_pos hright]
      rfl
    rw [if_neg hright, if_neg hright]
    by_cases hleft : ch = 68
    · rw [if_pos hleft, if_pos hleft]
      rfl
    rw [if_neg hleft, if_neg hleft]
    rfl
  rw [if_neg hseq, if_neg hseq]
  by_cases htilde : ch = 126
  · rw [if_pos htilde, if_pos htilde]
    by_cases hhome : m.escapeSeq = .home
    · rw [if_pos hhome, if_pos hhome]
      rfl
    rw [if_neg hhome, if_neg hhome]
    by_cases hend : m.escapeSeq = .endKey
    · rw [if_pos hend, if_pos hend]
      rfl
    rw [if_neg hend, if_neg hend]
    rfl
  rw [if_neg htilde, if_neg htilde]
  rfl

end Dispatch

/-! ## The history -/

section History

theorem length_records_map (lines : List (List UInt8)) :
    (records (lines.map (List.map stored))).length = (records lines).length := by
  induction lines with
  | nil => rfl
  | cons line lines ih =>
      rw [List.map_cons, records_cons, records_cons, List.length_append, List.length_append, ih,
        length_record, length_record, List.length_map]

theorem evict_map (len : ℕ) (lines : List (List UInt8)) :
    evict len (lines.map (List.map stored)) = (evict len lines).map (List.map stored) := by
  induction lines with
  | nil => rfl
  | cons line lines ih =>
      have hsize := length_records_map (line :: lines)
      rw [List.map_cons] at hsize
      rw [List.map_cons, evict, evict, hsize, ih]
      split_ifs <;> rfl

theorem saveLine_map (lines : List (List UInt8)) (line : List UInt8) :
    saveLine (lines.map (List.map stored)) (line.map stored) =
      (saveLine lines line).map (List.map stored) := by
  rw [saveLine, saveLine, List.length_map, evict_map]
  split_ifs
  · rfl
  · rw [List.map_append]
    rfl

theorem mem_of_mem_evict {len : ℕ} {lines : List (List UInt8)} {line : List UInt8}
    (h : line ∈ evict len lines) : line ∈ lines := by
  induction lines with
  | nil => exact h
  | cons first lines ih =>
      rw [evict] at h
      split_ifs at h
      · exact h
      · exact List.mem_cons_of_mem first (ih h)

theorem mem_of_mem_saveLine {lines : List (List UInt8)} {line line' : List UInt8}
    (h : line' ∈ saveLine lines line) : line' ∈ lines ∨ line' = line := by
  rw [saveLine] at h
  split_ifs at h
  · exact Or.inl h
  · rcases List.mem_append.1 h with hold | hnew
    · exact Or.inl (mem_of_mem_evict hold)
    · exact Or.inr (List.mem_singleton.1 hnew)

theorem recalled_map (lines : List (List UInt8)) (place : ℕ) :
    recalled (lines.map (List.map stored)) place = (recalled lines place).map stored := by
  rw [recalled, recalled, List.length_map, List.getD_eq_getElem?_getD, List.getD_eq_getElem?_getD,
    List.getElem?_map]
  cases lines[lines.length - place]? <;> rfl

theorem recalled_mem (lines : List (List UInt8)) (place : ℕ) :
    recalled lines place ∈ lines ∨ recalled lines place = [] := by
  rw [recalled, List.getD_eq_getElem?_getD]
  cases hline : lines[lines.length - place]? with
  | none => exact Or.inr rfl
  | some line => exact Or.inl (List.mem_of_getElem? hline)

end History

/-! ## What a key does -/

def Output.isPrint : Output → Bool
  | .print _ => true
  | _ => false

/-- The calls of `execute` and `sigint`. -/
def called (out : List Output) : List Output := out.filter fun o => !o.isPrint

/-- What a key calls when the string `tail` stands behind the line. -/
def Editor.callsWith (e : Editor) (tail : List UInt8) : Key → List Output
  | .enter => commandOf (tokens tail (e.text.map stored))
  | key => e.calls key

/-- The command line holds the editor, with `rest` behind the text. -/
structure TextIs (m : Microrl) (e : Editor) (rest : List UInt8) : Prop where
  line : LineIs m.cmdline m.cmdlen m.cursor e.before e.after rest
  history : Saved m.ringHist (e.history.map (List.map stored))
  typed : ∀ line ∈ e.history, 0 ∉ line
  place : m.ringHist.cur = e.place
  place_le : e.place ≤ e.history.length

/-- `m'` comes from `m` by the key. -/
structure Performed (m : Microrl) (e : Editor) (rest : List UInt8) (key : Key) (m' : Microrl)
    (rest' : List UInt8) : Prop where
  text : TextIs m' (e.press key) rest'
  escape : m'.escape = m.escape
  escapeSeq : m'.escapeSeq = m.escapeSeq
  called : called m'.out = called m.out ++ e.callsWith (cstr rest) key
  ended : key ≠ .killForward → cstr rest = [] → cstr rest' = []

section Keys

variable {m : Microrl} {e : Editor} {rest : List UInt8}

@[simp] theorem called_prints (m : Microrl) (strs : List (List UInt8)) :
    CommandLine.called (m.prints strs).out = CommandLine.called m.out := by
  have hnone : CommandLine.called (strs.map Output.print) = [] := by
    rw [CommandLine.called, List.filter_eq_nil_iff]
    intro o ho
    obtain ⟨str, -, rfl⟩ := List.mem_map.1 ho
    exact Bool.false_ne_true
  rw [Microrl.prints, CommandLine.called, List.filter_append]
  exact (congrArg _ hnone).trans (List.append_nil _)

/-- Printing is all that happens. -/
theorem TextIs.prints (h : TextIs m e rest) (strs : List (List UInt8)) :
    TextIs (m.prints strs) e rest :=
  ⟨h.line, h.history, h.typed, h.place, h.place_le⟩

/-- A key that only moves the cursor. -/
theorem TextIs.move (h : TextIs m e rest) {before' after' : List UInt8}
    (htext : before' ++ after' = e.before ++ e.after) (strs : List (List UInt8)) :
    TextIs { m.prints strs with cursor := before'.length }
      { e with before := before', after := after' } rest :=
  ⟨h.line.move htext, h.history, h.typed, h.place, h.place_le⟩

theorem Performed.of_move (h : TextIs m e rest) {key : Key} {before' : List UInt8}
    (after' : List UInt8) (htext : before' ++ after' = e.before ++ e.after)
    (hpress : e.press key = { e with before := before', after := after' })
    (hcalls : e.callsWith (cstr rest) key = []) (strs : List (List UInt8)) :
    Performed m e rest key { m.prints strs with cursor := before'.length } rest := by
  refine ⟨?_, rfl, rfl, ?_, fun _ hnone => hnone⟩
  · rw [hpress]
    exact h.move htext strs
  · rw [hcalls, List.append_nil]
    exact called_prints m strs

theorem Performed.of_same (h : TextIs m e rest) {key : Key} (hpress : e.press key = e)
    (hcalls : e.callsWith (cstr rest) key = []) : Performed m e rest key m rest := by
  refine ⟨?_, rfl, rfl, ?_, fun _ hnone => hnone⟩
  · rw [hpress]
    exact h
  · rw [hcalls, List.append_nil]

theorem TextIs.left (h : TextIs m e rest) : Performed m e rest .left (cursorBack m) rest := by
  have hcursor := h.line.cursor
  rcases List.eq_nil_or_concat' e.before with hnil | ⟨before, c, hbefore⟩
  · rw [cursorBack, if_neg (by rw [hcursor, hnil]; exact Nat.lt_irrefl 0)]
    refine .of_same h ?_ rfl
    rw [Editor.press, hnil]
    exact congrArg (fun b => { e with before := b }) hnil.symm
  · rw [hbefore, List.length_append, List.length_singleton] at hcursor
    have hback : cursorBack m =
        { m.prints [cursorLeft 1] with cursor := before.length } := by
      rw [cursorBack, if_pos (by omega), hcursor, Nat.add_sub_cancel]
      rfl
    rw [hback]
    refine .of_move h (c :: e.after) ?_ ?_ rfl _
    · rw [hbefore, List.append_assoc]
      rfl
    · rw [Editor.press, hbefore, List.dropLast_concat, List.getLast?_concat]
      rfl

theorem TextIs.right (h : TextIs m e rest) : Performed m e rest .right (cursorForward m) rest := by
  have hcursor := h.line.cursor
  have hcmdlen := h.line.cmdlen
  cases hafter : e.after with
  | nil =>
      rw [hafter, List.length_nil, Nat.add_zero] at hcmdlen
      rw [cursorForward, if_neg (by omega)]
      refine .of_same h ?_ rfl
      have hpress : e.press .right = { e with before := e.before ++ [], after := [] } := by
        rw [Editor.press, hafter]
        rfl
      rw [hpress, List.append_nil]
      exact congrArg (fun a => { e with after := a }) hafter.symm
  | cons c after =>
      rw [hafter, List.length_cons] at hcmdlen
      have hforward : cursorForward m =
          { m.prints [cursorRight 1] with cursor := (e.before ++ [c]).length } := by
        rw [cursorForward, if_pos (by omega), hcursor, List.length_append, List.length_singleton]
        rfl
      rw [hforward]
      refine .of_move h after ?_ ?_ rfl _
      · rw [hafter, List.append_assoc]
        rfl
      · rw [Editor.press, hafter]
        rfl

theorem TextIs.home (h : TextIs m e rest) : Performed m e rest .home (cursorHome m) rest := by
  have hhome : cursorHome m = { m.prints [cursorLeft (COMMAND_LINE_LEN + PROMPT_LEN + 2) ++
      cursorRight PROMPT_LEN] with cursor := ([] : List UInt8).length } := rfl
  rw [hhome]
  exact .of_move h e.text rfl rfl rfl _

theorem TextIs.endKey (h : TextIs m e rest) : Performed m e rest .endKey (cursorEnd m) rest := by
  have hend : m.cmdlen = e.text.length := by
    rw [h.line.cmdlen, Editor.text, List.length_append]
  have hcursorEnd : cursorEnd m = { m.prints [if 0 < (m.cmdlen - m.cursor : ℤ) then
      cursorRight (m.cmdlen - m.cursor : ℤ).toNat
      else if (m.cmdlen - m.cursor : ℤ) < 0 then cursorLeft (-(m.cmdlen - m.cursor : ℤ)).toNat
      else []] with cursor := e.text.length } := by
    rw [← hend]
    rfl
  rw [hcursorEnd]
  exact .of_move h [] (List.append_nil _) rfl rfl _

/-- A key that is printed and changes nothing. -/
theorem Performed.prints {key : Key} {m' : Microrl} {rest' : List UInt8}
    (h : Performed m e rest key m' rest') (strs : List (List UInt8)) :
    Performed m e rest key (m'.prints strs) rest' :=
  ⟨h.text.prints strs, h.escape, h.escapeSeq, (called_prints m' strs).trans h.called, h.ended⟩

theorem TextIs.redraw (h : TextIs m e rest) :
    Performed m e rest .redraw
      (terminalPrintLine (terminalResetCursor (printPrompt (terminalNewline m))) 0 m.cursor)
      rest := by
  rw [terminalPrintLine_eq]
  simp only [terminalResetCursor, printPrompt, terminalNewline, print_eq, prints_prints]
  exact (Performed.of_same h rfl rfl).prints _

theorem TextIs.char (h : TextIs m e rest) {c : UInt8} (hc : c ≠ 0) :
    ∃ m' rest', perform m (.char c) = some m' ∧ Performed m e rest (.char c) m' rest' := by
  have hcmdlen : m.cmdlen = e.text.length := by
    rw [h.line.cmdlen, Editor.text, List.length_append]
  have hnil : m.cmdlen = 0 ↔ e.text = [] := by
    rw [hcmdlen, List.length_eq_zero_iff]
  rw [perform]
  by_cases hblank : c = 32 ∧ m.cmdlen = 0
  · refine ⟨m, rest, if_pos hblank, .of_same h ?_ rfl⟩
    rw [Editor.press, if_pos (Or.inl ⟨hblank.1, hnil.1 hblank.2⟩)]
  rw [if_neg hblank]
  by_cases hroom : m.cmdlen + 1 < COMMAND_LINE_LEN
  · obtain ⟨rest', hline, hended⟩ := h.line.insert hc hroom
    have hinsert : microrlInsertText m [c] =
        ({ m with
            cursor := m.cursor + 1
            cmdlen := m.cmdlen + 1
            cmdline := ((m.cmdline.store (m.cursor + 1)
              (slice m.cmdline.bytes m.cursor (m.cmdlen - m.cursor))).store m.cursor
                [stored c]).store (m.cmdlen + 1) [0] }, true) := if_pos hroom
    rw [hinsert]
    refine ⟨_, rest', rfl, ?_⟩
    rw [terminalPrintLine_eq]
    apply Performed.prints
    refine ⟨⟨?_, ?_, ?_, ?_, ?_⟩, rfl, rfl, (List.append_nil _).symm, fun _ _ => hended⟩
    all_goals rw [Editor.press, if_neg (by
      rintro (⟨hspace, htext⟩ | hfull)
      · exact hblank ⟨hspace, hnil.2 htext⟩
      · omega)]
    · exact hline
    · exact h.history
    · exact h.typed
    · exact h.place
    · exact h.place_le
  · have hinsert : microrlInsertText m [c] = (m, false) := if_neg hroom
    rw [hinsert]
    refine ⟨m, rest, rfl, .of_same h ?_ rfl⟩
    rw [Editor.press, if_pos (Or.inr (by omega))]

theorem TextIs.backspace (h : TextIs m e rest) :
    ∃ rest', Performed m e rest .backspace (microrlBackspace m) rest' := by
  have hcursor := h.line.cursor
  rcases List.eq_nil_or_concat' e.before with hnil | ⟨before, c, hbefore⟩
  · rw [microrlBackspace, if_neg (by rw [hcursor, hnil]; exact Nat.lt_irrefl 0)]
    refine ⟨rest, .of_same h ?_ rfl⟩
    rw [Editor.press, hnil]
    exact congrArg (fun b => { e with before := b }) hnil.symm
  · have hline := h.line
    rw [hbefore] at hline
    obtain ⟨rest', hshorter, hended⟩ := hline.backspace
    have hback : microrlBackspace m =
        { m.prints [[27, 91, 68, 32, 27, 91, 68]] with
          cursor := m.cursor - 1
          cmdline := (m.cmdline.store (m.cursor - 1)
            (slice m.cmdline.bytes m.cursor (m.cmdlen - m.cursor + 1))).store m.cmdlen [0]
          cmdlen := m.cmdlen - 1 } := by
      refine if_pos ?_
      rw [hcursor, hbefore, List.length_append]
      exact Nat.succ_pos _
    have hpress : e.press .backspace = { e with before := before } := by
      rw [Editor.press, hbefore, List.dropLast_concat]
    rw [hback]
    refine ⟨rest', ?_, rfl, rfl, ?_, fun _ => hended⟩
    · rw [hpress]
      exact ⟨hshorter, h.history, h.typed, h.place, h.place_le⟩
    · exact (called_prints m _).trans (List.append_nil _).symm

/-- The loop of `^U` takes the characters in front of the cursor one by one. -/
theorem TextIs.backspaceAll {n : ℕ} (hn : e.before.length = n) (h : TextIs m e rest) :
    ∃ rest', Performed m e rest .killBack (backspaceAll n m) rest' := by
  induction n generalizing m e rest with
  | zero =>
      refine ⟨rest, .of_same h ?_ rfl⟩
      exact congrArg (fun b => { e with before := b }) (List.length_eq_zero_iff.1 hn).symm
  | succ n ih =>
      obtain ⟨rest₁, hfirst⟩ := h.backspace
      have hn₁ : (e.press .backspace).before.length = n := by
        rw [Editor.press, List.length_dropLast, hn, Nat.add_sub_cancel]
      obtain ⟨rest₂, hothers⟩ := ih hn₁ hfirst.text
      have hloop : CommandLine.backspaceAll (n + 1) m =
          CommandLine.backspaceAll n (microrlBackspace m) := by
        refine if_pos ?_
        rw [h.line.cursor, hn]
        exact Nat.succ_pos n
      rw [hloop]
      refine ⟨rest₂, hothers.text, hothers.escape.trans hfirst.escape,
        hothers.escapeSeq.trans hfirst.escapeSeq, hothers.called.trans ?_, fun _ hnone => ?_⟩
      · rw [hfirst.called, List.append_assoc]
        rfl
      · exact hothers.ended nofun (hfirst.ended nofun hnone)

theorem TextIs.killForward (h : TextIs m e rest) :
    Performed m e rest .killForward { m.print eraseToEnd with cmdlen := m.cursor }
      (e.after.map stored ++ rest) := by
  refine ⟨⟨h.line.killForward, h.history, h.typed, h.place, h.place_le⟩, rfl, rfl, ?_,
    fun hkey => absurd rfl hkey⟩
  exact (called_prints m [eraseToEnd]).trans (List.append_nil _).symm

/-- A line of the history in the place of the text. -/
theorem TextIs.recall (h : TextIs m e rest) (place : ℕ) (hplace : place ≤ e.history.length)
    {cmdline : Block} (hlength : cmdline.bytes.length = COMMAND_LINE_LEN)
    (hoverrun : cmdline.overrun = false) (strs : List (List UInt8)) :
    TextIs
      { m.prints strs with
        ringHist := { m.ringHist with cur := place }
        cmdline := (cmdline.store 0 ((recalled e.history place).map stored)).store
          (recalled e.history place).length [0]
        cursor := (recalled e.history place).length
        cmdlen := (recalled e.history place).length }
      { e with before := recalled e.history place, after := [], place := place }
      (0 :: cmdline.bytes.drop ((recalled e.history place).length + 1)) := by
  have htyped : 0 ∉ recalled e.history place := by
    rcases recalled_mem e.history place with hmem | hnone
    · exact h.typed _ hmem
    · rw [hnone]
      exact List.not_mem_nil
  have hroom : (recalled e.history place).length < COMMAND_LINE_LEN := by
    rcases recalled_mem e.history place with hmem | hnone
    · have hstorable := (h.history.source.storable _ (List.mem_map_of_mem hmem)).2
      rw [List.length_map] at hstorable
      exact Nat.lt_of_le_of_lt hstorable (by decide)
    · rw [hnone]
      decide
  refine ⟨lineIs_recall hlength hoverrun htyped hroom, ⟨h.history.source, h.history.end_eq,
    h.history.overrun⟩, h.typed, rfl, hplace⟩

/-- What `hist_search` shows. -/
theorem histSearch_some {dir : HistDir} {ringHist : RingHistory} {cmdline : Block} {len : ℕ}
    (hrestore : histRestoreLine m.ringHist m.cmdline dir = some (ringHist, cmdline, some len)) :
    histSearch m dir = some
      { m.prints ((cursorLeft (COMMAND_LINE_LEN + PROMPT_LEN + 2) ++ cursorRight PROMPT_LEN) ::
          eraseToEnd :: (slice (cmdline.store len [0]).bytes 0 len).map (fun c => [nch c]) ++
            placing len) with
        ringHist := ringHist
        cmdline := cmdline.store len [0]
        cursor := len
        cmdlen := len } := by
  rw [histSearch, hrestore]
  simp only [Option.map_some, terminalPrintLine_eq, terminalResetCursor, print_eq, prints_prints]
  rfl

theorem TextIs.search (h : TextIs m e rest) {dir : HistDir} {key : Key} (place : ℕ)
    (hplace : place ≤ e.history.length)
    (hpress : e.press key =
      { e with before := recalled e.history place, after := [], place := place })
    (hcalls : e.callsWith (cstr rest) key = []) {cmdline : Block}
    (hlength : cmdline.bytes.length = COMMAND_LINE_LEN) (hoverrun : cmdline.overrun = false)
    (hended : cstr rest = [] →
      cstr (0 :: cmdline.bytes.drop ((recalled e.history place).length + 1)) = [])
    (hrestore : histRestoreLine m.ringHist m.cmdline dir =
      some ({ m.ringHist with cur := place },
        cmdline.store 0 (recalled (e.history.map (List.map stored)) place),
        some (recalled (e.history.map (List.map stored)) place).length)) :
    ∃ m' rest', histSearch m dir = some m' ∧ Performed m e rest key m' rest' := by
  rw [recalled_map, List.length_map] at hrestore
  refine ⟨_, _, histSearch_some hrestore, ?_, rfl, rfl, ?_, fun _ => hended⟩
  · rw [hpress]
    exact h.recall place hplace hlength hoverrun _
  · rw [hcalls, List.append_nil]
    exact called_prints m _

theorem TextIs.up (h : TextIs m e rest) :
    ∃ m' rest', histSearch m .up = some m' ∧ Performed m e rest .up m' rest' := by
  by_cases hlt : e.place < e.history.length
  · have hcur : m.ringHist.cur < (e.history.map (List.map stored)).length := by
      rw [h.place, List.length_map]
      exact hlt
    have hrestore := h.history.restore_up hcur m.cmdline
    rw [h.place] at hrestore
    refine h.search (e.place + 1) hlt (if_pos hlt) rfl ?_ ?_ (fun _ => cstr_zero_cons _) hrestore
    · rw [Block.length_store]
      exact h.line.length
    · rw [store_clear h.line.length]
      exact h.line.overrun
  · have hcur : m.ringHist.cur = (e.history.map (List.map stored)).length := by
      have hle := h.place_le
      rw [h.place, List.length_map]
      omega
    refine ⟨m, rest, ?_, .of_same h (if_neg hlt) rfl⟩
    rw [histSearch, h.history.restore_up_of_all hcur]
    rfl

theorem TextIs.down (h : TextIs m e rest) :
    ∃ m' rest', histSearch m .down = some m' ∧ Performed m e rest .down m' rest' := by
  have hle := h.place_le
  refine h.search (e.place - 1) (by omega) rfl rfl h.line.length h.line.overrun
    (fun _ => cstr_zero_cons _) ?_
  rw [← h.place]
  by_cases hpos : 0 < m.ringHist.cur
  · refine h.history.restore_down hpos ?_ m.cmdline
    rw [h.place, List.length_map]
    exact hle
  · have hzero : m.ringHist.cur = 0 := Nat.eq_zero_of_not_pos hpos
    have hsame : { m.ringHist with cur := m.ringHist.cur - 1 } = m.ringHist := by
      rw [hzero]
      exact congrArg (fun cur => { m.ringHist with cur := cur }) hzero.symm
    have hstore : m.cmdline.store 0 [] = m.cmdline := by
      rw [Block.store_of_le (Nat.zero_le _), Ring.patch_nil]
    rw [h.history.restore_down_of_zero hzero, hsame, hzero, recalled_zero, hstore]
    rfl

theorem called_append (out out' : List Output) :
    CommandLine.called (out ++ out') = CommandLine.called out ++ CommandLine.called out' :=
  List.filter_append out out'

/-- The command that is called is that of the strings that start in the line. -/
theorem executeLine_eq {before after : List UInt8}
    (h : LineIs m.cmdline m.cmdlen m.cursor before after rest) :
    ∃ out, executeLine m = { m with out := m.out ++ out } ∧
      CommandLine.called out = commandOf (tokens (cstr rest) ((before ++ after).map stored)) := by
  have hlimit : m.cmdlen ≤ m.cmdline.bytes.length := by
    have hrest := h.length_rest
    rw [h.length]
    omega
  have hsplit := splitLoop_eq hlimit (by decide : 0 < COMMAND_TOKEN_NMB) (Nat.zero_le _) []
  rw [Nat.sub_zero, h.slice_line, h.drop_cmdlen] at hsplit
  rw [executeLine, split]
  rcases hsplit with ⟨hnone, hcount⟩ | ⟨found, hsome, hargv, hcount⟩
  · rw [hnone]
    refine ⟨[.print tooManyTokens, .print ENDL], ?_, ?_⟩
    · simp only [Microrl.print, List.append_assoc]
      rfl
    · rw [commandOf, if_neg (by omega)]
      rfl
  · rw [hsome, List.nil_append]
    have hfound : found.length =
        (tokens (cstr rest) ((before ++ after).map stored)).length := by
      rw [← hargv, List.length_map]
    by_cases hpos : 0 < found.length
    · refine ⟨[.execute (m.argv found)], if_pos hpos, ?_⟩
      rw [Microrl.argv, hargv, commandOf, if_pos (by omega)]
      rfl
    · refine ⟨[], (if_neg hpos).trans ?_, ?_⟩
      · rw [List.append_nil]
      · rw [commandOf, if_neg (by omega)]
        rfl

theorem TextIs.enter (h : TextIs m e rest) :
    ∃ m' rest', newLineHandler m = some m' ∧ Performed m e rest .enter m' rest' := by
  have hcmdlen : m.cmdlen = e.text.length := by
    rw [h.line.cmdlen, Editor.text, List.length_append]
  -- the line is saved unless it is empty
  obtain ⟨ringHist, hsave, hsaved⟩ : ∃ ringHist, saveCommand m = some ringHist ∧
      Saved ringHist ((e.press .enter).history.map (List.map stored)) := by
    rw [Editor.press, saveCommand]
    by_cases hnone : e.text = []
    · rw [if_pos hnone, if_neg (by rw [hcmdlen, hnone]; exact Nat.lt_irrefl 0)]
      exact ⟨_, rfl, h.history⟩
    · have hpos : 0 < m.cmdlen := by
        rw [hcmdlen]
        exact List.length_pos_of_ne_nil hnone
      rw [if_pos hpos, if_neg hnone, ← saveLine_map, h.line.slice_line]
      refine h.history.save ?_
      rw [List.length_map]
      exact List.length_pos_of_ne_nil hnone
  obtain ⟨out, hexecute, hcalled⟩ := executeLine_eq (m := { m.prints [ENDL] with
    ringHist := ringHist }) h.line
  have hhandler : newLineHandler m = some
      { m with
        out := m.out ++ [.print ENDL] ++ out ++ [.print PROMPT_DEFAULT]
        cmdlen := 0
        cursor := 0
        cmdline := m.cmdline.store 0 (List.replicate COMMAND_LINE_LEN 0)
        ringHist := { ringHist with cur := 0 } } := by
    have hsave' : saveCommand (terminalNewline m) = some ringHist := hsave
    have hexecute' : executeLine { terminalNewline m with ringHist := ringHist } =
        { m with ringHist := ringHist, out := m.out ++ [.print ENDL] ++ out } := hexecute
    rw [newLineHandler]
    simp only [hsave', Option.map_some, hexecute']
    rfl
  refine ⟨_, List.replicate COMMAND_LINE_LEN 0, hhandler, ⟨?_, ?_, ?_, rfl, Nat.zero_le _⟩, rfl,
    rfl, ?_, fun _ _ => ?_⟩
  · exact lineIs_clear h.line.length h.line.overrun
  · exact ⟨hsaved.source, hsaved.end_eq, hsaved.overrun⟩
  · intro line hline
    rw [Editor.press] at hline
    split_ifs at hline
    · exact h.typed line hline
    · rcases mem_of_mem_saveLine hline with hold | hnew
      · exact h.typed line hold
      · rw [hnew]
        exact h.line.typed
  · rw [called_append, called_append, called_append, hcalled]
    exact (List.append_nil _).trans (congrArg (· ++ _) (List.append_nil _))
  · have hnone := cstr_replicate_append (by decide : 0 < COMMAND_LINE_LEN) []
    rwa [List.append_nil] at hnone

/-- Every key does to the command line what it does to the editor. -/
theorem TextIs.perform (h : TextIs m e rest) {key : Key} (hkey : key ≠ .char 0) :
    ∃ m' rest', perform m key = some m' ∧ Performed m e rest key m' rest' := by
  cases key with
  | char c => exact h.char fun hc => hkey (congrArg Key.char hc)
  | enter => exact h.enter
  | left => exact ⟨_, _, rfl, h.left⟩
  | right => exact ⟨_, _, rfl, h.right⟩
  | home => exact ⟨_, _, rfl, h.home⟩
  | endKey => exact ⟨_, _, rfl, h.endKey⟩
  | up => exact h.up
  | down => exact h.down
  | backspace =>
      obtain ⟨rest', hback⟩ := h.backspace
      refine ⟨_, rest', rfl, ?_⟩
      rw [terminalPrintLine_eq]
      exact hback.prints _
  | killBack =>
      obtain ⟨rest', hkill⟩ := h.backspaceAll h.line.cursor.symm
      refine ⟨_, rest', rfl, ?_⟩
      rw [terminalPrintLine_eq]
      exact hkill.prints _
  | killForward => exact ⟨_, _, rfl, h.killForward⟩
  | redraw => exact ⟨_, _, rfl, h.redraw⟩
  | interrupt =>
      refine ⟨_, rest, rfl, ⟨h.line, h.history, h.typed, h.place, h.place_le⟩, rfl, rfl, ?_,
        fun _ hnone => hnone⟩
      exact called_append _ _
  | none => exact ⟨m, rest, rfl, .of_same h rfl rfl⟩

end Keys

end CommandLine

end EspHosted
