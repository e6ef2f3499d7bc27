import EspHosted.Cli.Session
import EspHosted.Lib.Terminal

/-!
# What the terminal shows

The row of the terminal is the prompt and the text of the editor, with the cursor where the
editor has it. A key prints only what it changes, so that this holds when it held before the
key. Enter and `^R` start a new row and do not need that. `^C` prints behind the text.
-/

namespace EspHosted

namespace CommandLine

open EspHosted.Bytes EspHosted.Simulation

/-- What is printed: by `microrl.c`, or by a call that answers. -/
def Output.text (answer : Output → List UInt8) : Output → List UInt8
  | .print str => str
  | o => answer o

def printed (answer : Output → List UInt8) (out : List Output) : List UInt8 :=
  out.flatMap (Output.text answer)

/-- The prompt without its colours. -/
def prompt : List UInt8 := [62, 32]

/-- The row with the editor in it. -/
def Displayed (t : Terminal) (e : Editor) : Prop :=
  t.Displays (prompt ++ e.text) (PROMPT_LEN + e.before.length)

/-- The characters of the text and of the history take a place each. -/
structure Editor.Printable (e : Editor) : Prop where
  before : ∀ c ∈ e.before, Terminal.Printable c
  after : ∀ c ∈ e.after, Terminal.Printable c
  history : ∀ line ∈ e.history, ∀ c ∈ line, Terminal.Printable c

section Printable

theorem printable_of_plainKey {ch c : UInt8} (h : plainKey ch = .char c) :
    Terminal.Printable c := by
  have hsame := plainKey_eq_char h
  rw [← hsame]
  rintro (hcontrol | rfl)
  · have hle : ch ≤ 31 := by
      rw [UInt8.lt_iff_toNat_lt] at hcontrol
      rw [UInt8.le_iff_toNat_le]
      exact Nat.le_of_lt_succ hcontrol
    rw [plainKey] at h
    iterate 12 replace h := eq_of_ite h (by rintro ⟨⟩)
    rw [if_pos hle] at h
    cases h
  · revert h
    rw [← hsame]
    decide

theorem plainKey_eq_interrupt {ch : UInt8} (h : plainKey ch = .interrupt) : ch = 3 := by
  by_contra hch
  rw [plainKey] at h
  iterate 11 replace h := eq_of_ite h (by rintro ⟨⟩)
  rw [if_neg hch] at h
  replace h := eq_of_ite h (by rintro ⟨⟩)
  cases h

/-- A character or `^C` comes without a sequence. -/
theorem key_cases (s : Session) (ch : UInt8) :
    (∀ c, s.key ch = .char c → Terminal.Printable c) ∧ (s.key ch = .interrupt → ch = 3) := by
  rw [Session.key, Decoder.decode]
  by_cases hidle : s.decoder.escape = false
  · rw [if_pos hidle]
    by_cases hesc : ch = 27
    · rw [if_pos hesc]
      refine ⟨fun c => ?_, ?_⟩ <;> rintro ⟨⟩
    · rw [if_neg hesc]
      exact ⟨fun c => printable_of_plainKey, plainKey_eq_interrupt⟩
  · rw [if_neg hidle]
    obtain ⟨hchar, -, -, hinterrupt⟩ := sequenceKey_ne s.decoder.escapeSeq ch
    cases hlong : longSequence s.decoder.escapeSeq ch with
    | some escapeSeq => refine ⟨fun c => ?_, ?_⟩ <;> rintro ⟨⟩
    | none => exact ⟨fun c h => absurd h (hchar c), fun h => absurd h hinterrupt⟩

namespace Editor.Printable

variable {e : Editor}

theorem text (h : e.Printable) : ∀ c ∈ e.text, Terminal.Printable c := fun c hc =>
  (List.mem_append.1 hc).elim (h.before c) (h.after c)

theorem recalled (h : e.Printable) (place : ℕ) :
    ∀ c ∈ recalled e.history place, Terminal.Printable c := by
  rcases recalled_mem e.history place with hmem | hnil
  · exact h.history _ hmem
  · rw [hnil]
    exact List.forall_mem_nil _

theorem press (h : e.Printable) {key : Key} (hkey : ∀ c, key = .char c → Terminal.Printable c) :
    (e.press key).Printable := by
  cases key with
  | char c =>
      rw [Editor.press]
      split_ifs
      · exact h
      · refine ⟨fun d hd => ?_, h.after, h.history⟩
        rcases List.mem_append.1 hd with hold | hnew
        · exact h.before d hold
        · rw [List.mem_singleton.1 hnew]
          exact hkey c rfl
  | enter =>
      refine ⟨List.forall_mem_nil _, List.forall_mem_nil _, fun line hline => ?_⟩
      rw [Editor.press] at hline
      split_ifs at hline
      · exact h.history line hline
      · rcases mem_of_mem_saveLine hline with hold | hnew
        · exact h.history line hold
        · rw [hnew]
          exact h.text
  | left =>
      refine ⟨fun c hc => h.before c (List.dropLast_subset _ hc), fun c hc => ?_, h.history⟩
      rcases List.mem_append.1 hc with hlast | hold
      · exact h.before c (List.mem_of_getLast? (Option.mem_toList.1 hlast))
      · exact h.after c hold
  | right =>
      refine ⟨fun c hc => ?_, fun c hc => h.after c (List.mem_of_mem_tail hc), h.history⟩
      rcases List.mem_append.1 hc with hold | hfirst
      · exact h.before c hold
      · exact h.after c (List.mem_of_mem_head? (Option.mem_toList.1 hfirst))
  | home => exact ⟨List.forall_mem_nil _, h.text, h.history⟩
  | endKey => exact ⟨h.text, List.forall_mem_nil _, h.history⟩
  | up =>
      rw [Editor.press]
      split_ifs
      · exact ⟨h.recalled _, List.forall_mem_nil _, h.history⟩
      · exact h
  | down => exact ⟨h.recalled _, List.forall_mem_nil _, h.history⟩
  | backspace =>
      exact ⟨fun c hc => h.before c (List.dropLast_subset _ hc), h.after, h.history⟩
  | killBack => exact ⟨List.forall_mem_nil _, h.after, h.history⟩
  | killForward => exact ⟨h.before, List.forall_mem_nil _, h.history⟩
  | redraw => exact h
  | interrupt => exact h
  | none => exact h

end Editor.Printable

end Printable

/-! ## What is printed -/

section Printed

variable {m m' : Microrl} {e e' : Editor} {t : Terminal} {rest rest' line : List UInt8} {n : ℕ}

@[simp] theorem printed_nil (answer : Output → List UInt8) : printed answer [] = [] := rfl

theorem printed_append (answer : Output → List UInt8) (out out' : List Output) :
    printed answer (out ++ out') = printed answer out ++ printed answer out' :=
  List.flatMap_append

theorem printed_map (answer : Output → List UInt8) (strs : List (List UInt8)) :
    printed answer (strs.map .print) = strs.flatten := by
  induction strs with
  | nil => rfl
  | cons str strs ih => exact congrArg (str ++ ·) ih

/-- What `terminal_reset_cursor` prints. -/
def resetCursor : List UInt8 :=
  cursorLeft (COMMAND_LINE_LEN + PROMPT_LEN + 2) ++ cursorRight PROMPT_LEN

/-- What `terminal_print_line` prints. -/
def lineStrs (m : Microrl) (pos cursor : ℕ) : List (List UInt8) :=
  eraseToEnd :: (slice m.cmdline.bytes pos (m.cmdlen - pos)).map (fun c => [nch c]) ++
    placing cursor

theorem displays_reset (h : t.Displays line n) (hn : n ≤ COMMAND_LINE_LEN + PROMPT_LEN + 2) :
    (t.write resetCursor).Displays line PROMPT_LEN := by
  have hstart := h.left (by decide : 0 < COMMAND_LINE_LEN + PROMPT_LEN + 2)
  rw [Nat.sub_eq_zero_of_le hn] at hstart
  rw [resetCursor, Terminal.write_append]
  exact hstart.right (by decide : 0 < PROMPT_LEN)

theorem displays_placing (h : t.Displays line n) (hn : n ≤ COMMAND_LINE_LEN + PROMPT_LEN + 2)
    (cursor : ℕ) : (t.write (placing cursor).flatten).Displays line (PROMPT_LEN + cursor) := by
  have hreset := displays_reset h hn
  have hplacing : (placing cursor).flatten =
      resetCursor ++ if 0 < cursor then cursorRight cursor else [] := by
    rw [placing, List.flatten_cons, List.flatten_singleton]
    rfl
  rw [hplacing, Terminal.write_append]
  split_ifs with hpos
  · exact hreset.right hpos
  · rw [Nat.eq_zero_of_not_pos hpos]
    exact hreset

/-- The characters of the line are printed as they were typed. -/
theorem flatten_shown {text : List UInt8} (htyped : 0 ∉ text) :
    ((text.map stored).map fun c => [nch c]).flatten = text := by
  induction text with
  | nil => rfl
  | cons c text ih =>
      rw [List.mem_cons, not_or] at htyped
      have hc : nch (stored c) = c := by
        rw [stored, nch]
        split_ifs with hblank hzero
        · exact hblank.symm
        · exact absurd rfl hzero
        · rename_i hzero
          exact absurd hzero.symm htyped.1
        · rfl
      rw [List.map_cons, List.map_cons, List.flatten_cons, ih htyped.2, hc]
      rfl

/-- The line is printed behind the front of it. -/
theorem displayed_line (hline : LineIs m.cmdline m.cmdlen m.cursor e.before e.after rest)
    (hp : e.Printable) {pre suf : List UInt8} (htext : e.text = pre ++ suf) {pos : ℕ}
    (hpos : pos = pre.length) (hfront : t.Front (prompt ++ pre)) :
    Displayed (t.write (lineStrs m pos m.cursor).flatten) e := by
  subst hpos
  have hlength := congrArg List.length htext
  rw [Editor.text, List.length_append, List.length_append, ← hline.cmdlen] at hlength
  have hslice : slice m.cmdline.bytes pre.length (m.cmdlen - pre.length) = suf.map stored := by
    have hbytes : m.cmdline.bytes = pre.map stored ++ (suf.map stored ++ rest) := by
      rw [← List.append_assoc, ← List.map_append, ← htext, Editor.text, List.map_append,
        List.append_assoc]
      exact hline.bytes
    rw [hbytes]
    refine slice_append ?_ ?_ rest
    · rw [List.length_map]
    · rw [List.length_map]
      omega
  have htyped : 0 ∉ suf := by
    have hall := hline.typed
    rw [← Editor.text, htext, List.mem_append, not_or] at hall
    exact hall.2
  have hprintable : ∀ c ∈ suf, Terminal.Printable c := by
    intro c hc
    refine hp.text c ?_
    rw [htext]
    exact List.mem_append_right _ hc
  have hflat : (lineStrs m pre.length m.cursor).flatten =
      eraseToEnd ++ (suf ++ (placing m.cursor).flatten) := by
    rw [lineStrs, hslice, List.cons_append, List.flatten_cons, List.flatten_append,
      flatten_shown htyped]
  have hwritten := hfront.erase.write hprintable
  have hbound : (prompt ++ pre ++ suf).length ≤ COMMAND_LINE_LEN + PROMPT_LEN + 2 := by
    have hrest := hline.length_rest
    have hprompt : prompt.length = PROMPT_LEN := rfl
    rw [List.length_append, List.length_append, hprompt]
    omega
  rw [hflat, Terminal.write_append, Terminal.write_append, Displayed, htext, ← List.append_assoc,
    ← hline.cursor]
  exact displays_placing hwritten hbound m.cursor

/-- The row up to the cursor. -/
theorem Displayed.front (h : Displayed t e) : t.Front (prompt ++ e.before) := by
  have hprompt : prompt.length = PROMPT_LEN := rfl
  have hfront := Terminal.Displays.front h (by
    rw [List.length_append, hprompt, Editor.text, List.length_append]
    omega)
  rwa [← hprompt, List.take_length_add_append, Editor.text, List.take_left] at hfront

/-- The line tells the text. -/
theorem text_eq_of_line (hline : LineIs m.cmdline m.cmdlen m.cursor e.before e.after rest)
    (hline' : LineIs m'.cmdline m'.cmdlen m'.cursor e'.before e'.after rest')
    (hcmdline : m'.cmdline = m.cmdline) (hcmdlen : m'.cmdlen = m.cmdlen) : e'.text = e.text := by
  have hsame := hline'.slice_line
  rw [hcmdline, hcmdlen, hline.slice_line] at hsame
  have hshown := congrArg (fun text => (text.map fun c => [nch c]).flatten) hsame
  rw [flatten_shown hline.typed, flatten_shown hline'.typed] at hshown
  exact hshown.symm

/-- What `m'` has printed shows the editor `e'`. -/
def PrintsTo (m m' : Microrl) (t : Terminal) (e' : Editor) : Prop :=
  ∃ strs : List (List UInt8),
    m'.out = m.out ++ strs.map .print ∧ Displayed (t.write strs.flatten) e'

end Printed

/-! ## Keys -/

section Keys

variable {m m' : Microrl} {e e' : Editor} {t : Terminal} {rest rest' : List UInt8}

/-- A key that leaves the line as it is. -/
theorem PrintsTo.of_line (h : TextIs m e rest) (h' : TextIs m' e' rest')
    (hcmdline : m'.cmdline = m.cmdline) (hcmdlen : m'.cmdlen = m.cmdlen)
    (strs : List (List UInt8)) (hout : m'.out = m.out ++ strs.map .print)
    (ht : (t.write strs.flatten).Displays (prompt ++ e.text) (PROMPT_LEN + m'.cursor)) :
    PrintsTo m m' t e' := by
  refine ⟨strs, hout, ?_⟩
  rw [Displayed, text_eq_of_line h.line h'.line hcmdline hcmdlen, ← h'.line.cursor]
  exact ht

theorem Displayed.displays (hd : Displayed t e) (h : TextIs m e rest) :
    t.Displays (prompt ++ e.text) (PROMPT_LEN + m.cursor) := by
  rw [h.line.cursor]
  exact hd

theorem TextIs.cursor_le (h : TextIs m e rest) :
    PROMPT_LEN + m.cursor ≤ COMMAND_LINE_LEN + PROMPT_LEN + 2 := by
  have hrest := h.line.length_rest
  have hcmdlen := h.line.cmdlen
  have hcursor := h.line.cursor
  omega

/-- A key that does nothing. -/
theorem PrintsTo.of_same (h : TextIs m e rest) (hd : Displayed t e) (h' : TextIs m' e' rest')
    (hcmdline : m'.cmdline = m.cmdline) (hcmdlen : m'.cmdlen = m.cmdlen)
    (hcursor : m'.cursor = m.cursor) (hout : m'.out = m.out) : PrintsTo m m' t e' := by
  refine .of_line h h' hcmdline hcmdlen [] ?_ ?_
  · rw [hout]
    exact (List.append_nil _).symm
  · rw [hcursor]
    exact hd.displays h

theorem displayed_left (h : TextIs m e rest) (hd : Displayed t e)
    (h' : TextIs (cursorBack m) e' rest') : PrintsTo m (cursorBack m) t e' := by
  by_cases hpos : 0 < m.cursor
  · have hback : cursorBack m = { m.prints [cursorLeft 1] with cursor := m.cursor - 1 } :=
      if_pos hpos
    rw [hback] at h' ⊢
    refine .of_line h h' rfl rfl [cursorLeft 1] rfl ?_
    have hleft := (hd.displays h).left Nat.one_pos
    rw [Nat.add_sub_assoc hpos] at hleft
    exact hleft
  · have hback : cursorBack m = m := if_neg hpos
    rw [hback] at h' ⊢
    exact .of_same h hd h' rfl rfl rfl rfl

theorem displayed_right (h : TextIs m e rest) (hd : Displayed t e)
    (h' : TextIs (cursorForward m) e' rest') : PrintsTo m (cursorForward m) t e' := by
  by_cases hlt : m.cursor < m.cmdlen
  · have hforward : cursorForward m =
        { m.prints [cursorRight 1] with cursor := m.cursor + 1 } := if_pos hlt
    rw [hforward] at h' ⊢
    refine .of_line h h' rfl rfl [cursorRight 1] rfl ?_
    exact (hd.displays h).right Nat.one_pos
  · have hforward : cursorForward m = m := if_neg hlt
    rw [hforward] at h' ⊢
    exact .of_same h hd h' rfl rfl rfl rfl

theorem displayed_home (h : TextIs m e rest) (hd : Displayed t e)
    (h' : TextIs (cursorHome m) e' rest') : PrintsTo m (cursorHome m) t e' := by
  refine .of_line h h' rfl rfl [resetCursor] rfl ?_
  rw [List.flatten_singleton]
  exact displays_reset (hd.displays h) h.cursor_le

theorem displayed_end (h : TextIs m e rest) (hd : Displayed t e)
    (h' : TextIs (cursorEnd m) e' rest') : PrintsTo m (cursorEnd m) t e' := by
  have hle : m.cursor ≤ m.cmdlen := by
    rw [h.line.cursor, h.line.cmdlen]
    exact Nat.le_add_right _ _
  rcases Nat.lt_or_eq_of_le hle with hlt | hend
  · have hcursorEnd : cursorEnd m =
        { m.prints [cursorRight (m.cmdlen - m.cursor)] with cursor := m.cmdlen } := by
      rw [cursorEnd, terminalMoveCursor, if_pos (by omega), Int.toNat_sub]
      rfl
    rw [hcursorEnd] at h' ⊢
    refine .of_line h h' rfl rfl [cursorRight (m.cmdlen - m.cursor)] rfl ?_
    have hright := (hd.displays h).right (Nat.sub_pos_of_lt hlt)
    rw [Nat.add_assoc, Nat.add_sub_cancel' hle] at hright
    rw [List.flatten_singleton]
    exact hright
  · have hcursorEnd : cursorEnd m = { m.prints [[]] with cursor := m.cmdlen } := by
      rw [cursorEnd, terminalMoveCursor, if_neg (by omega), if_neg (by omega)]
      rfl
    rw [hcursorEnd] at h' ⊢
    refine .of_line h h' rfl rfl [[]] rfl ?_
    have hsame := hd.displays h
    rw [hend] at hsame
    exact hsame

/-- A key that ends with `terminal_print_line`. -/
theorem PrintsTo.printLine {m₁ : Microrl} {pos : ℕ}
    (h' : TextIs (terminalPrintLine m₁ pos m₁.cursor) e' rest') (hp' : e'.Printable)
    (strs : List (List UInt8)) (hout : m₁.out = m.out ++ strs.map .print)
    {pre suf : List UInt8} (htext : e'.text = pre ++ suf)
    (hpos : pos = pre.length) (hfront : (t.write strs.flatten).Front (prompt ++ pre)) :
    PrintsTo m (terminalPrintLine m₁ pos m₁.cursor) t e' := by
  rw [terminalPrintLine_eq] at h' ⊢
  have hline : LineIs m₁.cmdline m₁.cmdlen m₁.cursor e'.before e'.after rest' := h'.line
  refine ⟨strs ++ lineStrs m₁ pos m₁.cursor, ?_, ?_⟩
  · rw [List.map_append, ← List.append_assoc, ← hout]
    rfl
  · rw [List.flatten_append, Terminal.write_append]
    exact displayed_line hline hp' htext hpos hfront

theorem displayed_char (h : TextIs m e rest) (hd : Displayed t e) {c : UInt8}
    (hp' : (e.press (.char c)).Printable) (h' : TextIs m' (e.press (.char c)) rest')
    (hperform : perform m (.char c) = some m') : PrintsTo m m' t (e.press (.char c)) := by
  rw [perform] at hperform
  by_cases hblank : c = 32 ∧ m.cmdlen = 0
  · rw [if_pos hblank] at hperform
    cases hperform
    exact .of_same h hd h' rfl rfl rfl rfl
  rw [if_neg hblank] at hperform
  by_cases hroom : m.cmdlen + 1 < COMMAND_LINE_LEN
  · have hinsert : microrlInsertText m [c] = ((microrlInsertText m [c]).1, true) := by
      rw [microrlInsertText]
      simp only [List.length_singleton, if_pos hroom]
    have hcursor : (microrlInsertText m [c]).1.cursor = m.cursor + 1 := by
      rw [microrlInsertText]
      simp only [List.length_singleton, if_pos hroom]
    have hout : (microrlInsertText m [c]).1.out = m.out := by
      rw [microrlInsertText]
      simp only [List.length_singleton, if_pos hroom]
    rw [hinsert] at hperform
    cases hperform
    obtain ⟨suf, htext⟩ : ∃ suf, (e.press (.char c)).text = e.before ++ suf := by
      rw [Editor.press]
      split_ifs
      · exact ⟨e.after, rfl⟩
      · exact ⟨[c] ++ e.after, List.append_assoc _ _ _⟩
    refine .printLine h' hp' [] ?_ htext ?_ hd.front
    · rw [hout]
      exact (List.append_nil _).symm
    · rw [hcursor, Nat.add_sub_cancel, h.line.cursor]
  · have hinsert : microrlInsertText m [c] = (m, false) := if_neg hroom
    rw [hinsert] at hperform
    cases hperform
    exact .of_same h hd h' rfl rfl rfl rfl

theorem front_backspace {before : List UInt8} (hfront : t.Front (prompt ++ before))
    (hcursor : m.cursor = before.length) :
    ∃ strs : List (List UInt8), (microrlBackspace m).out = m.out ++ strs.map .print ∧
      (t.write strs.flatten).Front (prompt ++ before.dropLast) ∧
      (microrlBackspace m).cursor = before.dropLast.length := by
  rcases List.eq_nil_or_concat' before with rfl | ⟨before, c, rfl⟩
  · have hback : microrlBackspace m = m := if_neg (by rw [hcursor]; exact Nat.lt_irrefl 0)
    rw [hback]
    exact ⟨[], (List.append_nil _).symm, hfront, hcursor⟩
  · rw [List.length_append, List.length_singleton] at hcursor
    have hpos : 0 < m.cursor := by omega
    rw [List.dropLast_concat, microrlBackspace, if_pos hpos]
    refine ⟨[[27, 91, 68] ++ [32] ++ [27, 91, 68]], rfl, ?_, ?_⟩
    · rw [List.flatten_singleton, Terminal.write_append, Terminal.write_append]
      rw [← List.append_assoc] at hfront
      exact (hfront.back.put (by decide)).back
    · exact Nat.sub_eq_of_eq_add hcursor

theorem displayed_backspace (h : TextIs m e rest) (hd : Displayed t e)
    (hp' : (e.press .backspace).Printable) (h' : TextIs m' (e.press .backspace) rest')
    (hperform : perform m .backspace = some m') : PrintsTo m m' t (e.press .backspace) := by
  obtain ⟨strs, hout, hfront, hcursor⟩ := front_backspace hd.front h.line.cursor
  cases hperform
  exact .printLine h' hp' strs hout rfl hcursor hfront

theorem displayed_killForward (hd : Displayed t e) :
    PrintsTo m { m.print eraseToEnd with cmdlen := m.cursor } t (e.press .killForward) := by
  have herase := hd.front.erase
  have hprompt : prompt.length = PROMPT_LEN := rfl
  rw [List.length_append, hprompt] at herase
  refine ⟨[eraseToEnd], rfl, ?_⟩
  rw [List.flatten_singleton, Displayed, Editor.press, Editor.text, List.append_nil]
  exact herase

theorem front_backspaceAll {n : ℕ} {before : List UInt8} (hfront : t.Front (prompt ++ before))
    (hcursor : m.cursor = before.length) (hn : before.length = n) :
    ∃ strs : List (List UInt8), (backspaceAll n m).out = m.out ++ strs.map .print ∧
      (t.write strs.flatten).Front prompt := by
  induction n generalizing m t before with
  | zero =>
      rw [List.length_eq_zero_iff.1 hn, List.append_nil] at hfront
      exact ⟨[], (List.append_nil _).symm, hfront⟩
  | succ n ih =>
      obtain ⟨strs₁, hout₁, hfront₁, hcursor₁⟩ := front_backspace hfront hcursor
      have hn₁ : before.dropLast.length = n := by
        rw [List.length_dropLast, hn, Nat.add_sub_cancel]
      obtain ⟨strs₂, hout₂, hfront₂⟩ := ih hfront₁ hcursor₁ hn₁
      have hloop : backspaceAll (n + 1) m = backspaceAll n (microrlBackspace m) :=
        if_pos (by rw [hcursor, hn]; exact Nat.succ_pos n)
      refine ⟨strs₁ ++ strs₂, ?_, ?_⟩
      · rw [hloop, hout₂, hout₁, List.map_append, List.append_assoc]
      · rw [List.flatten_append, Terminal.write_append]
        exact hfront₂

theorem displayed_killBack (h : TextIs m e rest) (hd : Displayed t e)
    (hp' : (e.press .killBack).Printable) (h' : TextIs m' (e.press .killBack) rest')
    (hperform : perform m .killBack = some m') : PrintsTo m m' t (e.press .killBack) := by
  obtain ⟨strs, hout, hfront⟩ := front_backspaceAll hd.front h.line.cursor rfl
  rw [← h.line.cursor] at hout
  cases hperform
  exact .printLine h' hp' strs hout (List.nil_append _).symm rfl hfront

/-- A line that is not found is left as it is. -/
theorem histRestoreLine_none {ringHist ringHist' : RingHistory} {cmdline cmdline' : Block}
    {dir : HistDir}
    (hrestore : histRestoreLine ringHist cmdline dir = some (ringHist', cmdline', none)) :
    cmdline' = cmdline := by
  cases dir with
  | up =>
      obtain ⟨⟨last, cnt⟩, -, hfound⟩ := Option.bind_eq_some_iff.1 hrestore
      dsimp only at hfound
      split_ifs at hfound
      · obtain ⟨⟨header, j⟩, -, hrecord⟩ := Option.map_eq_some_iff.1 hfound
        dsimp only at hrecord
        split_ifs at hrecord
        · cases hrecord
        · cases hrecord
          rfl
      · cases hfound
        rfl
  | down =>
      obtain ⟨⟨last, cnt⟩, -, hfound⟩ := Option.bind_eq_some_iff.1 hrestore
      dsimp only at hfound
      split_ifs at hfound
      · obtain ⟨⟨header, j⟩, -, hrecord⟩ := Option.map_eq_some_iff.1 hfound
        cases hrecord
      · cases hfound

theorem displayed_search (h : TextIs m e rest) (hd : Displayed t e) (hp' : e'.Printable)
    (h' : TextIs m' e' rest') {dir : HistDir} (hsearch : histSearch m dir = some m') :
    PrintsTo m m' t e' := by
  obtain ⟨⟨ringHist, cmdline, ret⟩, hrestore, hnext⟩ := Option.map_eq_some_iff.1 hsearch
  cases ret with
  | none =>
      cases hnext
      exact .of_same h hd h' (histRestoreLine_none hrestore) rfl rfl rfl
  | some len =>
      cases hnext
      refine .printLine h' hp' [resetCursor] rfl (List.nil_append _).symm rfl ?_
      have hreset := displays_reset (hd.displays h) h.cursor_le
      rw [List.flatten_singleton]
      exact hreset.front (by rw [List.length_append]; exact Nat.le_add_right _ _)

/-- Every key that does not start a row. -/
theorem displayed_perform (h : TextIs m e rest) (hp : e.Printable) (hd : Displayed t e) {key : Key}
    (hchar : ∀ c, key = .char c → Terminal.Printable c)
    (hkey : key ≠ .enter ∧ key ≠ .redraw ∧ key ≠ .interrupt)
    (h' : TextIs m' (e.press key) rest') (hperform : perform m key = some m') :
    PrintsTo m m' t (e.press key) := by
  have hp' := hp.press hchar
  cases key with
  | char c => exact displayed_char h hd hp' h' hperform
  | enter => exact absurd rfl hkey.1
  | left =>
      cases hperform
      exact displayed_left h hd h'
  | right =>
      cases hperform
      exact displayed_right h hd h'
  | home =>
      cases hperform
      exact displayed_home h hd h'
  | endKey =>
      cases hperform
      exact displayed_end h hd h'
  | up => exact displayed_search h hd hp' h' hperform
  | down => exact displayed_search h hd hp' h' hperform
  | backspace => exact displayed_backspace h hd hp' h' hperform
  | killBack => exact displayed_killBack h hd hp' h' hperform
  | killForward =>
      cases hperform
      exact displayed_killForward hd
  | redraw => exact absurd rfl hkey.2.1
  | interrupt => exact absurd rfl hkey.2.2
  | none =>
      cases hperform
      exact .of_same h hd h' rfl rfl rfl rfl

/-! ## New rows -/

theorem displays_prompt (h : t.Displays [] 0) :
    (t.write PROMPT_DEFAULT).Displays prompt PROMPT_LEN := by
  have hcolours : PROMPT_DEFAULT =
      ([27, 91] ++ [51, 50] ++ [109]) ++ ([62] ++ (([27, 91] ++ [48] ++ [109]) ++ [32])) := rfl
  have hgreen : ∀ c ∈ [51, 50], isdigit c :=
    List.forall_mem_cons.2 ⟨rfl, List.forall_mem_singleton.2 rfl⟩
  have hplain : ∀ c ∈ [48], isdigit c := List.forall_mem_singleton.2 rfl
  have hmark : (t.put 62).Displays [62] 1 := Terminal.Displays.put h (by decide)
  rw [hcolours, Terminal.write_append, Terminal.write_colour h.mode hgreen,
    Terminal.write_append, Terminal.write_append]
  change ((((t.put 62).write ([27, 91] ++ [48] ++ [109]))).put 32).Displays prompt PROMPT_LEN
  rw [Terminal.write_colour hmark.mode hplain]
  exact hmark.put (by decide)

theorem displays_newline (hmode : t.mode = .text) : (t.write ENDL).Displays [] 0 :=
  Terminal.displays_lineFeed hmode

theorem displayed_redraw (hmode : t.mode = .text) (hp' : e'.Printable) (h' : TextIs m' e' rest')
    (hperform : perform m .redraw = some m') : PrintsTo m m' t e' := by
  cases hperform
  refine .printLine h' hp' [ENDL, PROMPT_DEFAULT, resetCursor] ?_ (List.nil_append _).symm rfl ?_
  · simp only [terminalResetCursor, printPrompt, terminalNewline, print_eq, prints_prints]
    rfl
  · have hreset := displays_reset (displays_prompt (displays_newline hmode)) (by decide)
    rw [List.flatten_cons, List.flatten_cons, List.flatten_singleton, Terminal.write_append,
      Terminal.write_append]
    exact hreset.front (Nat.le_refl _)

/-- The command prints lines, or the error does. -/
theorem executeLine_out {answer : Output → List UInt8} (hanswer : ∀ o, Terminal.Lines (answer o))
    (m : Microrl) : ∃ out, (executeLine m).out = m.out ++ out ∧
      Terminal.Lines (printed answer out) := by
  rw [executeLine]
  cases split m m.cmdlen with
  | none =>
      refine ⟨[tooManyTokens, ENDL].map .print, ?_, ?_⟩
      · rw [Microrl.print, Microrl.print, List.append_assoc]
        rfl
      · rw [printed_map]
        exact ⟨by decide, Or.inr rfl⟩
  | some tknArr =>
      dsimp only
      split_ifs
      · refine ⟨[.execute (m.argv tknArr)], rfl, ?_⟩
        have hprinted : printed answer [.execute (m.argv tknArr)] =
            answer (.execute (m.argv tknArr)) := List.append_nil _
        rw [hprinted]
        exact hanswer _
      · exact ⟨[], (List.append_nil _).symm, List.not_mem_nil, Or.inl rfl⟩

theorem displayed_enter {answer : Output → List UInt8} (hanswer : ∀ o, Terminal.Lines (answer o))
    (hmode : t.mode = .text) (hperform : perform m .enter = some m') :
    ∃ out, m'.out = m.out ++ out ∧
      Displayed (t.write (printed answer out)) (e.press .enter) := by
  obtain ⟨ringHist, -, hnext⟩ := Option.map_eq_some_iff.1 hperform
  cases hnext
  obtain ⟨out, hout, hlines⟩ :=
    executeLine_out hanswer { terminalNewline m with ringHist := ringHist }
  refine ⟨[.print ENDL] ++ (out ++ [.print PROMPT_DEFAULT]), ?_, ?_⟩
  · rw [printPrompt, Microrl.print, hout]
    simp only [terminalNewline, Microrl.print, List.append_assoc]
  · have hprompt := displays_prompt ((displays_newline hmode).lines hlines)
    rw [printed_append, printed_append, Terminal.write_append, Terminal.write_append]
    exact hprompt

/-- The keys that start a row. -/
def Key.startsRow : Key → Bool
  | .enter => true
  | .redraw => true
  | _ => false

theorem PrintsTo.exists_printed (answer : Output → List UInt8) (h : PrintsTo m m' t e') :
    ∃ out, m'.out = m.out ++ out ∧ Displayed (t.write (printed answer out)) e' := by
  obtain ⟨strs, hout, hshown⟩ := h
  refine ⟨strs.map .print, hout, ?_⟩
  rw [printed_map]
  exact hshown

theorem displayed_key {answer : Output → List UInt8} (hanswer : ∀ o, Terminal.Lines (answer o))
    (h : TextIs m e rest) (hp : e.Printable) {key : Key}
    (hchar : ∀ c, key = .char c → Terminal.Printable c) (hkey : key ≠ .interrupt)
    (ht : Displayed t e ∨ key.startsRow = true ∧ t.mode = .text)
    (h' : TextIs m' (e.press key) rest') (hperform : perform m key = some m') :
    ∃ out, m'.out = m.out ++ out ∧ Displayed (t.write (printed answer out)) (e.press key) := by
  have hmode : t.mode = .text := ht.elim (fun hd => hd.mode) fun hrow => hrow.2
  cases hrow : key.startsRow with
  | true =>
      cases key with
      | enter => exact displayed_enter hanswer hmode hperform
      | redraw => exact (displayed_redraw hmode hp h' hperform).exists_printed answer
      | _ => cases hrow
  | false =>
      have hd : Displayed t e := ht.elim id fun hstarts => by
        rw [hrow] at hstarts
        cases hstarts.1
      refine (displayed_perform h hp hd hchar ⟨?_, ?_, hkey⟩ h' hperform).exists_printed answer
      · rintro rfl
        cases hrow
      · rintro rfl
        cases hrow

end Keys

/-! ## Bytes -/

section Bytes

variable {m m' : Microrl} {s : Session} {t : Terminal} {rest : List UInt8}

/-- What a byte prints is what its key prints. -/
theorem Represents.perform_key (h : Represents m s rest) {ch : UInt8}
    (hinsert : microrlInsertChar m ch = some m') :
    ∃ m'', perform m (s.key ch) = some m'' ∧ m'.out = m''.out := by
  have hseq : s.decoder.escapeSeq = m.escapeSeq := by rw [h.decoder]
  have hdecoder : s.decoder.escape = m.escape := by rw [h.decoder]
  rw [Session.key, Decoder.decode, hdecoder, hseq]
  cases hescape : m.escape with
  | false =>
      rw [if_pos rfl]
      by_cases hesc : ch = 27
      · rw [if_pos hesc]
        rw [microrlInsertChar, hescape, hesc] at hinsert
        cases hinsert
        exact ⟨m, rfl, rfl⟩
      · rw [if_neg hesc]
        rw [microrlInsertChar_plain hescape hesc] at hinsert
        exact ⟨m', hinsert, rfl⟩
  | true =>
      rw [if_neg (by rintro ⟨⟩)]
      cases hlong : longSequence m.escapeSeq ch with
      | some escapeSeq =>
          rw [microrlInsertChar_long hescape hlong] at hinsert
          cases hinsert
          exact ⟨m, rfl, rfl⟩
      | none =>
          rw [microrlInsertChar_over hescape hlong] at hinsert
          obtain ⟨m'', hperform, rfl⟩ := Option.map_eq_some_iff.1 hinsert
          exact ⟨m'', hperform, rfl⟩

theorem displayed_feed {answer : Output → List UInt8} (hanswer : ∀ o, Terminal.Lines (answer o))
    (h : Represents m s rest) (hp : s.editor.Printable) {ch : UInt8} (hch : s.key ch ≠ .interrupt)
    (ht : Displayed t s.editor ∨ (s.key ch).startsRow = true ∧ t.mode = .text)
    (hinsert : microrlInsertChar m ch = some m') :
    ∃ out, m'.out = m.out ++ out ∧
      Displayed (t.write (printed answer out)) (s.feed ch).1.editor := by
  obtain ⟨hchar, -⟩ := key_cases s ch
  obtain ⟨m'', hperform, hout⟩ := h.perform_key hinsert
  have hzero : s.key ch ≠ .char 0 := fun hzero => absurd (hchar 0 hzero) (by decide)
  obtain ⟨m₃, rest', hperform', hperformed⟩ := h.text.perform hzero
  obtain rfl : m'' = m₃ := Option.some.inj (hperform.symm.trans hperform')
  rw [hout]
  exact displayed_key hanswer h.text hp hchar hch ht hperformed.text hperform

theorem Editor.Printable.feed (s : Session) (ch : UInt8) (h : s.editor.Printable) :
    (s.feed ch).1.editor.Printable := h.press (key_cases s ch).1

theorem Editor.Printable.start : Editor.start.Printable :=
  ⟨List.forall_mem_nil _, List.forall_mem_nil _, List.forall_mem_nil _⟩

end Bytes

/-! ## Runs -/

/-- A byte, and what the terminal does with what it prints. -/
def terminalStep (answer : Output → List UInt8) (st : Option Microrl × Terminal) (ch : UInt8) :
    Option Microrl × Terminal :=
  let rl := st.1.bind fun m => microrlInsertChar { m with out := [] } ch
  (rl, st.2.write (printed answer ((rl.map Microrl.out).getD [])))

/-- The command line is in the state of the session, and the terminal shows it. -/
structure InView (st : Option Microrl × Terminal) (s : Session) : Prop where
  tracks : Tracks st.1 s
  printable : s.editor.Printable
  displayed : Displayed st.2 s.editor

section Runs

variable {answer : Output → List UInt8} {st : Option Microrl × Terminal} {s : Session} {ch : UInt8}

theorem InView.of_feed (hanswer : ∀ o, Terminal.Lines (answer o)) (htracks : Tracks st.1 s)
    (hp : s.editor.Printable) (hch : s.key ch ≠ .interrupt)
    (ht : Displayed st.2 s.editor ∨ (s.key ch).startsRow = true ∧ st.2.mode = .text) :
    InView (terminalStep answer st ch) (s.feed ch).1 := by
  obtain ⟨rl, t⟩ := st
  have hnext := Tracks.next rl s ch htracks
  obtain ⟨m, rest, rfl, hrep⟩ := htracks
  obtain ⟨m', rest', hinsert, -⟩ := hrep.fresh.feed ch
  obtain ⟨out, hout, hshown⟩ := displayed_feed hanswer hrep.fresh hp hch ht hinsert
  refine ⟨hnext, hp.feed s ch, ?_⟩
  rw [terminalStep]
  simp only [Option.bind_some, hinsert, Option.map_some, Option.getD_some]
  rw [hout, List.nil_append]
  exact hshown

theorem InView.run (hanswer : ∀ o, Terminal.Lines (answer o)) {input : List UInt8}
    (hinput : 3 ∉ input) (h : InView st s) :
    InView (input.foldl (terminalStep answer) st) (final Session.feed s input) := by
  induction input generalizing st s with
  | nil => exact h
  | cons ch input ih =>
      rw [List.mem_cons, not_or] at hinput
      refine ih hinput.2 (.of_feed hanswer h.tracks h.printable ?_ (Or.inl h.displayed))
      exact fun hinterrupt => hinput.1 ((key_cases s ch).2 hinterrupt).symm

end Runs

/-- Whatever was entered before and whatever the terminal shows: after Enter or `^R` its row
is the prompt and the text of the editor, with the cursor where the editor has it, and stays
so with every byte but `^C`, as long as the commands print whole lines. -/
theorem display_is_editor {answer : Output → List UInt8} (hanswer : ∀ o, Terminal.Lines (answer o))
    (before : List UInt8) {first : UInt8} {input : List UInt8}
    (hfirst : ((final Session.feed .start before).key first).startsRow = true) (hinput : 3 ∉ input)
    {t : Terminal} (ht : t.mode = .text) :
    Displayed ((first :: input).foldl (terminalStep answer)
        (final cliThread (some microrlInit) before, t)).2
      (final Session.feed .start (before ++ first :: input)).editor := by
  have hp := final_invariant Editor.Printable.feed (s := .start) Editor.Printable.start before
  have hnext : InView (terminalStep answer (final cliThread (some microrlInit) before, t) first)
      ((final Session.feed .start before).feed first).1 := by
    refine .of_feed hanswer (tracks_final before) hp ?_ (Or.inr ⟨hfirst, ht⟩)
    intro hinterrupt
    rw [hinterrupt] at hfirst
    cases hfirst
  rw [final_append]
  exact (hnext.run hanswer hinput).displayed

/-- The prompt and `ls`, behind `echo` without a prompt. -/
theorem display_is_editor_ls :
    Displayed ([13, 108, 115].foldl (terminalStep fun _ => [])
        (final cliThread (some microrlInit) [101, 99, 104, 111],
          { row := fun _ => 32, col := 0, mode := .text })).2
      (final Session.feed .start ([101, 99, 104, 111] ++ [13, 108, 115])).editor :=
  display_is_editor (fun _ => ⟨List.not_mem_nil, Or.inl rfl⟩) [101, 99, 104, 111] (by decide)
    (by decide) rfl

end CommandLine

end EspHosted
