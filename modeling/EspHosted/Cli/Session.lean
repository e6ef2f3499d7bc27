import EspHosted.Cli.EditorRefinement

/-!
# A session of the command line

The bytes of a session come in one after the other. After every byte the command line holds
the text, the cursor and the history of the editor. The commands that are called are those of
the editor exactly as long as no line that is entered has something left behind its last word.
-/

namespace EspHosted

namespace CommandLine

open EspHosted.Bytes EspHosted.Words EspHosted.Simulation

/-! ## The words of a line -/

section Words

variable {text tail : List UInt8}

/-- The blanks of a text are the zeros of the stored one. -/
theorem storedWords_map (htyped : 0 ∉ text) : storedWords (text.map stored) = typedWords text := by
  have hsame : ∀ c ∈ text, decide (stored c = 0) = decide (c = 32) := by
    intro c hc
    rw [stored]
    split_ifs with hblank
    · rw [hblank]
      rfl
    · rw [decide_eq_false hblank, decide_eq_false (ne_of_mem_of_not_mem hc htyped)]
  rw [storedWords, words_map hsame, typedWords]
  exact map_words fun c hc => if_neg (of_decide_eq_false hc)

/-- What stands behind the line only makes its last token longer. -/
theorem length_tokens_append (htail : 0 ∉ tail) {w : List UInt8} (hw : 0 ∉ w)
    (line : List UInt8) :
    (tokens tail (w ++ line)).length = (storedWords (w ++ line)).length := by
  induction line generalizing w with
  | nil =>
      rw [List.append_nil]
      by_cases hne : w = []
      · rw [hne, tokens_nil, storedWords, words_nil]
      · rw [tokens_of_text hw hne htail, storedWords_of_text hw hne]
        rfl
  | cons c line ih =>
      by_cases hc : c = 0
      · have hrest := ih (w := []) List.not_mem_nil
        rw [List.nil_append] at hrest
        have hwords : storedWords (w ++ c :: line) = storedWords w ++ storedWords line :=
          words_append_cons w line (decide_eq_true hc)
        rw [hwords, hc, tokens_append_zero, List.length_append, List.length_append, hrest]
      · have hlonger : 0 ∉ w ++ [c] := by
          rw [List.mem_append, List.mem_singleton, not_or]
          exact ⟨hw, Ne.symm hc⟩
        have hrest := ih hlonger
        rwa [← List.append_cons] at hrest

theorem length_tokens (htail : 0 ∉ tail) (line : List UInt8) :
    (tokens tail line).length = (storedWords line).length :=
  length_tokens_append htail List.not_mem_nil line

/-- The command is that of the words, unless the last one goes on. -/
theorem commandOf_tokens_iff (htail : 0 ∉ tail) (line : List UInt8) :
    commandOf (tokens tail line) = commandOf (storedWords line) ↔
      (EndsOpen line → (storedWords line).length < COMMAND_TOKEN_NMB → tail = []) := by
  have hcount := length_tokens htail line
  have hiff : tokens tail line = storedWords line ↔ (EndsOpen line → tail = []) :=
    tokens_eq_storedWords_iff htail
  rw [commandOf, commandOf, hcount]
  split_ifs with hcommand
  · rw [List.cons.injEq, Output.execute.injEq, hiff]
    exact ⟨fun h hopen _ => h.1 hopen, fun h => ⟨fun hopen => h hopen hcommand.2, rfl⟩⟩
  · refine iff_of_true rfl fun hopen hfew => ?_
    -- an open line has a word
    have hnone : storedWords line = [] := List.length_eq_zero_iff.1 (by omega)
    have hflat := flatten_words (fun c => decide (c = 0)) line
    rw [← storedWords, hnone, List.flatten_nil] at hflat
    have hlast : line.getLast?.getD 0 = 0 := by
      cases hline : line.getLast? with
      | none => rfl
      | some c =>
          by_contra hopen
          have hc : c ≠ 0 := hopen
          have hmem := List.mem_of_getLast? hline
          have hkept : c ∈ line.filter fun x => !decide (x = 0) :=
            List.mem_filter.2 ⟨hmem, by rw [decide_eq_false hc]; rfl⟩
          rw [← hflat] at hkept
          exact List.not_mem_nil hkept
    exact absurd hlast hopen

end Words

/-! ## A byte -/

/-- A key behind a condition that another key stands in front of. -/
theorem eq_of_ite {p : Prop} [Decidable p] {key key' k : Key}
    (h : (if p then key else key') = k) (hkey : key ≠ k) : key' = k := by
  by_cases hp : p
  · exact absurd ((if_pos hp).symm.trans h) hkey
  · exact (if_neg hp).symm.trans h

theorem plainKey_eq_char {ch c : UInt8} (h : plainKey ch = .char c) : ch = c := by
  rw [plainKey] at h
  iterate 13 replace h := eq_of_ite h (by rintro ⟨⟩)
  exact Key.char.inj h

theorem plainKey_ne_char_zero (ch : UInt8) : plainKey ch ≠ .char 0 := by
  intro h
  rw [plainKey_eq_char h] at h
  revert h
  decide

theorem plainKey_eq_enter {ch : UInt8} (h : plainKey ch = .enter) : ch = 13 ∨ ch = 10 := by
  by_contra hch
  rw [plainKey, if_neg hch] at h
  iterate 12 replace h := eq_of_ite h (by rintro ⟨⟩)
  cases h

theorem plainKey_eq_killForward {ch : UInt8} (h : plainKey ch = .killForward) : ch = 11 := by
  by_contra hch
  rw [plainKey] at h
  iterate 2 replace h := eq_of_ite h (by rintro ⟨⟩)
  rw [if_neg hch] at h
  iterate 10 replace h := eq_of_ite h (by rintro ⟨⟩)
  cases h

/-- The keys that have no sequence. -/
theorem sequenceKey_ne (escapeSeq : EscapeSeq) (ch : UInt8) :
    (∀ c, sequenceKey escapeSeq ch ≠ .char c) ∧ sequenceKey escapeSeq ch ≠ .killForward ∧
      sequenceKey escapeSeq ch ≠ .enter ∧ sequenceKey escapeSeq ch ≠ .interrupt := by
  rw [sequenceKey]
  split_ifs <;> refine ⟨fun c => ?_, ?_, ?_, ?_⟩ <;> rintro ⟨⟩

/-- The command line is in the state of the session, with `rest` behind the text. -/
structure Represents (m : Microrl) (s : Session) (rest : List UInt8) : Prop where
  text : TextIs m s.editor rest
  decoder : s.decoder = { escape := m.escape, escapeSeq := m.escapeSeq }

section Byte

variable {m : Microrl} {s : Session} {rest : List UInt8}

theorem represents_init : Represents microrlInit .start (List.replicate COMMAND_LINE_LEN 0) := by
  refine ⟨⟨⟨rfl, List.length_replicate, rfl, rfl, rfl, ?_, List.not_mem_nil⟩, saved_init, nofun,
    rfl, Nat.le_refl 0⟩, rfl⟩
  exact List.mem_replicate.2 ⟨by decide, rfl⟩

/-- What a byte does to the command line. -/
structure Fed (m : Microrl) (s : Session) (rest : List UInt8) (ch : UInt8) (m' : Microrl)
    (rest' : List UInt8) : Prop where
  represents : Represents m' (s.feed ch).1 rest'
  called : called m'.out = called m.out ++ s.editor.callsWith (cstr rest) (s.key ch)
  ended : ch ≠ 11 → cstr rest = [] → cstr rest' = []

/-- A byte that is not the last one of its sequence. -/
theorem Represents.wait (h : Represents m s rest) {ch : UInt8} {d : Decoder}
    (hdecode : s.decoder.decode ch = (d, .none)) :
    Fed m s rest ch { m with escape := d.escape, escapeSeq := d.escapeSeq } rest := by
  have htext := h.text
  refine ⟨⟨?_, ?_⟩, ?_, fun _ hnone => hnone⟩
  · rw [Session.feed, Session.key, hdecode]
    exact ⟨htext.line, htext.history, htext.typed, htext.place, htext.place_le⟩
  · rw [Session.feed, hdecode]
  · rw [Session.key, hdecode]
    exact (List.append_nil _).symm

/-- A byte that ends a key. -/
theorem Represents.key (h : Represents m s rest) {ch : UInt8} {key : Key}
    (hdecode : s.decoder.decode ch = ({ s.decoder with escape := false }, key))
    (hkey : key ≠ .char 0) (hkill : key = .killForward → ch = 11) :
    ∃ m' rest', perform m key = some m' ∧ m'.escape = m.escape ∧
      Fed m s rest ch { m' with escape := false } rest' := by
  obtain ⟨m', rest', hperform, hperformed⟩ := h.text.perform hkey
  have htext := hperformed.text
  refine ⟨m', rest', hperform, hperformed.escape, ⟨?_, ?_⟩, ?_, ?_⟩
  · rw [Session.feed, Session.key, hdecode]
    exact ⟨htext.line, htext.history, htext.typed, htext.place, htext.place_le⟩
  · rw [Session.feed, hdecode, hperformed.escapeSeq, h.decoder]
  · rw [Session.key, hdecode]
    exact hperformed.called
  · exact fun hch => hperformed.ended fun hforward => hch (hkill hforward)

/-- Every byte does to the command line what it does to the session. -/
theorem Represents.feed (h : Represents m s rest) (ch : UInt8) :
    ∃ m' rest', microrlInsertChar m ch = some m' ∧ Fed m s rest ch m' rest' := by
  have hdecoder : s.decoder.escape = m.escape := by rw [h.decoder]
  have hseq : s.decoder.escapeSeq = m.escapeSeq := by rw [h.decoder]
  cases hescape : m.escape with
  | false =>
      have hidle : s.decoder.escape = false := hdecoder.trans hescape
      by_cases hesc : ch = 27
      · -- a sequence starts
        have hdecode : s.decoder.decode ch = ({ s.decoder with escape := true }, .none) := by
          rw [Decoder.decode, if_pos hidle, if_pos hesc]
        refine ⟨_, rest, ?_, h.wait hdecode⟩
        rw [hesc, hseq]
        exact if_neg (by rw [hescape]; exact Bool.false_ne_true)
      · have hdecode : s.decoder.decode ch =
            ({ s.decoder with escape := false }, plainKey ch) := by
          rw [Decoder.decode, if_pos hidle, if_neg hesc, ← hidle]
        obtain ⟨m', rest', hperform, hsame, hfed⟩ :=
          h.key hdecode (plainKey_ne_char_zero ch) plainKey_eq_killForward
        rw [← hescape, ← hsame] at hfed
        exact ⟨m', rest', (microrlInsertChar_plain hescape hesc).trans hperform, hfed⟩
  | true =>
      have hbusy : s.decoder.escape ≠ false := by
        rw [hdecoder, hescape]
        nofun
      cases hlong : longSequence m.escapeSeq ch with
      | some escapeSeq =>
          have hdecode : s.decoder.decode ch =
              ({ s.decoder with escapeSeq := escapeSeq }, .none) := by
            rw [Decoder.decode, if_neg hbusy, hseq, hlong]
          refine ⟨_, rest, ?_, h.wait hdecode⟩
          rw [hdecoder]
          exact microrlInsertChar_long hescape hlong
      | none =>
          have hdecode : s.decoder.decode ch =
              ({ s.decoder with escape := false }, sequenceKey m.escapeSeq ch) := by
            rw [Decoder.decode, if_neg hbusy, hseq, hlong, ← hseq]
          obtain ⟨hchar, hkill, -⟩ := sequenceKey_ne m.escapeSeq ch
          obtain ⟨m', rest', hperform, -, hfed⟩ :=
            h.key hdecode (hchar 0) fun hforward => absurd hforward hkill
          refine ⟨_, rest', ?_, hfed⟩
          rw [microrlInsertChar_over hescape hlong, hperform]
          rfl

theorem key_eq_enter_iff (s : Session) (ch : UInt8) :
    s.key ch = .enter ↔ s.decoder.escape = false ∧ (ch = 13 ∨ ch = 10) := by
  rw [Session.key, Decoder.decode]
  by_cases hidle : s.decoder.escape = false
  · rw [if_pos hidle]
    by_cases hesc : ch = 27
    · rw [if_pos hesc, hesc]
      exact iff_of_false nofun fun h => absurd h.2 (by decide)
    · rw [if_neg hesc]
      refine ⟨fun henter => ⟨hidle, plainKey_eq_enter henter⟩, fun h => if_pos h.2⟩
  · rw [if_neg hidle]
    refine iff_of_false (fun henter => ?_) fun h => hidle h.1
    cases hlong : longSequence s.decoder.escapeSeq ch with
    | some escapeSeq =>
        rw [hlong] at henter
        cases henter
    | none =>
        rw [hlong] at henter
        exact (sequenceKey_ne s.decoder.escapeSeq ch).2.2.1 henter

end Byte

/-! ## A run -/

/-- A turn of the loop of `cli_thread` that gets the byte `ch`, and what it calls. Without a
state a loop of `microrl.c` does not end. -/
def cliThread (rl : Option Microrl) (ch : UInt8) : Option Microrl × List Output :=
  let rl := rl.bind fun m => microrlInsertChar { m with out := [] } ch
  (rl, called ((rl.map Microrl.out).getD []))

/-- The characters of the line, the blanks of it as 0. -/
def Microrl.line (m : Microrl) : List UInt8 := slice m.cmdline.bytes 0 m.cmdlen

/-- A line that is entered has nothing behind the word that it ends with. It does not matter
when the words are too many for a command. -/
def Whole : Option Microrl → UInt8 → Prop
  | some m, ch =>
      m.escape = false ∧ (ch = 13 ∨ ch = 10) →
        EndsOpen m.line → (storedWords m.line).length < COMMAND_TOKEN_NMB →
          cstr (m.cmdline.bytes.drop m.cmdlen) = []
  | none, _ => True

/-- The command line shows the state of the session: nothing is stored outside `cmdline` and
the ring, and there is a 0 that ends the last string. -/
structure Shows (m : Microrl) (s : Session) : Prop where
  line : m.line = s.editor.text.map stored
  cmdlen : m.cmdlen = s.editor.text.length
  cursor : m.cursor = s.editor.before.length
  history : Saved m.ringHist (s.editor.history.map (List.map stored))
  place : m.ringHist.cur = s.editor.place
  decoder : s.decoder = { escape := m.escape, escapeSeq := m.escapeSeq }
  ended : 0 ∈ m.cmdline.bytes.drop m.cmdlen
  overrun : m.cmdline.overrun = false ∧ m.ringHist.ringBuf.overrun = false

/-- A state that is there, and that of the session. -/
def Tracks (rl : Option Microrl) (s : Session) : Prop :=
  ∃ m rest, rl = some m ∧ Represents m s rest

section Run

variable {m : Microrl} {s : Session} {rest : List UInt8}

theorem Represents.shows (h : Represents m s rest) : Shows m s := by
  have hline := h.text.line
  refine ⟨hline.slice_line, ?_, hline.cursor, h.text.history, h.text.place, h.decoder, ?_,
    hline.overrun, h.text.history.overrun⟩
  · rw [hline.cmdlen, Editor.text, List.length_append]
  · rw [hline.drop_cmdlen]
    exact hline.ended

/-- What has gone out does not matter. -/
theorem Represents.fresh (h : Represents m s rest) : Represents { m with out := [] } s rest :=
  ⟨⟨h.text.line, h.text.history, h.text.typed, h.text.place, h.text.place_le⟩, h.decoder⟩

theorem Represents.cliThread (h : Represents m s rest) (ch : UInt8) :
    ∃ m' rest', cliThread (some m) ch = (some m', s.editor.callsWith (cstr rest) (s.key ch)) ∧
      Represents m' (s.feed ch).1 rest' ∧ (ch ≠ 11 → cstr rest = [] → cstr rest' = []) := by
  obtain ⟨m', rest', hinsert, hfed⟩ := h.fresh.feed ch
  refine ⟨m', rest', ?_, hfed.represents, hfed.ended⟩
  have hcalled : called m'.out = s.editor.callsWith (cstr rest) (s.key ch) := hfed.called
  rw [← hcalled, CommandLine.cliThread]
  simp only [Option.bind_some, hinsert]
  rfl

theorem Tracks.next (rl : Option Microrl) (s : Session) (ch : UInt8) (h : Tracks rl s) :
    Tracks (CommandLine.cliThread rl ch).1 (s.feed ch).1 := by
  obtain ⟨m, rest, rfl, hrep⟩ := h
  obtain ⟨m', rest', hnext, hrep', -⟩ := hrep.cliThread ch
  exact ⟨m', rest', congrArg Prod.fst hnext, hrep'⟩

theorem Represents.calls_iff (h : Represents m s rest) (ch : UInt8) :
    s.editor.callsWith (cstr rest) (s.key ch) = s.editor.calls (s.key ch) ↔
      Whole (some m) ch := by
  have hescape : s.decoder.escape = m.escape := by rw [h.decoder]
  have henter := key_eq_enter_iff s ch
  rw [hescape] at henter
  have hline := h.text.line
  by_cases hkey : s.key ch = .enter
  · have hcommand := commandOf_tokens_iff (zero_notMem_cstr rest) (s.editor.text.map stored)
    have hwhole : m.line = s.editor.text.map stored := h.shows.line
    have hwords : storedWords (s.editor.text.map stored) = typedWords s.editor.text :=
      storedWords_map hline.typed
    rw [hkey, Editor.callsWith, Editor.calls, ← hwords, Whole, hwhole, hline.drop_cmdlen]
    exact hcommand.trans ⟨fun hopen _ => hopen, fun hopen => hopen (henter.1 hkey)⟩
  · refine iff_of_true ?_ fun hentered => absurd (henter.2 hentered) hkey
    cases hpressed : s.key ch with
    | enter => exact absurd hpressed hkey
    | _ => rfl

theorem Tracks.calls_iff (rl : Option Microrl) (s : Session) (ch : UInt8) (h : Tracks rl s) :
    (CommandLine.cliThread rl ch).2 = (s.feed ch).2 ↔ Whole rl ch := by
  obtain ⟨m, rest, rfl, hrep⟩ := h
  obtain ⟨m', rest', hnext, -, -⟩ := hrep.cliThread ch
  rw [hnext]
  exact hrep.calls_iff ch

theorem tracks_init : Tracks (some microrlInit) .start :=
  ⟨microrlInit, _, rfl, represents_init⟩

theorem tracks_final (input : List UInt8) :
    Tracks (final CommandLine.cliThread (some microrlInit) input)
      (final Session.feed .start input) :=
  final_of_invariant Tracks.next tracks_init input

theorem Tracks.shows {rl : Option Microrl} {s : Session} (h : Tracks rl s) :
    ∃ m, rl = some m ∧ Shows m s := by
  obtain ⟨m, rest, hrl, hrep⟩ := h
  exact ⟨m, hrl, hrep.shows⟩

end Run

/-- After every input the command line holds the text, the cursor and the history that the
keys of the input make; no loop runs on and nothing is stored out of bounds. -/
theorem command_line_is_editor (input : List UInt8) :
    ∃ m, final cliThread (some microrlInit) input = some m ∧
      Shows m (final Session.feed .start input) :=
  (tracks_final input).shows

/-- The commands that are called are those of the editor exactly when every line is whole as
it is entered. -/
theorem calls_eq_editor_iff (input : List UInt8) :
    trace cliThread (some microrlInit) input = trace Session.feed .start input ↔
      Throughout cliThread Whole (some microrlInit) input :=
  trace_eq_iff Tracks.next Tracks.calls_iff tracks_init input

/-- `ab`, a key to the left and `^K` leave `a` in the line, and `ab` is called. -/
example : trace cliThread (some microrlInit) [97, 98, 2, 11, 13] =
    [[], [], [], [], [.execute [[97, 98]]]] := by decide +kernel

/-- Without `^K` nothing is left behind a line. -/
theorem calls_eq_of_notMem {input : List UInt8} (hinput : 11 ∉ input) :
    trace cliThread (some microrlInit) input = trace Session.feed .start input := by
  have hended : ∀ (rl : Option Microrl), ∀ ch ∈ input,
      (∃ m s rest, rl = some m ∧ Represents m s rest ∧ cstr rest = []) →
        ∃ m s rest, (cliThread rl ch).1 = some m ∧ Represents m s rest ∧ cstr rest = [] := by
    rintro rl ch hch ⟨m, s, rest, rfl, hrep, hnone⟩
    obtain ⟨m', rest', hnext, hrep', hended⟩ := hrep.cliThread ch
    refine ⟨m', _, rest', congrArg Prod.fst hnext, hrep', hended ?_ hnone⟩
    exact ne_of_mem_of_not_mem hch hinput
  refine (trace_eq_iff Tracks.next Tracks.calls_iff tracks_init input).2
    (Throughout.of_invariant ?_ hended ?_)
  · rintro rl ch ⟨m, s, rest, rfl, hrep, hnone⟩ - - -
    rw [hrep.text.line.drop_cmdlen]
    exact hnone
  · refine ⟨microrlInit, .start, _, rfl, represents_init, ?_⟩
    have hzeros := cstr_replicate_append (by decide : 0 < COMMAND_LINE_LEN) []
    rwa [List.append_nil] at hzeros

end CommandLine

end EspHosted
