import EspHosted.Lib.Ring

/-!
# The history of the command line

`ring_history_t` of `microrl.c`: the lines that were entered stand one behind the other in a
ring of bytes, each behind its length, with a 0 behind the last one. A new line drops as many
of the oldest ones as it needs.
-/

namespace EspHosted

namespace CommandLine

open EspHosted.Bytes EspHosted.Ring

/-- `_RING_HISTORY_LEN` -/
def RING_HISTORY_LEN : ℕ := 16

/-- `_COMMAND_LINE_LEN` -/
def COMMAND_LINE_LEN : ℕ := 101

/-- `ring_history_t` -/
structure RingHistory where
  ringBuf : Block
  beginPos : ℕ
  endPos : ℕ
  cur : ℕ
  deriving DecidableEq

/-- `_HIST_UP` and `_HIST_DOWN` -/
inductive HistDir where
  | up
  | down
  deriving DecidableEq

def RingHistory.init : RingHistory where
  ringBuf := Block.calloc RING_HISTORY_LEN
  beginPos := 0
  endPos := 0
  cur := 0

/-- `pThis->ring_buf [i]` as a number -/
def RingHistory.byteAt (h : RingHistory) (i : ℕ) : ℕ := (h.ringBuf.bytes.getD i 0).toNat

/-- A position that has passed the end of the ring. -/
def wrap (pos : ℕ) : ℕ := if RING_HISTORY_LEN ≤ pos then pos - RING_HISTORY_LEN else pos

def histEraseOlder (h : RingHistory) : RingHistory :=
  { h with beginPos := wrap (h.beginPos + h.byteAt h.beginPos + 1) }

def histIsSpaceForNew (h : RingHistory) (len : ℕ) : Bool :=
  if h.byteAt h.beginPos = 0 then
    true
  else if h.beginPos ≤ h.endPos then
    decide (len < RING_HISTORY_LEN - h.endPos + h.beginPos - 1)
  else
    decide (len < h.beginPos - h.endPos - 1)

/-- The loop of `hist_save_line`; `none` when it needs more than `budget` turns. -/
def eraseForNew (len : ℕ) : (budget : ℕ) → RingHistory → Option RingHistory
  | 0, _ => none
  | budget + 1, h =>
      if histIsSpaceForNew h len then some h else eraseForNew len budget (histEraseOlder h)

/-- The copies of `hist_save_line`. -/
def copyLine (ring : Block) (endPos : ℕ) (line : List UInt8) : Block :=
  if line.length < RING_HISTORY_LEN - endPos - 1 then
    ring.store (endPos + 1) line
  else
    let partLen := RING_HISTORY_LEN - endPos - 1
    (ring.store (endPos + 1) (line.take partLen)).store 0 (line.drop partLen)

/-- The part of `hist_save_line` behind its loop. -/
def storeLine (h : RingHistory) (line : List UInt8) : RingHistory :=
  let len := line.length
  let ring := h.ringBuf
  let ring :=
    if h.byteAt h.beginPos = 0 then ring.store h.beginPos [UInt8.ofNat len] else ring
  let ring := copyLine ring h.endPos line
  let ring := ring.store h.endPos [UInt8.ofNat len]
  let endPos := wrap (h.endPos + len + 1)
  { ringBuf := ring.store endPos [0], beginPos := h.beginPos, endPos := endPos, cur := 0 }

/-- `hist_save_line`; `line` are its `len` bytes. -/
def histSaveLine (h : RingHistory) (line : List UInt8) : Option RingHistory :=
  if RING_HISTORY_LEN - 2 < line.length then
    some h
  else
    (eraseForNew line.length RING_HISTORY_LEN h).map fun h => storeLine h line

/-- The loops of `hist_restore_line`: the header that they end at, and how many records they
passed. -/
def seek (h : RingHistory) (stop : ℕ → Bool) : (budget header j : ℕ) → Option (ℕ × ℕ)
  | 0, _, _ => none
  | budget + 1, header, j =>
      if h.byteAt header ≠ 0 ∧ stop j = false then
        seek h stop budget (wrap (header + (h.byteAt header + 1))) (j + 1)
      else
        some (header, j)

/-- The copies of `hist_restore_line`. -/
def copyRecord (h : RingHistory) (line : Block) (header : ℕ) : Block :=
  let ring := h.ringBuf.bytes
  if h.byteAt header + header < RING_HISTORY_LEN then
    line.store 0 (slice ring (header + 1) (h.byteAt header))
  else
    let part0 := RING_HISTORY_LEN - header - 1
    (line.store 0 (slice ring (header + 1) part0)).store part0
      (slice ring 0 (h.byteAt header - part0))

/-- `hist_restore_line`: the line and what is returned, where `none` is -1. Without a value
one of the loops does not end. -/
def histRestoreLine (h : RingHistory) (line : Block) :
    HistDir → Option (RingHistory × Block × Option ℕ)
  | .up =>
      (seek h (fun _ => false) RING_HISTORY_LEN h.beginPos 0).bind fun (_, cnt) =>
        if h.cur ≤ cnt then
          (seek h (fun j => decide ((cnt : ℤ) - j - 1 = h.cur)) RING_HISTORY_LEN h.beginPos 0).map
            fun (header, _) =>
              if h.byteAt header ≠ 0 then
                ({ h with cur := h.cur + 1 },
                  copyRecord h (line.store 0 (List.replicate COMMAND_LINE_LEN 0)) header,
                  some (h.byteAt header))
              else
                (h, line, none)
        else
          some (h, line, none)
  | .down =>
      (seek h (fun _ => false) RING_HISTORY_LEN h.beginPos 0).bind fun (_, cnt) =>
        if 0 < h.cur then
          (seek h (fun j => decide ((cnt : ℤ) - j = (h.cur - 1 : ℕ))) RING_HISTORY_LEN
            h.beginPos 0).map fun (header, _) =>
              ({ h with cur := h.cur - 1 }, copyRecord h line header, some (h.byteAt header))
        else
          some (h, line, some 0)

/-! ## Records in a ring -/

/-- A line behind its length. -/
def record (line : List UInt8) : List UInt8 := UInt8.ofNat line.length :: line

def records (lines : List (List UInt8)) : List UInt8 := lines.flatMap record

/-- The lines that the history takes. -/
def Storable (line : List UInt8) : Prop := 0 < line.length ∧ line.length ≤ RING_HISTORY_LEN - 2

@[simp] theorem records_nil : records [] = [] := rfl

@[simp] theorem records_cons (line : List UInt8) (lines : List (List UInt8)) :
    records (line :: lines) = record line ++ records lines := rfl

@[simp] theorem length_record (line : List UInt8) : (record line).length = line.length + 1 := rfl

theorem records_append (lines lines' : List (List UInt8)) :
    records (lines ++ lines') = records lines ++ records lines' := List.flatMap_append

theorem wrap_eq {pos : ℕ} (h : pos < 2 * RING_HISTORY_LEN) : wrap pos = pos % RING_HISTORY_LEN := by
  rw [wrap]
  split_ifs with hge
  · rw [Nat.mod_eq_sub_mod hge, Nat.mod_eq_of_lt (by omega)]
  · rw [Nat.mod_eq_of_lt (Nat.lt_of_not_le hge)]

/-- The records of `lines` stand from `header` on, with a 0 behind them. -/
structure From (ring : Block) (header : ℕ) (lines : List (List UInt8)) : Prop where
  length : ring.bytes.length = RING_HISTORY_LEN
  header_lt : header < RING_HISTORY_LEN
  storable : ∀ line ∈ lines, Storable line
  room : (records lines).length < RING_HISTORY_LEN
  holds : Holds ring.bytes header (records lines ++ [0])

section From

variable {h : RingHistory} {header : ℕ} {line : List UInt8} {lines : List (List UInt8)}

theorem From.byteAt_nil (hfrom : From h.ringBuf header []) : h.byteAt header = 0 := by
  have hfirst := hfrom.holds 0 Nat.zero_lt_one
  rw [Nat.add_zero, hfrom.length, Nat.mod_eq_of_lt hfrom.header_lt] at hfirst
  rw [RingHistory.byteAt, List.getD_eq_getElem?_getD, hfirst]
  rfl

theorem From.byteAt_cons (hfrom : From h.ringBuf header (line :: lines)) :
    h.byteAt header = line.length := by
  obtain ⟨-, hle⟩ := hfrom.storable line List.mem_cons_self
  have hfirst := hfrom.holds 0 (by rw [List.length_append]; exact Nat.succ_pos _)
  rw [Nat.add_zero, hfrom.length, Nat.mod_eq_of_lt hfrom.header_lt] at hfirst
  rw [RingHistory.byteAt, List.getD_eq_getElem?_getD, hfirst]
  have hsmall : line.length < 256 := Nat.lt_of_le_of_lt hle (by decide)
  exact UInt8.toNat_ofNat_of_lt' hsmall

theorem From.next (hfrom : From h.ringBuf header (line :: lines)) :
    From h.ringBuf (wrap (header + (h.byteAt header + 1))) lines := by
  obtain ⟨-, hle⟩ := hfrom.storable line List.mem_cons_self
  have hlt := hfrom.header_lt
  have hroom := hfrom.room
  simp only [RING_HISTORY_LEN] at hle hlt
  rw [records_cons, List.length_append] at hroom
  have hrest := (holds_append.1 (by
    have hholds := hfrom.holds
    rwa [records_cons, List.append_assoc] at hholds)).2
  rw [hfrom.byteAt_cons, wrap_eq (by simp only [RING_HISTORY_LEN]; omega)]
  refine ⟨hfrom.length, Nat.mod_lt _ (by decide), ?_, ?_, ?_⟩
  · exact fun l hl => hfrom.storable l (List.mem_cons_of_mem line hl)
  · omega
  · rw [length_record] at hrest
    rw [← hfrom.length, holds_mod]
    exact hrest

theorem length_le_records (lines : List (List UInt8)) : lines.length ≤ (records lines).length := by
  induction lines with
  | nil => exact Nat.le_refl 0
  | cons line lines ih =>
      rw [records_cons, List.length_append, length_record, List.length_cons]
      omega

theorem From.length_lines_lt (hfrom : From h.ringBuf header lines) :
    lines.length < RING_HISTORY_LEN :=
  Nat.lt_of_le_of_lt (length_le_records lines) hfrom.room

end From

/-! ## Seeking -/

section Seek

variable {h : RingHistory} {stop : ℕ → Bool}

/-- How many records the loop passes. -/
def steps (stop : ℕ → Bool) : ℕ → List (List UInt8) → ℕ
  | _, [] => 0
  | j, _ :: lines => if stop j then 0 else steps stop (j + 1) lines + 1

theorem seek_eq (stop : ℕ → Bool) {lines : List (List UInt8)} :
    ∀ {header j budget : ℕ}, From h.ringBuf header lines → lines.length < budget → ∃ header',
      seek h stop budget header j = some (header', j + steps stop j lines) ∧
        From h.ringBuf header' (lines.drop (steps stop j lines)) := by
  induction lines with
  | nil =>
      intro header j budget hfrom hbudget
      obtain ⟨budget, rfl⟩ := Nat.exists_eq_succ_of_ne_zero (Nat.ne_of_gt hbudget)
      refine ⟨header, ?_, hfrom⟩
      rw [seek, hfrom.byteAt_nil]
      rfl
  | cons line lines ih =>
      intro header j budget hfrom hbudget
      obtain ⟨budget, rfl⟩ := Nat.exists_eq_succ_of_ne_zero (Nat.ne_zero_of_lt hbudget)
      obtain ⟨hpos, -⟩ := hfrom.storable line List.mem_cons_self
      have hne : h.byteAt header ≠ 0 := by
        rw [hfrom.byteAt_cons]
        exact Nat.ne_of_gt hpos
      cases hstop : stop j with
      | true =>
          refine ⟨header, ?_, ?_⟩
          · rw [seek, if_neg (fun hgo => by rw [hstop] at hgo; cases hgo.2), steps, hstop]
            rfl
          · rw [steps, hstop]
            exact hfrom
      | false =>
          obtain ⟨header', hseek, hrest⟩ :=
            ih (j := j + 1) hfrom.next (Nat.lt_of_succ_lt_succ hbudget)
          refine ⟨header', ?_, ?_⟩
          · rw [seek, if_pos ⟨hne, hstop⟩, hseek, steps, hstop, if_neg Bool.false_ne_true]
            congr 2
            omega
          · rw [steps, hstop, if_neg Bool.false_ne_true, List.drop_succ_cons]
            exact hrest

theorem steps_of_never (hnever : ∀ j, stop j = false) (j : ℕ) (lines : List (List UInt8)) :
    steps stop j lines = lines.length := by
  induction lines generalizing j with
  | nil => rfl
  | cons line lines ih =>
      rw [steps, hnever, if_neg Bool.false_ne_true, ih, List.length_cons]

/-- A loop that stops at the record `n`, or behind the last one. -/
theorem steps_of_iff {n j : ℕ} {lines : List (List UInt8)} (hj : j ≤ n)
    (hn : n ≤ j + lines.length)
    (hstop : ∀ i, i < j + lines.length → (stop i = true ↔ i = n)) :
    steps stop j lines = n - j := by
  induction lines generalizing j with
  | nil =>
      rw [List.length_nil, Nat.add_zero] at hn
      rw [steps, Nat.sub_eq_zero_of_le hn]
  | cons line lines ih =>
      rw [List.length_cons] at hn hstop
      have hnow := hstop j (by omega)
      rw [steps]
      split_ifs with hend
      · rw [hnow.1 hend, Nat.sub_self]
      · have hne : j ≠ n := fun heq => hend (hnow.2 heq)
        rw [ih (by omega) (by omega) (fun i hi => hstop i (by omega))]
        omega

end Seek

/-! ## Saving -/

/-- The lines that are left when there has to be room for `len` bytes: as many of the last
ones as fit. -/
def evict (len : ℕ) : List (List UInt8) → List (List UInt8)
  | [] => []
  | line :: lines =>
      if (records (line :: lines)).length + len + 2 ≤ RING_HISTORY_LEN then line :: lines
      else evict len lines

/-- The history holds `lines`, the oldest one first. -/
structure Saved (h : RingHistory) (lines : List (List UInt8)) : Prop where
  source : From h.ringBuf h.beginPos lines
  end_eq : h.endPos = (h.beginPos + (records lines).length) % RING_HISTORY_LEN
  overrun : h.ringBuf.overrun = false

section Save

variable {h : RingHistory} {line : List UInt8} {lines : List (List UInt8)} {len : ℕ}

theorem Saved.endPos_lt (hsaved : Saved h lines) : h.endPos < RING_HISTORY_LEN := by
  rw [hsaved.end_eq]
  exact Nat.mod_lt _ (by decide)

theorem saved_init : Saved .init [] := by
  refine ⟨⟨rfl, by decide, nofun, by decide, ?_⟩, rfl, rfl⟩
  intro i hi
  obtain rfl : i = 0 := Nat.lt_one_iff.1 hi
  rfl

theorem Saved.erase (hsaved : Saved h (line :: lines)) : Saved (histEraseOlder h) lines := by
  have hnext := hsaved.source.next
  have hlt := hsaved.source.header_lt
  obtain ⟨-, hle⟩ := hsaved.source.storable line List.mem_cons_self
  simp only [RING_HISTORY_LEN] at hle hlt
  refine ⟨hnext, ?_, hsaved.overrun⟩
  have hbyte := hsaved.source.byteAt_cons
  change h.endPos = (wrap (h.beginPos + (h.byteAt h.beginPos + 1)) + _) % RING_HISTORY_LEN
  rw [hsaved.end_eq, wrap_eq (by simp only [RING_HISTORY_LEN]; omega), Nat.mod_add_mod, hbyte,
    records_cons, List.length_append, length_record]
  congr 1
  omega

/-- Room for a line, its length and the 0 behind it. -/
theorem Saved.space_iff (hsaved : Saved h lines) (len : ℕ) :
    histIsSpaceForNew h len = true ↔
      lines = [] ∨ (records lines).length + len + 2 ≤ RING_HISTORY_LEN := by
  have hbegin := hsaved.source.header_lt
  have hroom := hsaved.source.room
  have hend := hsaved.end_eq
  cases lines with
  | nil =>
      rw [histIsSpaceForNew, if_pos hsaved.source.byteAt_nil]
      exact iff_of_true rfl (Or.inl rfl)
  | cons line lines =>
      obtain ⟨hpos, -⟩ := hsaved.source.storable line List.mem_cons_self
      have hsize : 0 < (records (line :: lines)).length := by
        rw [records_cons, List.length_append, length_record]
        omega
      have hne : ¬ h.byteAt h.beginPos = 0 := by
        rw [hsaved.source.byteAt_cons]
        exact Nat.ne_of_gt hpos
      rw [histIsSpaceForNew, if_neg hne, or_iff_right (List.cons_ne_nil line lines)]
      split_ifs <;> rw [decide_eq_true_iff] <;>
        simp only [RING_HISTORY_LEN] at hbegin hroom hend ⊢ <;> omega

/-- The oldest lines are dropped until there is room. -/
theorem Saved.eraseForNew (hsaved : Saved h lines) (len : ℕ) {budget : ℕ}
    (hbudget : lines.length < budget) :
    ∃ h', eraseForNew len budget h = some h' ∧ Saved h' (evict len lines) := by
  induction lines generalizing h budget with
  | nil =>
      obtain ⟨budget, rfl⟩ := Nat.exists_eq_succ_of_ne_zero (Nat.ne_of_gt hbudget)
      refine ⟨h, ?_, hsaved⟩
      rw [CommandLine.eraseForNew, if_pos ((hsaved.space_iff len).2 (Or.inl rfl))]
  | cons line lines ih =>
      obtain ⟨budget, rfl⟩ := Nat.exists_eq_succ_of_ne_zero (Nat.ne_zero_of_lt hbudget)
      rw [CommandLine.eraseForNew, evict]
      have hspace := hsaved.space_iff len
      simp only [reduceCtorEq, false_or] at hspace
      by_cases hfits : (records (line :: lines)).length + len + 2 ≤ RING_HISTORY_LEN
      · rw [if_pos (hspace.2 hfits), if_pos hfits]
        exact ⟨h, rfl, hsaved⟩
      · rw [if_neg (fun htrue => hfits (hspace.1 htrue)), if_neg hfits]
        exact ih hsaved.erase (Nat.lt_of_succ_lt_succ hbudget)

theorem evict_room (len : ℕ) (lines : List (List UInt8)) :
    evict len lines = [] ∨ (records (evict len lines)).length + len + 2 ≤ RING_HISTORY_LEN := by
  induction lines with
  | nil => exact Or.inl rfl
  | cons line lines ih =>
      rw [evict]
      split_ifs with hfits
      · exact Or.inr hfits
      · exact ih

/-- The line stands behind the place of its length, over the end of the ring or not. -/
theorem laid_copyLine {ring : Block} (hlength : ring.bytes.length = RING_HISTORY_LEN) {e : ℕ}
    (he : e < RING_HISTORY_LEN) (hline : line.length ≤ RING_HISTORY_LEN - 2) :
    Laid ring.bytes (e + 1) line (copyLine ring e line).bytes ∧
      (copyLine ring e line).overrun = ring.overrun := by
  rw [copyLine]
  split_ifs with hstraight <;> simp only [RING_HISTORY_LEN] at hlength he hline hstraight ⊢
  · have hfits : e + 1 + line.length ≤ ring.bytes.length := by omega
    refine ⟨(stored_store hfits).laid ?_ hfits, ?_⟩
    · rw [hlength, Nat.mod_eq_of_lt (by omega)]
    · rw [Block.store_of_le hfits]
  · have htake : (line.take (16 - e - 1)).length = 16 - e - 1 := by
      rw [List.length_take]
      omega
    have hdrop : (line.drop (16 - e - 1)).length = line.length - (16 - e - 1) := List.length_drop
    have hfits : e + 1 + (line.take (16 - e - 1)).length ≤ ring.bytes.length := by omega
    have hsecond : 0 + (line.drop (16 - e - 1)).length ≤
        (ring.store (e + 1) (line.take (16 - e - 1))).bytes.length := by
      rw [Block.length_store]
      omega
    have hfirst : Laid ring.bytes (e + 1) (line.take (16 - e - 1))
        (ring.store (e + 1) (line.take (16 - e - 1))).bytes := by
      by_cases hend : e + 1 = 16
      · -- nothing goes behind the last place
        have hnone : 16 - e - 1 = 0 := by omega
        rw [hnone, List.take_zero, Block.store_of_le (by rw [List.length_nil]; omega), patch_nil]
        exact laid_nil _ _
      · refine (stored_store hfits).laid ?_ hfits
        rw [hlength, Nat.mod_eq_of_lt (by omega)]
    have hboth := hfirst.append ((stored_store hsecond).laid (by
      rw [Block.length_store, hlength, htake, (by omega : e + 1 + (16 - e - 1) = 16)]) hsecond)
      (by omega)
    rw [List.take_append_drop] at hboth
    refine ⟨hboth, ?_⟩
    rw [Block.store_of_le hsecond, Block.store_of_le hfits]

/-- The new record stands behind the others. -/
theorem Saved.storeLine (hsaved : Saved h lines) (hline : Storable line)
    (hroom : lines = [] ∨ (records lines).length + line.length + 2 ≤ RING_HISTORY_LEN) :
    Saved (storeLine h line) (lines ++ [line]) := by
  have hlt := hsaved.endPos_lt
  have hbegin := hsaved.source.header_lt
  have hlength := hsaved.source.length
  obtain ⟨hpos, hle⟩ := hline
  have hfits : (records lines).length + line.length + 2 ≤ RING_HISTORY_LEN := by
    rcases hroom with hnil | hfits
    · rw [hnil, records_nil, List.length_nil]
      simp only [RING_HISTORY_LEN] at hle ⊢
      omega
    · exact hfits
  -- the places of the new record, told by those of the others
  have hplace : ∀ k, (h.endPos + k) % RING_HISTORY_LEN =
      (h.beginPos + ((records lines).length + k)) % RING_HISTORY_LEN := by
    intro k
    rw [hsaved.end_eq, Nat.mod_add_mod, Nat.add_assoc]
  obtain ⟨ring₁, hring₁⟩ : ∃ ring₁, (if h.byteAt h.beginPos = 0 then
      h.ringBuf.store h.beginPos [UInt8.ofNat line.length] else h.ringBuf) = ring₁ := ⟨_, rfl⟩
  have hfirst : ring₁.bytes.length = RING_HISTORY_LEN ∧ ring₁.overrun = false ∧
      Holds ring₁.bytes h.beginPos (records lines) := by
    subst hring₁
    have hrecords := (holds_append.1 hsaved.source.holds).1
    split_ifs with hempty
    · have hnil : lines = [] := by
        cases lines with
        | nil => rfl
        | cons line' lines =>
            rw [hsaved.source.byteAt_cons] at hempty
            exact absurd hempty (Nat.ne_of_gt (hsaved.source.storable line' List.mem_cons_self).1)
      refine ⟨by rw [Block.length_store, hlength], ?_, by rw [hnil]; exact holds_nil⟩
      rw [Block.store_of_le (by rw [hlength]; exact hbegin)]
      exact hsaved.overrun
    · exact ⟨hlength, hsaved.overrun, hrecords⟩
  obtain ⟨hlength₁, hoverrun₁, hholds₁⟩ := hfirst
  obtain ⟨hcopy, hoverrun₂⟩ := laid_copyLine hlength₁ hlt hle
  have hlength₂ := hcopy.length.trans hlength₁
  have hlen : h.endPos + [UInt8.ofNat line.length].length ≤
      (copyLine ring₁ h.endPos line).bytes.length := by
    rw [hlength₂]
    exact hlt
  have hput : Laid _ h.endPos _ _ := (stored_store hlen).laid (by
    rw [hlength₂, Nat.mod_eq_of_lt hlt]) hlen
  have hlength₃ := hput.length.trans hlength₂
  have hwrap : wrap (h.endPos + line.length + 1) =
      (h.endPos + line.length + 1) % RING_HISTORY_LEN := by
    apply wrap_eq
    simp only [RING_HISTORY_LEN] at hlt hle ⊢
    omega
  have hzero : wrap (h.endPos + line.length + 1) + [(0 : UInt8)].length ≤
      ((copyLine ring₁ h.endPos line).store h.endPos [UInt8.ofNat line.length]).bytes.length := by
    rw [hlength₃, hwrap]
    exact Nat.mod_lt _ (by decide)
  have hlast : Laid _ (h.endPos + line.length + 1) _ _ := (stored_store hzero).laid (by
    rw [hlength₃, hwrap]) hzero
  -- what the stores leave alone
  have hrecords₂ := hcopy.frame h.beginPos (records lines) 1 hholds₁ (by omega) (by
    rw [hlength₁]
    exact hplace 1)
  have hrecords₃ := hput.frame h.beginPos (records lines) 0 hrecords₂
    (by rw [List.length_singleton]; omega) (by
    rw [hlength₂]
    exact hplace 0)
  have hrecords := hlast.frame h.beginPos (records lines) (line.length + 1) hrecords₃
    (by rw [List.length_singleton]; omega) (by
    rw [hlength₃, Nat.add_assoc]
    exact hplace (line.length + 1))
  have hline₃ := hput.frame (h.endPos + 1) line (RING_HISTORY_LEN - 1 - line.length) hcopy.holds
    (by rw [List.length_singleton]; omega) (by
    have hturn : h.endPos + 1 + (line.length + (RING_HISTORY_LEN - 1 - line.length)) =
        h.endPos + RING_HISTORY_LEN := by omega
    rw [hlength₂, hturn, Nat.add_mod_right])
  have hline := hlast.frame (h.endPos + 1) line 0 hline₃
    (by rw [List.length_singleton]; omega) (by
    congr 1
    omega)
  have hbyte := hlast.frame h.endPos [UInt8.ofNat line.length] line.length hput.holds
    (by rw [List.length_singleton, List.length_singleton]; omega) (by
    congr 1
    rw [List.length_singleton]
    omega)
  have hnew : Holds _ h.endPos (record line ++ [0]) :=
    holds_append.2 ⟨holds_append.2 ⟨hbyte, hline⟩, hlast.holds⟩
  have hlength₄ := hlast.length.trans hlength₃
  have hstore : CommandLine.storeLine h line =
      { ringBuf := ((copyLine ring₁ h.endPos line).store h.endPos
          [UInt8.ofNat line.length]).store (wrap (h.endPos + line.length + 1)) [0]
        beginPos := h.beginPos, endPos := wrap (h.endPos + line.length + 1), cur := 0 } := by
    rw [← hring₁]
    rfl
  have hsize : (records (lines ++ [line])).length = (records lines).length + (line.length + 1) := by
    rw [records_append, List.length_append, records_cons, records_nil, List.append_nil,
      length_record]
  rw [hstore]
  refine ⟨⟨hlength₄, hbegin, ?_, by rw [hsize]; omega, ?_⟩, ?_, ?_⟩
  · intro l hl
    rcases List.mem_append.1 hl with hold | hnew
    · exact hsaved.source.storable l hold
    · rw [List.mem_singleton.1 hnew]
      exact ⟨hpos, hle⟩
  · rw [records_append, records_cons, records_nil, List.append_nil, List.append_assoc]
    refine holds_append.2 ⟨hrecords, (holds_congr ?_).1 hnew⟩
    rw [hlength₄]
    exact hplace 0
  · rw [hsize, hwrap, Nat.add_assoc]
    exact hplace (line.length + 1)
  · rw [Block.store_of_le hzero, Block.store_of_le hlen]
    exact hoverrun₂.trans hoverrun₁

/-- The lines after one more was entered; one that the ring cannot take is not kept. -/
def saveLine (lines : List (List UInt8)) (line : List UInt8) : List (List UInt8) :=
  if RING_HISTORY_LEN - 2 < line.length then lines else evict line.length lines ++ [line]

theorem Saved.save (hsaved : Saved h lines) (hpos : 0 < line.length) :
    ∃ h', histSaveLine h line = some h' ∧ Saved h' (saveLine lines line) := by
  rw [histSaveLine, saveLine]
  split_ifs with hlong
  · exact ⟨h, rfl, hsaved⟩
  · obtain ⟨h', herase, hleft⟩ :=
      hsaved.eraseForNew line.length hsaved.source.length_lines_lt
    rw [herase]
    exact ⟨_, rfl, hleft.storeLine ⟨hpos, Nat.le_of_not_lt hlong⟩ (evict_room _ _)⟩

end Save

/-! ## Restoring -/

section Restore

variable {h : RingHistory} {line : List UInt8} {lines : List (List UInt8)}

/-- The line at the `cur`th place from the end; there is none behind the last one. -/
def recalled (lines : List (List UInt8)) (cur : ℕ) : List UInt8 :=
  lines.getD (lines.length - cur) []

@[simp] theorem recalled_zero (lines : List (List UInt8)) : recalled lines 0 = [] := by
  rw [recalled, Nat.sub_zero, List.getD_eq_getElem?_getD, List.getElem?_eq_none (Nat.le_refl _),
    Option.getD_none]

theorem drop_recalled {cur : ℕ} (hpos : 0 < cur) (hcur : cur ≤ lines.length) :
    lines.drop (lines.length - cur) =
      recalled lines cur :: lines.drop (lines.length - cur + 1) := by
  have hlt : lines.length - cur < lines.length := by omega
  rw [recalled, List.getD_eq_getElem?_getD, List.getElem?_eq_getElem hlt, Option.getD_some]
  exact List.drop_eq_getElem_cons hlt

theorem From.copyRecord_cons {header : ℕ} (hfrom : From h.ringBuf header (line :: lines))
    (b : Block) : copyRecord h b header = b.store 0 line := by
  obtain ⟨hpos, hle⟩ := hfrom.storable line List.mem_cons_self
  have hlength := hfrom.length
  have hlt := hfrom.header_lt
  have hline : Holds h.ringBuf.bytes (header + 1) line := by
    have hholds := hfrom.holds
    rw [records_cons, List.append_assoc] at hholds
    have hrecord : Holds h.ringBuf.bytes header ([UInt8.ofNat line.length] ++ line) :=
      (holds_append.1 hholds).1
    exact (holds_append.1 hrecord).2
  rw [copyRecord, hfrom.byteAt_cons]
  split_ifs with hstraight <;> simp only [RING_HISTORY_LEN] at hlength hlt hle hstraight ⊢
  · rw [hline.slice_eq (Nat.le_refl _) (by rw [hlength, Nat.mod_eq_of_lt (by omega)])
      (by omega), List.take_length]
  · have hrest : Holds h.ringBuf.bytes 0 (line.drop (16 - header - 1)) := by
      have hdrop := hline.drop (16 - header - 1)
      rw [(by omega : header + 1 + (16 - header - 1) = 16), ← holds_mod, hlength] at hdrop
      exact hdrop
    have hlast : slice h.ringBuf.bytes 0 (line.length - (16 - header - 1)) =
        line.drop (16 - header - 1) := by
      have hcount : line.length - (16 - header - 1) = (line.drop (16 - header - 1)).length :=
        List.length_drop.symm
      rw [hcount, hrest.slice_eq (Nat.le_refl _) (by rw [Nat.zero_mod]) (by omega),
        List.take_length]
    have hfirst : slice h.ringBuf.bytes (header + 1) (16 - header - 1) =
        line.take (16 - header - 1) := by
      by_cases hend : header + 1 = 16
      · rw [(by omega : 16 - header - 1 = 0), List.take_zero]
        rfl
      · exact hline.slice_eq (by omega) (by rw [hlength, Nat.mod_eq_of_lt (by omega)]) (by omega)
    have htake : (line.take (16 - header - 1)).length = 16 - header - 1 := by
      rw [List.length_take]
      omega
    have hboth := Block.store_store b (line.take (16 - header - 1)) (line.drop (16 - header - 1))
    rw [htake, List.take_append_drop] at hboth
    rw [hfirst, hlast, hboth]

theorem From.copyRecord_nil {header : ℕ} (hfrom : From h.ringBuf header []) (b : Block) :
    copyRecord h b header = b.store 0 [] := by
  have hlt := hfrom.header_lt
  rw [copyRecord, hfrom.byteAt_nil, Nat.zero_add, if_pos hlt]
  rfl

/-- The count of the records. -/
theorem Saved.seek_count (hsaved : Saved h lines) : ∃ header,
    seek h (fun _ => false) RING_HISTORY_LEN h.beginPos 0 = some (header, lines.length) := by
  obtain ⟨header, hseek, -⟩ := seek_eq (fun _ => false) (j := 0) hsaved.source
    hsaved.source.length_lines_lt
  rw [steps_of_never (fun _ => rfl), Nat.zero_add] at hseek
  exact ⟨header, hseek⟩

/-- The record that the second loop finds. -/
theorem Saved.seek_record (hsaved : Saved h lines) (stop : ℕ → Bool) {n : ℕ}
    (hn : n ≤ lines.length) (hstop : ∀ j, j < lines.length → (stop j = true ↔ j = n)) :
    ∃ header j,
      seek h stop RING_HISTORY_LEN h.beginPos 0 = some (header, j) ∧
        From h.ringBuf header (lines.drop n) := by
  obtain ⟨header, hseek, hrest⟩ := seek_eq stop (j := 0) hsaved.source
    hsaved.source.length_lines_lt
  refine ⟨header, _, hseek, ?_⟩
  rwa [steps_of_iff (Nat.zero_le n) (by omega) (fun i hi => hstop i (by omega)),
    Nat.sub_zero] at hrest

theorem Saved.restore_up (hsaved : Saved h lines) (hcur : h.cur < lines.length) (b : Block) :
    histRestoreLine h b .up =
      some ({ h with cur := h.cur + 1 },
        (b.store 0 (List.replicate COMMAND_LINE_LEN 0)).store 0 (recalled lines (h.cur + 1)),
        some (recalled lines (h.cur + 1)).length) := by
  obtain ⟨last, hcount⟩ := hsaved.seek_count
  obtain ⟨header, j, hseek, hfrom⟩ := hsaved.seek_record
    (fun j => decide ((lines.length : ℤ) - j - 1 = h.cur))
    (n := lines.length - (h.cur + 1)) (by omega) (fun j _ => by rw [decide_eq_true_iff]; omega)
  rw [drop_recalled (Nat.succ_pos _) hcur] at hfrom
  have hpos : 0 < (recalled lines (h.cur + 1)).length :=
    (hfrom.storable _ List.mem_cons_self).1
  rw [histRestoreLine, hcount]
  simp only [Option.bind_some]
  rw [if_pos (Nat.le_of_lt hcur), hseek]
  simp only [Option.map_some]
  rw [hfrom.byteAt_cons, if_pos (Nat.ne_of_gt hpos), hfrom.copyRecord_cons]

theorem Saved.restore_up_of_all (hsaved : Saved h lines) (hcur : h.cur = lines.length) (b : Block) :
    histRestoreLine h b .up = some (h, b, none) := by
  obtain ⟨last, hcount⟩ := hsaved.seek_count
  obtain ⟨header, j, hseek, hfrom⟩ := hsaved.seek_record
    (fun j => decide ((lines.length : ℤ) - j - 1 = h.cur))
    (n := lines.length) (Nat.le_refl _) (fun j _ => by rw [decide_eq_true_iff]; omega)
  rw [List.drop_length] at hfrom
  rw [histRestoreLine, hcount]
  simp only [Option.bind_some]
  rw [if_pos (Nat.le_of_eq hcur), hseek]
  simp only [Option.map_some]
  rw [hfrom.byteAt_nil, if_neg (fun hne => hne rfl)]

theorem Saved.restore_down (hsaved : Saved h lines) (hpos : 0 < h.cur) (hcur : h.cur ≤ lines.length)
    (b : Block) :
    histRestoreLine h b .down =
      some ({ h with cur := h.cur - 1 }, b.store 0 (recalled lines (h.cur - 1)),
        some (recalled lines (h.cur - 1)).length) := by
  obtain ⟨last, hcount⟩ := hsaved.seek_count
  obtain ⟨header, j, hseek, hfrom⟩ := hsaved.seek_record
    (fun j => decide ((lines.length : ℤ) - j = (h.cur - 1 : ℕ)))
    (n := lines.length - (h.cur - 1)) (by omega) (fun j _ => by rw [decide_eq_true_iff]; omega)
  rw [histRestoreLine, hcount]
  simp only [Option.bind_some]
  rw [if_pos hpos, hseek]
  simp only [Option.map_some]
  have hrecalled : copyRecord h b header = b.store 0 (recalled lines (h.cur - 1)) ∧
      h.byteAt header = (recalled lines (h.cur - 1)).length := by
    by_cases hlast : h.cur - 1 = 0
    · rw [hlast, Nat.sub_zero, List.drop_length] at hfrom
      rw [hlast, recalled_zero, hfrom.copyRecord_nil, hfrom.byteAt_nil]
      exact ⟨rfl, rfl⟩
    · rw [drop_recalled (by omega) (by omega)] at hfrom
      exact ⟨hfrom.copyRecord_cons b, hfrom.byteAt_cons⟩
  rw [hrecalled.1, hrecalled.2]

theorem Saved.restore_down_of_zero (hsaved : Saved h lines) (hcur : h.cur = 0) (b : Block) :
    histRestoreLine h b .down = some (h, b, some 0) := by
  obtain ⟨last, hcount⟩ := hsaved.seek_count
  rw [histRestoreLine, hcount]
  simp only [Option.bind_some]
  rw [if_neg (by omega)]

end Restore

end CommandLine

end EspHosted
