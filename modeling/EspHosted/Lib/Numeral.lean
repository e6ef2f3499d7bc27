import EspHosted.Lib.CString
import Mathlib.Data.List.TakeWhile

/-!
# Numbers in C syntax

A numeral is a radix with its introducer and a list of digits. A scanner that takes
digits as long as there are any reads a `Scanned` numeral: it may be without digits,
or be octal and have the digits 8 and 9. `Regular` are the numerals C has.

`readNumeral` is such a scanner. What it reads is determined by the text, and so is
the list of numerals of a text in which dots stand between them.
-/

namespace EspHosted

namespace Bytes

/-! ## Characters -/

/-- `isascii` -/
def isascii (c : UInt8) : Bool := c < 128

/-- `isdigit` -/
def isdigit (c : UInt8) : Bool := 48 ≤ c && c ≤ 57

/-- `islower` -/
def islower (c : UInt8) : Bool := 97 ≤ c && c ≤ 122

/-- `isxdigit` -/
def isxdigit (c : UInt8) : Bool := isdigit c || (97 ≤ c && c ≤ 102) || (65 ≤ c && c ≤ 70)

/-- `isspace` -/
def isspace (c : UInt8) : Bool := c = 32 || (9 ≤ c && c ≤ 13)

/-- The character a pointer into a string points to. -/
def deref (cp : List UInt8) : UInt8 := cp.headD 0

@[simp] theorem deref_cons (c : UInt8) (cp : List UInt8) : deref (c :: cp) = c := rfl

/-- The value of a digit, up to 15. -/
def digitValue (c : UInt8) : ℕ :=
  if isdigit c then c.toNat - 48 else if islower c then c.toNat - 87 else c.toNat - 55

/-! ## Numerals -/

/-- `hexadecimal true` is introduced by an upper-case letter. -/
inductive Radix where
  | decimal
  | octal
  | hexadecimal (upper : Bool)
  deriving DecidableEq

namespace Radix

def base : Radix → ℕ
  | .decimal => 10
  | .octal => 8
  | .hexadecimal _ => 16

/-- What stands before the digits: `0`, `0x` or `0X`. -/
def introducer : Radix → List UInt8
  | .decimal => []
  | .octal => [48]
  | .hexadecimal false => [48, 120]
  | .hexadecimal true => [48, 88]

/-- The characters that are taken for digits. -/
def takes : Radix → UInt8 → Bool
  | .hexadecimal _, c => isxdigit c
  | _, c => isdigit c

end Radix

structure Numeral where
  radix : Radix
  digits : List UInt8
  deriving DecidableEq

/-- The value of a list of digits behind digits of value `v`. -/
def valueFrom (base v : ℕ) (digits : List UInt8) : ℕ :=
  digits.foldl (fun v c => v * base + digitValue c) v

namespace Numeral

def text (n : Numeral) : List UInt8 := n.radix.introducer ++ n.digits

def value (n : Numeral) : ℕ := valueFrom n.radix.base 0 n.digits

/-- A decimal numeral does not look like an octal one, and there are only digits. -/
structure Scanned (n : Numeral) : Prop where
  takes : ∀ c ∈ n.digits, n.radix.takes c
  decimal : n.radix = .decimal → deref n.digits ≠ 48

/-- There are digits, and those of an octal numeral are at most 7. -/
def Regular (n : Numeral) : Prop :=
  match n.radix with
  | .decimal => n.digits ≠ []
  | .octal => ∀ c ∈ n.digits, c ≤ 55
  | .hexadecimal _ => n.digits ≠ []

end Numeral

/-- The digits at the start of `cp`, and what stands behind them. -/
def readDigits (radix : Radix) (cp : List UInt8) : Numeral × List UInt8 :=
  ({ radix := radix, digits := cp.takeWhile radix.takes }, cp.dropWhile radix.takes)

/-- The numeral at the start of `cp`, and what stands behind it. -/
def readNumeral (cp : List UInt8) : Numeral × List UInt8 :=
  if deref cp = 48 then
    if deref cp.tail = 120 then readDigits (.hexadecimal false) cp.tail.tail
    else if deref cp.tail = 88 then readDigits (.hexadecimal true) cp.tail.tail
    else readDigits .octal cp.tail
  else
    readDigits .decimal cp

section ReadNumeral

theorem eq_cons_of_deref {cp : List UInt8} {c : UInt8} (h : deref cp = c) (hc : c ≠ 0) :
    cp = c :: cp.tail := by
  cases cp with
  | nil => exact absurd h.symm hc
  | cons b cp =>
      rw [deref_cons] at h
      rw [h, List.tail_cons]

theorem takes_of_mem_readDigits {radix : Radix} {cp : List UInt8} :
    ∀ c ∈ (readDigits radix cp).1.digits, radix.takes c := by
  intro c hc
  exact List.mem_takeWhile_imp hc

theorem scanned_readDigits {radix : Radix} (h : radix ≠ .decimal) (cp : List UInt8) :
    (readDigits radix cp).1.Scanned :=
  ⟨takes_of_mem_readDigits, fun hradix => absurd hradix h⟩

theorem append_readDigits (radix : Radix) (cp : List UInt8) :
    (readDigits radix cp).1.digits ++ (readDigits radix cp).2 = cp :=
  List.takeWhile_append_dropWhile

/-- What is read is a numeral, and together with the rest it is the text. -/
theorem readNumeral_spec (cp : List UInt8) :
    (readNumeral cp).1.Scanned ∧ (readNumeral cp).1.text ++ (readNumeral cp).2 = cp := by
  by_cases hzero : deref cp = 48
  · have hcp := eq_cons_of_deref hzero (by decide)
    by_cases hx : deref cp.tail = 120
    · have htail := eq_cons_of_deref hx (by decide)
      rw [readNumeral, if_pos hzero, if_pos hx]
      constructor
      · exact scanned_readDigits (by decide) _
      · rw [Numeral.text, List.append_assoc, append_readDigits]
        change 48 :: 120 :: cp.tail.tail = cp
        rw [← htail, ← hcp]
    · by_cases hX : deref cp.tail = 88
      · have htail := eq_cons_of_deref hX (by decide)
        rw [readNumeral, if_pos hzero, if_neg hx, if_pos hX]
        constructor
        · exact scanned_readDigits (by decide) _
        · rw [Numeral.text, List.append_assoc, append_readDigits]
          change 48 :: 88 :: cp.tail.tail = cp
          rw [← htail, ← hcp]
      · rw [readNumeral, if_pos hzero, if_neg hx, if_neg hX]
        constructor
        · exact scanned_readDigits (by decide) _
        · rw [Numeral.text, List.append_assoc, append_readDigits]
          change 48 :: cp.tail = cp
          rw [← hcp]
  · rw [readNumeral, if_neg hzero]
    constructor
    · constructor
      · exact takes_of_mem_readDigits
      · intro _ hdigit
        apply hzero
        have hcp := append_readDigits .decimal cp
        rw [← hcp, eq_cons_of_deref hdigit (by decide)]
        rfl
    · rw [Numeral.text, List.append_assoc, append_readDigits]
      rfl

/-- `rest` does not go on with a character of a numeral. -/
def Stops (rest : List UInt8) : Prop :=
  isxdigit (deref rest) = false ∧ deref rest ≠ 120 ∧ deref rest ≠ 88

/-- The characters below the digits stop a numeral. -/
theorem stops_of_lt {rest : List UInt8} (h : (deref rest).toNat < 48) : Stops rest := by
  constructor
  · simp only [isxdigit, isdigit, Bool.or_eq_false_iff, Bool.and_eq_false_iff,
      decide_eq_false_iff_not, UInt8.le_iff_toNat_le, UInt8.reduceToNat]
    omega
  · constructor
    · intro hx
      rw [hx] at h
      exact absurd h (by decide)
    · intro hx
      rw [hx] at h
      exact absurd h (by decide)

theorem isxdigit_of_takes {radix : Radix} {c : UInt8} (h : radix.takes c) : isxdigit c := by
  cases radix with
  | decimal =>
      have hdigit : isdigit c := h
      simp [isxdigit, hdigit]
  | octal =>
      have hdigit : isdigit c := h
      simp [isxdigit, hdigit]
  | hexadecimal upper => exact h

/-- What holds of all digits and of what stands behind them holds of the first character. -/
theorem deref_append {P : UInt8 → Prop} {digits rest : List UInt8} (h : ∀ c ∈ digits, P c)
    (hrest : P (deref rest)) : P (deref (digits ++ rest)) := by
  cases digits with
  | nil => exact hrest
  | cons c digits => exact h c List.mem_cons_self

theorem readDigits_append {radix : Radix} {digits rest : List UInt8}
    (h : ∀ c ∈ digits, radix.takes c) (hrest : Stops rest) :
    readDigits radix (digits ++ rest) = ({ radix := radix, digits := digits }, rest) := by
  have hstop : ¬ radix.takes (deref rest) := by
    intro htakes
    have hfalse := hrest.1
    rw [isxdigit_of_takes htakes] at hfalse
    exact Bool.noConfusion hfalse
  rw [readDigits, List.takeWhile_append_of_pos h, List.dropWhile_append_of_pos h]
  cases rest with
  | nil => simp
  | cons c rest =>
      rw [deref_cons] at hstop
      simp [hstop]

/-- A numeral is read back from its text. -/
theorem readNumeral_append {n : Numeral} {rest : List UInt8} (h : n.Scanned)
    (hrest : Stops rest) : readNumeral (n.text ++ rest) = (n, rest) := by
  obtain ⟨radix, digits⟩ := n
  have hread := readDigits_append h.takes hrest
  cases radix with
  | decimal =>
      have hfirst : deref (digits ++ rest) ≠ 48 := by
        cases digits with
        | nil =>
            intro hzero
            have hstop : isxdigit (deref rest) = false := hrest.1
            rw [show deref rest = 48 from hzero] at hstop
            exact absurd hstop (by decide)
        | cons c digits => exact h.decimal rfl
      change readNumeral (digits ++ rest) = _
      rw [readNumeral, if_neg hfirst]
      exact hread
  | octal =>
      have hnot : ∀ c, isdigit c → c ≠ 120 ∧ c ≠ 88 := by
        intro c hc
        constructor
        · rintro rfl
          exact absurd hc (by decide)
        · rintro rfl
          exact absurd hc (by decide)
      have hfirst : deref (digits ++ rest) ≠ 120 ∧ deref (digits ++ rest) ≠ 88 :=
        deref_append (P := fun c => c ≠ 120 ∧ c ≠ 88) (fun c hc => hnot c (h.takes c hc)) hrest.2
      change readNumeral (48 :: (digits ++ rest)) = _
      rw [readNumeral, deref_cons, if_pos rfl, List.tail_cons, if_neg hfirst.1, if_neg hfirst.2]
      exact hread
  | hexadecimal upper =>
      cases upper with
      | false => exact hread
      | true => exact hread

end ReadNumeral

/-! ## The decimal text of a number -/

/-- The digits of `n`, without leading zeros. -/
def decimalText (n : ℕ) : List UInt8 := (Nat.toDigits 10 n).map fun c => UInt8.ofNat c.toNat

/-- The numeral that `decimalText n` is read as: zero is octal. -/
def Numeral.ofNat (n : ℕ) : Numeral :=
  if n = 0 then { radix := .octal, digits := [] }
  else { radix := .decimal, digits := decimalText n }

section Decimal

theorem decimalText_of_lt {n : ℕ} (h : n < 10) : decimalText n = [UInt8.ofNat (48 + n)] := by
  rw [decimalText, Nat.toDigits_of_lt_base h, List.map_singleton,
    Nat.toNat_digitChar_of_lt_ten h]

theorem decimalText_of_le {n : ℕ} (h : 10 ≤ n) :
    decimalText n = decimalText (n / 10) ++ [UInt8.ofNat (48 + n % 10)] := by
  rw [decimalText, Nat.toDigits_of_base_le (by decide) h, List.map_append, List.map_singleton,
    Nat.toNat_digitChar_of_lt_ten (Nat.mod_lt n (by decide))]
  rfl

theorem toNat_digit {d : ℕ} (h : d < 10) : (UInt8.ofNat (48 + d)).toNat = 48 + d := by
  rw [UInt8.toNat_ofNat']
  omega

theorem isdigit_digit {d : ℕ} (h : d < 10) : isdigit (UInt8.ofNat (48 + d)) := by
  simp only [isdigit, Bool.and_eq_true, decide_eq_true_eq, UInt8.le_iff_toNat_le, toNat_digit h,
    UInt8.reduceToNat]
  omega

theorem digitValue_digit {d : ℕ} (h : d < 10) : digitValue (UInt8.ofNat (48 + d)) = d := by
  rw [digitValue, if_pos (isdigit_digit h), toNat_digit h, Nat.add_sub_cancel_left]

theorem valueFrom_concat (base v : ℕ) (digits : List UInt8) (c : UInt8) :
    valueFrom base v (digits ++ [c]) = valueFrom base v digits * base + digitValue c := by
  simp [valueFrom]

theorem isdigit_of_mem_decimalText (n : ℕ) : ∀ c ∈ decimalText n, isdigit c := by
  induction n using Nat.strongRecOn with
  | ind n ih =>
      intro c hc
      by_cases h : n < 10
      · rw [decimalText_of_lt h, List.mem_singleton] at hc
        rw [hc]
        exact isdigit_digit h
      · have hle : 10 ≤ n := Nat.not_lt.1 h
        rw [decimalText_of_le hle, List.mem_append, List.mem_singleton] at hc
        cases hc with
        | inl hmem => exact ih (n / 10) (by omega) c hmem
        | inr heq =>
            rw [heq]
            exact isdigit_digit (Nat.mod_lt n (by decide))

/-- The text is that of the number. -/
theorem valueFrom_decimalText (n : ℕ) : valueFrom 10 0 (decimalText n) = n := by
  induction n using Nat.strongRecOn with
  | ind n ih =>
      by_cases h : n < 10
      · rw [decimalText_of_lt h, valueFrom, List.foldl_cons, List.foldl_nil, Nat.zero_mul,
          Nat.zero_add, digitValue_digit h]
      · have hle : 10 ≤ n := Nat.not_lt.1 h
        rw [decimalText_of_le hle, valueFrom_concat, ih (n / 10) (by omega),
          digitValue_digit (Nat.mod_lt n (by decide))]
        omega

/-- There are no leading zeros. -/
theorem deref_decimalText {n : ℕ} (hn : 0 < n) : deref (decimalText n) ≠ 48 := by
  induction n using Nat.strongRecOn with
  | ind n ih =>
      by_cases h : n < 10
      · rw [decimalText_of_lt h, deref_cons, ne_eq, ← UInt8.toNat_inj, toNat_digit h]
        simp only [UInt8.reduceToNat]
        omega
      · have hle : 10 ≤ n := Nat.not_lt.1 h
        have hdiv : 0 < n / 10 := by omega
        have hhead := ih (n / 10) (by omega) hdiv
        rw [decimalText_of_le hle]
        cases htext : decimalText (n / 10) with
        | nil =>
            have hvalue := valueFrom_decimalText (n / 10)
            rw [htext] at hvalue
            exact absurd hvalue (Nat.ne_of_lt hdiv)
        | cons c text =>
            rw [htext] at hhead
            exact hhead

namespace Numeral

theorem text_ofNat (n : ℕ) : (ofNat n).text = decimalText n := by
  by_cases h : n = 0
  · rw [h]
    decide
  · rw [ofNat, if_neg h]
    rfl

theorem value_ofNat (n : ℕ) : (ofNat n).value = n := by
  by_cases h : n = 0
  · rw [h]
    rfl
  · rw [ofNat, if_neg h]
    exact valueFrom_decimalText n

theorem scanned_ofNat (n : ℕ) : (ofNat n).Scanned := by
  by_cases h : n = 0
  · rw [ofNat, if_pos h]
    exact ⟨fun c hc => absurd hc List.not_mem_nil, fun hradix => absurd hradix (by decide)⟩
  · rw [ofNat, if_neg h]
    exact ⟨isdigit_of_mem_decimalText n, fun _ => deref_decimalText (Nat.pos_of_ne_zero h)⟩

end Numeral

end Decimal

/-! ## Numerals with dots between them -/

/-- The numerals, separated by dots. -/
def dotted : List Numeral → List UInt8
  | [] => []
  | [n] => n.text
  | n :: ns => n.text ++ 46 :: dotted ns

/-- The string ends, or goes on with a space. -/
def Ends (rest : List UInt8) : Prop := deref rest = 0 ∨ isspace (deref rest)

/-- `s` is the list `ns` in dotted notation, and what follows. -/
structure Spells (s : List UInt8) (ns : List Numeral) (rest : List UInt8) : Prop where
  text : s = dotted ns ++ rest
  nonempty : ns ≠ []
  scanned : ∀ n ∈ ns, n.Scanned
  ends : Ends rest

section Spells

theorem Ends.toNat_le {rest : List UInt8} (h : Ends rest) : (deref rest).toNat ≤ 32 := by
  obtain hzero | hspace := h
  · rw [hzero]
    decide
  · simp only [isspace, Bool.or_eq_true, Bool.and_eq_true, decide_eq_true_eq,
      UInt8.le_iff_toNat_le, ← UInt8.toNat_inj, UInt8.reduceToNat] at hspace
    omega

theorem Ends.stops {rest : List UInt8} (h : Ends rest) : Stops rest :=
  stops_of_lt (Nat.lt_of_le_of_lt h.toNat_le (by decide))

theorem Ends.ne_dot {rest : List UInt8} (h : Ends rest) : deref rest ≠ 46 := by
  intro hdot
  have hle := h.toNat_le
  rw [hdot] at hle
  exact absurd hle (by decide)

theorem stops_dot (s : List UInt8) : Stops (46 :: s) :=
  stops_of_lt (by decide : (46 : UInt8).toNat < 48)

variable {s rest : List UInt8} {n : Numeral} {ns : List Numeral}

theorem Spells.readNumeral_last (h : Spells s [n] rest) : readNumeral s = (n, rest) := by
  rw [h.text]
  exact readNumeral_append (h.scanned n List.mem_cons_self) h.ends.stops

theorem dotted_cons (n : Numeral) (hns : ns ≠ []) :
    dotted (n :: ns) = n.text ++ 46 :: dotted ns := by
  cases ns with
  | nil => exact absurd rfl hns
  | cons m ns => rfl

theorem Spells.single (hn : n.Scanned) (hends : Ends rest) : Spells (n.text ++ rest) [n] rest where
  text := rfl
  nonempty := List.cons_ne_nil n []
  scanned := fun m hm => by rwa [List.mem_singleton.1 hm]
  ends := hends

theorem Spells.cons (hn : n.Scanned) (h : Spells s ns rest) :
    Spells (n.text ++ 46 :: s) (n :: ns) rest where
  text := by rw [dotted_cons n h.nonempty, h.text, List.append_assoc, List.cons_append]
  nonempty := List.cons_ne_nil n ns
  scanned := fun m hm => by
    cases List.mem_cons.1 hm with
    | inl heq => rwa [heq]
    | inr hmem => exact h.scanned m hmem
  ends := h.ends

/-- With more than one numeral, a dot and the others stand behind the first. -/
theorem Spells.exists_tail (h : Spells s (n :: ns) rest) (hns : ns ≠ []) :
    ∃ s', readNumeral s = (n, 46 :: s') ∧ Spells s' ns rest := by
  have hs := h.text
  rw [dotted_cons n hns, List.append_assoc, List.cons_append] at hs
  have htail : Spells (dotted ns ++ rest) ns rest :=
    ⟨rfl, hns, fun m hm => h.scanned m (List.mem_cons_of_mem n hm), h.ends⟩
  exact ⟨_, by rw [hs, readNumeral_append (h.scanned n List.mem_cons_self) (stops_dot _)], htail⟩

/-- The numerals of a text are determined by it. -/
theorem Spells.unique {ns' : List Numeral} {rest' : List UInt8} (h : Spells s ns rest)
    (h' : Spells s ns' rest') : ns = ns' := by
  induction ns generalizing s ns' with
  | nil => exact absurd rfl h.nonempty
  | cons n ns ih =>
      cases ns' with
      | nil => exact absurd rfl h'.nonempty
      | cons n' ns' =>
          by_cases hns : ns = []
          · subst hns
            have hread := h.readNumeral_last
            by_cases hns' : ns' = []
            · subst hns'
              rw [h'.readNumeral_last] at hread
              rw [(Prod.mk.inj hread).1]
            · obtain ⟨s', hread', -⟩ := h'.exists_tail hns'
              rw [hread'] at hread
              have hdot : deref rest = 46 := by rw [← (Prod.mk.inj hread).2, deref_cons]
              exact absurd hdot h.ends.ne_dot
          · obtain ⟨t, hread, htail⟩ := h.exists_tail hns
            by_cases hns' : ns' = []
            · subst hns'
              rw [h'.readNumeral_last] at hread
              have hdot : deref rest' = 46 := by rw [(Prod.mk.inj hread).2, deref_cons]
              exact absurd hdot h'.ends.ne_dot
            · obtain ⟨t', hread', htail'⟩ := h'.exists_tail hns'
              rw [hread'] at hread
              obtain ⟨hn, ht⟩ := Prod.mk.inj hread
              rw [← List.cons.inj ht |>.2] at htail
              rw [hn, ih htail htail']

end Spells

end Bytes

end EspHosted
