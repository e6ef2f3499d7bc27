import EspHosted.Common.ByteOrder
import EspHosted.Driver.Adapter
import EspHosted.Lib.Numeral

/-!
# IPv4 addresses from text

`ipv4AddrAton` reads an address of one to four numbers. A string is what stands in
memory from `cp` on. `u_long` has 32 bits, so the numbers wrap around while they are
read.

`address` says which address the numbers stand for, and `Address` which strings are
addresses. The scanner reads numerals that C does not have, and compares their values
after they have wrapped around.
-/

namespace EspHosted

namespace Common

open EspHosted.Bytes

/-- The digits of a number: its value, and where `cp` stands behind them. -/
def scanDigits (base : UInt32) : UInt32 → List UInt8 → UInt32 × List UInt8
  | val, [] => (val, [])
  | val, c :: cp =>
      if c = 0 then
        (val, c :: cp)
      else if isascii c && isdigit c then
        scanDigits base (val * base + (c.toUInt32 - 48)) cp
      else if base = 16 && isascii c && isxdigit c then
        scanDigits base ((val <<< 4) + (c.toUInt32 + 10 - if islower c then 97 else 65)) cp
      else
        (val, c :: cp)

/-- A number, with the introducer of its base. -/
def scanNumber (cp : List UInt8) : UInt32 × List UInt8 :=
  if deref cp = 48 then
    let cp := cp.tail
    if deref cp = 120 || deref cp = 88 then scanDigits 16 0 cp.tail
    else scanDigits 8 0 cp
  else
    scanDigits 10 0 cp

/-- The numbers up to the last one, with the `parts` before it. `free` is the number of
places left in `parts`. -/
def scanParts : ℕ → List UInt32 → List UInt8 → Option (List UInt32 × UInt32 × List UInt8)
  | free, parts, cp =>
      let (val, cp) := scanNumber cp
      if deref cp = 46 then
        match free with
        | 0 => none
        | free + 1 => if val > 0xff then none else scanParts free (parts ++ [val]) cp.tail
      else
        some (parts, val, cp)

/-- The return value of `ipv4_addr_aton`, and what it stores in `*ip_uint32`. -/
structure AtonResult where
  ret : Bool
  ipUint32 : Option UInt32
  deriving DecidableEq

/-- `return (0)` -/
def atonFail : AtonResult where
  ret := false
  ipUint32 := none

/-- The store at the end. -/
def atonStore (val : UInt32) : AtonResult where
  ret := true
  ipUint32 := some (htonLong val)

/-- The `switch` over the number of parts. -/
def concoct (parts : List UInt32) (val : UInt32) : AtonResult :=
  match parts with
  | [a] => if val > 0xffffff then atonFail else atonStore (val ||| (a <<< 24))
  | [a, b] =>
      if val > 0xffff then atonFail else atonStore (val ||| ((a <<< 24) ||| (b <<< 16)))
  | [a, b, c] =>
      if val > 0xff then atonFail
      else atonStore (val ||| ((a <<< 24) ||| (b <<< 16) ||| (c <<< 8)))
  | _ => atonStore val

/-- `ipv4_addr_aton` -/
def ipv4AddrAton (cp : List UInt8) : AtonResult :=
  match scanParts 3 [] cp with
  | none => atonFail
  | some (parts, val, cp) =>
      if deref cp ≠ 0 ∧ (¬ isascii (deref cp) ∨ ¬ isspace (deref cp)) then atonFail
      else concoct parts val

/-- `get_ipaddr_from_str`: the return value, and what is stored in `*ip_x`. -/
def getIpaddrFromStr (ipS : List UInt8) : StmRet × Option UInt32 :=
  let r := ipv4AddrAton ipS
  if r.ret then (.STM_OK, r.ipUint32.map htonLong) else (.STM_FAIL, none)

/-! ## The numbers of a text -/

section Scan

theorem isascii_of_isxdigit {c : UInt8} (h : isxdigit c) : isascii c := by
  simp only [isxdigit, isdigit, Bool.or_eq_true, Bool.and_eq_true, decide_eq_true_eq,
    UInt8.le_iff_toNat_le, UInt8.reduceToNat] at h
  simp only [isascii, decide_eq_true_eq, UInt8.lt_iff_toNat_lt, UInt8.reduceToNat]
  omega

theorem isxdigit_of_isdigit {c : UInt8} (h : isdigit c) : isxdigit c := by
  simp [isxdigit, h]

/-- `c - '0'` -/
theorem digit_eq {c : UInt8} (h : isdigit c) : c.toUInt32 - 48 = UInt32.ofNat (digitValue c) := by
  rw [digitValue, if_pos h]
  simp only [isdigit, Bool.and_eq_true, decide_eq_true_eq, UInt8.le_iff_toNat_le,
    UInt8.reduceToNat] at h
  rw [← UInt32.toNat_inj, UInt32.toNat_sub, UInt8.toNat_toUInt32, UInt32.toNat_ofNat']
  simp only [UInt32.reduceToNat]
  omega

/-- `c + 10 - (islower(c) ? 'a' : 'A')` -/
theorem letter_eq {c : UInt8} (h : isxdigit c) (hdigit : ¬ isdigit c) :
    (c.toUInt32 + 10 - if islower c then 97 else 65) = UInt32.ofNat (digitValue c) := by
  rw [digitValue, if_neg hdigit]
  simp only [isxdigit, Bool.or_eq_true, Bool.and_eq_true, decide_eq_true_eq, hdigit,
    Bool.false_eq_true, false_or, UInt8.le_iff_toNat_le, UInt8.reduceToNat] at h
  by_cases hlower : islower c
  · rw [if_pos hlower, if_pos hlower]
    simp only [islower, Bool.and_eq_true, decide_eq_true_eq, UInt8.le_iff_toNat_le,
      UInt8.reduceToNat] at hlower
    rw [← UInt32.toNat_inj, UInt32.toNat_sub, UInt32.toNat_add, UInt8.toNat_toUInt32,
      UInt32.toNat_ofNat']
    simp only [UInt32.reduceToNat]
    omega
  · rw [if_neg hlower, if_neg hlower]
    simp only [islower, Bool.and_eq_true, decide_eq_true_eq, UInt8.le_iff_toNat_le,
      UInt8.reduceToNat] at hlower
    rw [← UInt32.toNat_inj, UInt32.toNat_sub, UInt32.toNat_add, UInt8.toNat_toUInt32,
      UInt32.toNat_ofNat']
    simp only [UInt32.reduceToNat]
    omega

theorem shiftLeft_four (val : UInt32) : val <<< 4 = val * 16 := by
  rw [← UInt32.toNat_inj, UInt32.toNat_shiftLeft, UInt32.toNat_mul, Nat.shiftLeft_eq]
  rfl

variable {radix : Radix} {c : UInt8}

theorem scanDigits_of_takes (h : radix.takes c) (v : ℕ) (cp : List UInt8) :
    scanDigits (UInt32.ofNat radix.base) (UInt32.ofNat v) (c :: cp) =
      scanDigits (UInt32.ofNat radix.base) (UInt32.ofNat (v * radix.base + digitValue c)) cp := by
  have hxdigit := isxdigit_of_takes h
  have hascii := isascii_of_isxdigit hxdigit
  have hzero : c ≠ 0 := by
    rintro rfl
    exact absurd hxdigit (by decide)
  have hval : UInt32.ofNat (v * radix.base + digitValue c) =
      UInt32.ofNat v * UInt32.ofNat radix.base + UInt32.ofNat (digitValue c) := by
    rw [UInt32.ofNat_add, UInt32.ofNat_mul]
  rw [scanDigits, if_neg hzero, hval]
  by_cases hdigit : isdigit c
  · rw [if_pos (by rw [hascii, hdigit]; rfl), digit_eq hdigit]
  · cases radix with
    | decimal => exact absurd h hdigit
    | octal => exact absurd h hdigit
    | hexadecimal upper =>
        have hletter : ((UInt32.ofNat (Radix.hexadecimal upper).base = 16) && isascii c &&
            isxdigit c) = true := by
          rw [hascii, hxdigit]
          rfl
        have hnot : ¬ (isascii c && isdigit c) = true := by
          simp [hdigit]
        rw [if_neg hnot, if_pos hletter, letter_eq hxdigit hdigit, shiftLeft_four]
        rfl

theorem scanDigits_of_not_takes (h : ¬ radix.takes c) (val : UInt32) (cp : List UInt8) :
    scanDigits (UInt32.ofNat radix.base) val (c :: cp) = (val, c :: cp) := by
  have hdigit : ¬ isdigit c := by
    intro hdigit
    cases radix with
    | decimal => exact h hdigit
    | octal => exact h hdigit
    | hexadecimal upper => exact h (isxdigit_of_isdigit hdigit)
  rw [scanDigits]
  by_cases hzero : c = 0
  · rw [if_pos hzero]
  · rw [if_neg hzero, if_neg (by simp [hdigit])]
    cases radix with
    | decimal => rfl
    | octal => rfl
    | hexadecimal upper =>
        have hxdigit : ¬ isxdigit c := h
        rw [if_neg (by simp [hxdigit])]

/-- The loop takes the digits of the radix and wraps their value around. -/
theorem scanDigits_eq (radix : Radix) (v : ℕ) (cp : List UInt8) :
    scanDigits (UInt32.ofNat radix.base) (UInt32.ofNat v) cp =
      (UInt32.ofNat (valueFrom radix.base v (readDigits radix cp).1.digits),
        (readDigits radix cp).2) := by
  induction cp generalizing v with
  | nil => rfl
  | cons c cp ih =>
      by_cases h : radix.takes c
      · rw [scanDigits_of_takes h, ih]
        simp [readDigits, valueFrom, h]
      · rw [scanDigits_of_not_takes h]
        simp [readDigits, valueFrom, h]

theorem scanNumber_eq (cp : List UInt8) :
    scanNumber cp = (UInt32.ofNat (readNumeral cp).1.value, (readNumeral cp).2) := by
  rw [scanNumber, readNumeral]
  by_cases hzero : deref cp = 48
  · rw [if_pos hzero, if_pos hzero]
    by_cases hx : deref cp.tail = 120
    · simp only [hx, if_true, decide_true, Bool.true_or]
      exact scanDigits_eq (.hexadecimal false) 0 cp.tail.tail
    · by_cases hX : deref cp.tail = 88
      · simp only [hX, if_true, decide_true, Bool.or_true]
        rw [if_neg (by decide)]
        exact scanDigits_eq (.hexadecimal true) 0 cp.tail.tail
      · simp only [hx, hX, if_false, decide_false, Bool.or_false, Bool.false_eq_true]
        exact scanDigits_eq .octal 0 cp.tail
  · rw [if_neg hzero, if_neg hzero]
    exact scanDigits_eq .decimal 0 cp

end Scan

section Parts

variable {s rest : List UInt8} {n : Numeral} {ns : List Numeral}

/-- The value of a numeral, as the scanner has it. -/
def scanned (n : Numeral) : UInt32 := UInt32.ofNat n.value

theorem scanParts_eq (free : ℕ) (parts : List UInt32) (cp : List UInt8) :
    scanParts free parts cp =
      if deref (readNumeral cp).2 = 46 then
        match free with
        | 0 => none
        | free + 1 =>
            if scanned (readNumeral cp).1 > 0xff then none
            else scanParts free (parts ++ [scanned (readNumeral cp).1]) (readNumeral cp).2.tail
      else
        some (parts, scanned (readNumeral cp).1, (readNumeral cp).2) := by
  rw [scanParts.eq_def]
  simp only [scanNumber_eq]
  rfl

theorem scanParts_last (h : Spells s [n] rest) (free : ℕ) (parts : List UInt32) :
    scanParts free parts s = some (parts, scanned n, rest) := by
  rw [scanParts_eq, h.readNumeral_last, if_neg h.ends.ne_dot]

theorem scanParts_next (h : Spells s (n :: ns) rest) (hns : ns ≠ []) :
    ∃ s', Spells s' ns rest ∧ ∀ (free : ℕ) (parts : List UInt32),
      scanParts free parts s =
        match free with
        | 0 => none
        | free + 1 =>
            if scanned n > 0xff then none else scanParts free (parts ++ [scanned n]) s' := by
  obtain ⟨s', hread, htail⟩ := h.exists_tail hns
  constructor
  constructor
  · exact htail
  · intro free parts
    rw [scanParts_eq, hread, if_pos (deref_cons 46 s'), List.tail_cons]

/-- With room for them, the parts are those of the text, none of them above 255. -/
theorem scanParts_spells (h : Spells s (ns ++ [n]) rest) (free : ℕ) (parts : List UInt32) :
    scanParts free parts s =
      if (∀ m ∈ ns, scanned m ≤ 0xff) ∧ ns.length ≤ free then
        some (parts ++ ns.map scanned, scanned n, rest)
      else
        none := by
  induction ns generalizing s free parts with
  | nil =>
      rw [List.nil_append] at h
      rw [scanParts_last h]
      simp
  | cons m ns ih =>
      rw [List.cons_append] at h
      obtain ⟨s', htail, hs⟩ := scanParts_next h (by simp)
      rw [hs]
      cases free with
      | zero => simp
      | succ free =>
          by_cases hm : scanned m ≤ 0xff
          · have hnot : ¬ scanned m > 0xff := UInt32.not_lt.2 hm
            simp [ih htail, hm, hnot]
          · have hlarge : scanned m > 0xff := UInt32.not_le.1 hm
            simp [hm, hlarge]

/-- What the scanner takes for the parts of an address is spelled in the text. -/
theorem exists_spells {free : ℕ} {parts parts' : List UInt32} {val : UInt32}
    (h : scanParts free parts s = some (parts', val, rest)) (hends : Ends rest) :
    ∃ ns, Spells s ns rest := by
  induction free generalizing parts s with
  | zero =>
      obtain ⟨hscanned, htext⟩ := readNumeral_spec s
      rw [scanParts_eq] at h
      by_cases hdot : deref (readNumeral s).2 = 46
      · rw [if_pos hdot] at h
        exact absurd h (Option.some_ne_none _).symm
      · rw [if_neg hdot] at h
        simp only [Option.some.injEq, Prod.mk.injEq] at h
        rw [← htext, h.2.2]
        exact ⟨_, Spells.single hscanned hends⟩
  | succ free ih =>
      obtain ⟨hscanned, htext⟩ := readNumeral_spec s
      rw [scanParts_eq] at h
      by_cases hdot : deref (readNumeral s).2 = 46
      · rw [if_pos hdot] at h
        by_cases hlarge : scanned (readNumeral s).1 > 0xff
        · simp only [hlarge, if_true] at h
          exact absurd h (Option.some_ne_none _).symm
        · simp only [hlarge, if_false] at h
          obtain ⟨ns, htail⟩ := ih h
          rw [← htext, eq_cons_of_deref hdot (by decide)]
          exact ⟨_, Spells.cons hscanned htail⟩
      · rw [if_neg hdot] at h
        simp only [Option.some.injEq, Prod.mk.injEq] at h
        rw [← htext, h.2.2]
        exact ⟨_, Spells.single hscanned hends⟩

/-- The check for trailing characters. -/
theorem ends_iff : Ends rest ↔
    ¬ (deref rest ≠ 0 ∧ (¬ isascii (deref rest) ∨ ¬ isspace (deref rest))) := by
  have hascii : isspace (deref rest) → isascii (deref rest) := by
    intro hspace
    have hle := Ends.toNat_le (Or.inr hspace)
    simp only [isascii, decide_eq_true_eq, UInt8.lt_iff_toNat_lt, UInt8.reduceToNat]
    omega
  by_cases hzero : deref rest = 0
  · simp [Ends, hzero]
  · by_cases hspace : isspace (deref rest)
    · simp [Ends, hspace, hascii hspace]
    · simp [Ends, hzero, hspace]

end Parts

/-! ## The address of the numbers -/

/-- The address of one to four parts, `none` when one of them is out of range. -/
def address : List ℕ → Option ℕ
  | [a] => if a ≤ 0xffffffff then some a else none
  | [a, b] => if a ≤ 0xff ∧ b ≤ 0xffffff then some (a * 2 ^ 24 + b) else none
  | [a, b, c] =>
      if a ≤ 0xff ∧ b ≤ 0xff ∧ c ≤ 0xffff then some (a * 2 ^ 24 + b * 2 ^ 16 + c) else none
  | [a, b, c, d] =>
      if a ≤ 0xff ∧ b ≤ 0xff ∧ c ≤ 0xff ∧ d ≤ 0xff then
        some (a * 2 ^ 24 + b * 2 ^ 16 + c * 2 ^ 8 + d)
      else
        none
  | _ => none

/-- What `ipv4_addr_aton` makes of an address, or of its absence. -/
def atonOf : Option ℕ → AtonResult
  | none => atonFail
  | some a => atonStore (UInt32.ofNat a)

section Concoct

variable {a b c val : UInt32}

/-- A part in its place. -/
theorem toNat_shiftLeft_part (ha : a.toNat ≤ 0xff) {k : UInt32} (hk : k.toNat ≤ 24) :
    (a <<< k).toNat = a.toNat <<< k.toNat := by
  have hpow : 2 ^ k.toNat ≤ 2 ^ 24 := Nat.pow_le_pow_right (by decide) hk
  have hprod : a.toNat * 2 ^ k.toNat ≤ 0xff * 2 ^ 24 := Nat.mul_le_mul ha hpow
  rw [UInt32.toNat_shiftLeft, Nat.mod_eq_of_lt (by omega : k.toNat < 32), Nat.shiftLeft_eq]
  exact Nat.mod_eq_of_lt (by omega)

theorem concoct_two (ha : a.toNat ≤ 0xff) (hval : val.toNat ≤ 0xffffff) :
    val ||| (a <<< 24) = UInt32.ofNat (a.toNat * 2 ^ 24 + val.toNat) := by
  have hor : val.toNat ||| a.toNat <<< 24 = val.toNat + a.toNat * 2 ^ 24 :=
    or_shiftLeft (by omega) _
  have hpart : (a <<< 24).toNat = a.toNat <<< 24 := toNat_shiftLeft_part ha (by decide)
  rw [← UInt32.toNat_inj, UInt32.toNat_or, hpart, hor, UInt32.toNat_ofNat']
  omega

theorem concoct_three (ha : a.toNat ≤ 0xff) (hb : b.toNat ≤ 0xff) (hval : val.toNat ≤ 0xffff) :
    val ||| ((a <<< 24) ||| (b <<< 16)) =
      UInt32.ofNat (a.toNat * 2 ^ 24 + b.toNat * 2 ^ 16 + val.toNat) := by
  have hlow : val.toNat ||| b.toNat <<< 16 = val.toNat + b.toNat * 2 ^ 16 :=
    or_shiftLeft (by omega) _
  have hor : val.toNat + b.toNat * 2 ^ 16 ||| a.toNat <<< 24 =
      val.toNat + b.toNat * 2 ^ 16 + a.toNat * 2 ^ 24 := or_shiftLeft (by omega) _
  have hpart : (a <<< 24).toNat = a.toNat <<< 24 := toNat_shiftLeft_part ha (by decide)
  have hpart' : (b <<< 16).toNat = b.toNat <<< 16 := toNat_shiftLeft_part hb (by decide)
  rw [← UInt32.toNat_inj, UInt32.toNat_or, UInt32.toNat_or, hpart, hpart',
    Nat.or_comm (a.toNat <<< 24), ← Nat.or_assoc, hlow, hor, UInt32.toNat_ofNat']
  omega

theorem concoct_four (ha : a.toNat ≤ 0xff) (hb : b.toNat ≤ 0xff) (hc : c.toNat ≤ 0xff)
    (hval : val.toNat ≤ 0xff) :
    val ||| ((a <<< 24) ||| (b <<< 16) ||| (c <<< 8)) =
      UInt32.ofNat (a.toNat * 2 ^ 24 + b.toNat * 2 ^ 16 + c.toNat * 2 ^ 8 + val.toNat) := by
  have hor := or_bytes (by omega : val.toNat < 256) (by omega : c.toNat < 256)
    (by omega : b.toNat < 256) a.toNat
  have hpart : (a <<< 24).toNat = a.toNat <<< 24 := toNat_shiftLeft_part ha (by decide)
  have hpart' : (b <<< 16).toNat = b.toNat <<< 16 := toNat_shiftLeft_part hb (by decide)
  have hpart'' : (c <<< 8).toNat = c.toNat <<< 8 := toNat_shiftLeft_part hc (by decide)
  rw [← UInt32.toNat_inj, UInt32.toNat_or, UInt32.toNat_or, UInt32.toNat_or, hpart, hpart',
    hpart'', Nat.or_comm (a.toNat <<< 24 ||| b.toNat <<< 16), Nat.or_comm (a.toNat <<< 24),
    ← Nat.or_assoc, ← Nat.or_assoc, hor, UInt32.toNat_ofNat']
  omega

theorem concoct_eq {parts : List UInt32} (h : ∀ a ∈ parts, a ≤ 0xff) (hlen : parts.length ≤ 3)
    (val : UInt32) :
    concoct parts val = atonOf (address (parts.map UInt32.toNat ++ [val.toNat])) := by
  have hpart : ∀ a ∈ parts, a.toNat ≤ 0xff := fun a ha => UInt32.le_iff_toNat_le.1 (h a ha)
  match parts with
  | [] =>
      have hval : val.toNat ≤ 0xffffffff := Nat.le_of_lt_succ val.toNat_lt
      simp [concoct, address, atonOf, hval]
  | [a] =>
      have ha : a.toNat ≤ 0xff := hpart a (by simp)
      by_cases hval : val.toNat ≤ 0xffffff
      · have hnot : ¬ val > 0xffffff := UInt32.not_lt.2 (UInt32.le_iff_toNat_le.2 hval)
        simp [concoct, address, atonOf, ha, hval, hnot, concoct_two ha hval]
      · have hlarge : val > 0xffffff := UInt32.lt_iff_toNat_lt.2 (Nat.not_le.1 hval)
        simp [concoct, address, atonOf, hval, hlarge]
  | [a, b] =>
      have ha : a.toNat ≤ 0xff := hpart a (by simp)
      have hb : b.toNat ≤ 0xff := hpart b (by simp)
      by_cases hval : val.toNat ≤ 0xffff
      · have hnot : ¬ val > 0xffff := UInt32.not_lt.2 (UInt32.le_iff_toNat_le.2 hval)
        simp [concoct, address, atonOf, ha, hb, hval, hnot, concoct_three ha hb hval]
      · have hlarge : val > 0xffff := UInt32.lt_iff_toNat_lt.2 (Nat.not_le.1 hval)
        simp [concoct, address, atonOf, hval, hlarge]
  | [a, b, c] =>
      have ha : a.toNat ≤ 0xff := hpart a (by simp)
      have hb : b.toNat ≤ 0xff := hpart b (by simp)
      have hc : c.toNat ≤ 0xff := hpart c (by simp)
      by_cases hval : val.toNat ≤ 0xff
      · have hnot : ¬ val > 0xff := UInt32.not_lt.2 (UInt32.le_iff_toNat_le.2 hval)
        simp [concoct, address, atonOf, ha, hb, hc, hval, hnot, concoct_four ha hb hc hval]
      · have hlarge : val > 0xff := UInt32.lt_iff_toNat_lt.2 (Nat.not_le.1 hval)
        simp [concoct, address, atonOf, hval, hlarge]
  | a :: b :: c :: d :: parts =>
      simp only [List.length_cons] at hlen
      omega

/-- An address has at most four parts, and none before the last is above 255. -/
theorem address_append_eq_none {vs : List ℕ} (v : ℕ)
    (h : ¬ ((∀ a ∈ vs, a ≤ 0xff) ∧ vs.length ≤ 3)) : address (vs ++ [v]) = none := by
  match vs with
  | [] => exact absurd ⟨by simp, by simp⟩ h
  | [a] =>
      have ha : ¬ a ≤ 0xff := by simpa using h
      simp [address, ha]
  | [a, b] =>
      have hab : ¬ (a ≤ 0xff ∧ b ≤ 0xff) := by simpa using h
      have hnot : ¬ (a ≤ 0xff ∧ b ≤ 0xff ∧ v ≤ 0xffff) := fun hall => hab ⟨hall.1, hall.2.1⟩
      exact if_neg hnot
  | [a, b, c] =>
      have habc : ¬ (a ≤ 0xff ∧ b ≤ 0xff ∧ c ≤ 0xff) := by simpa using h
      have hnot : ¬ (a ≤ 0xff ∧ b ≤ 0xff ∧ c ≤ 0xff ∧ v ≤ 0xff) :=
        fun hall => habc ⟨hall.1, hall.2.1, hall.2.2.1⟩
      exact if_neg hnot
  | a :: b :: c :: d :: vs =>
      have hfive : ∃ e rest, vs ++ [v] = e :: rest := by
        cases vs with
        | nil => exact ⟨v, [], rfl⟩
        | cons e vs => exact ⟨e, vs ++ [v], rfl⟩
      obtain ⟨e, rest, hrest⟩ := hfive
      simp only [List.cons_append, hrest]
      rfl

end Concoct

section Aton

variable {s rest : List UInt8} {ns : List Numeral}

/-- Without numerals that spell the text, it is refused. -/
theorem ipv4AddrAton_of_not_spells (h : ∀ ns rest, ¬ Spells s ns rest) :
    ipv4AddrAton s = atonFail := by
  rw [ipv4AddrAton]
  cases hscan : scanParts 3 [] s with
  | none => rfl
  | some r =>
      obtain ⟨parts, val, rest⟩ := r
      by_cases hends : Ends rest
      · obtain ⟨ns, hspells⟩ := exists_spells hscan hends
        exact absurd hspells (h ns rest)
      · rw [ends_iff, not_not] at hends
        exact if_pos hends

/-- The address is that of the values after they have wrapped around. -/
theorem ipv4AddrAton_of_spells (h : Spells s ns rest) :
    ipv4AddrAton s = atonOf (address (ns.map fun n => (scanned n).toNat)) := by
  obtain ⟨parts, n, rfl⟩ : ∃ parts n, ns = parts ++ [n] :=
    ⟨ns.dropLast, ns.getLast h.nonempty, (List.dropLast_append_getLast h.nonempty).symm⟩
  rw [ipv4AddrAton, scanParts_spells h, List.map_append]
  by_cases hfits : (∀ m ∈ parts, scanned m ≤ 0xff) ∧ parts.length ≤ 3
  · rw [if_pos hfits]
    have hparts : ∀ a ∈ parts.map scanned, a ≤ 0xff := by
      intro a ha
      obtain ⟨m, hm, rfl⟩ := List.mem_map.1 ha
      exact hfits.1 m hm
    have hlen : (parts.map scanned).length ≤ 3 := by
      rw [List.length_map]
      exact hfits.2
    simp only [if_neg (ends_iff.1 h.ends), List.nil_append, concoct_eq hparts hlen,
      List.map_map]
    rfl
  · have hrange : ¬ ((∀ a ∈ parts.map fun m => (scanned m).toNat, a ≤ 0xff) ∧
        (parts.map fun m => (scanned m).toNat).length ≤ 3) := by
      intro h
      apply hfits
      constructor
      · intro m hm
        exact UInt32.le_iff_toNat_le.2 (h.1 _ (List.mem_map_of_mem hm))
      · have hlen := h.2
        rwa [List.length_map] at hlen
    rw [if_neg hfits, List.map_singleton, address_append_eq_none _ hrange]
    rfl

end Aton

end Common

end EspHosted
