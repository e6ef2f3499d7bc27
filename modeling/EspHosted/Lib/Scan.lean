import EspHosted.Lib.Numeral

/-!
# Hexadecimal input of `sscanf`

A conversion skips white space and takes the longest text, of a given width at most, that
is a number or the start of one: a sign, `0x` and digits. If what it took is not a number,
the conversion fails. `scanHex` is such a conversion and `scanFields` a row of them with a
character between each two.

In a width of two characters a number is two digits, one digit, or a sign and a digit. A
`Group` is such a number with the white space before it, and `Spelled` are the texts that
groups make up.
-/

namespace EspHosted

namespace Bytes

/-! ## The conversion -/

def isSign (c : UInt8) : Bool := c = 43 || c = 45

def dropSign (item : List UInt8) : List UInt8 :=
  if isSign (deref item) then item.tail else item

/-- What stands behind the sign and `0x`. -/
def hexDigits (item : List UInt8) : List UInt8 :=
  if deref (dropSign item) = 48 ∧
      (deref (dropSign item).tail = 120 ∨ deref (dropSign item).tail = 88) then
    (dropSign item).tail.tail
  else
    dropSign item

/-- The text is a number or the start of one. -/
def startsNumber (item : List UInt8) : Bool := (hexDigits item).all isxdigit

/-- The longest such text at the start of `s`, of at most `width` characters. -/
def inputItem : (width : ℕ) → (s : List UInt8) → List UInt8
  | 0, _ => []
  | width + 1, s =>
      if startsNumber (s.take (width + 1)) then s.take (width + 1) else inputItem width s

/-- The number in the text, if it is one. -/
def hexNumber (item : List UInt8) : Option ℤ :=
  if hexDigits item = [] then none
  else if deref item = 45 then some (-(valueFrom 16 0 (hexDigits item) : ℤ))
  else some (valueFrom 16 0 (hexDigits item))

/-- A conversion without the white space: the number, and what stands behind it. -/
def scanItem (width : ℕ) (s : List UInt8) : Option (ℤ × List UInt8) :=
  (hexNumber (inputItem width s)).map fun v => (v, s.drop (inputItem width s).length)

/-- `%x` with a width, in which the number must not overflow. -/
def scanHex (width : ℕ) (s : List UInt8) : Option (ℤ × List UInt8) :=
  scanItem width (s.dropWhile isspace)

/-- `n + 1` conversions with the character `sep` between them; the numbers up to the first
failure. -/
def scanFields (width : ℕ) (sep : UInt8) : (n : ℕ) → (s : List UInt8) → List ℤ
  | 0, s =>
      match scanHex width s with
      | none => []
      | some (v, _) => [v]
  | n + 1, s =>
      match scanHex width s with
      | none => []
      | some (v, []) => [v]
      | some (v, c :: s) => if c = sep then v :: scanFields width sep n s else [v]

/-! ## Two characters -/

abbrev HexDigit := { c : UInt8 // isxdigit c = true }

/-- A number of at most two characters. -/
inductive Body where
  | pair (h l : HexDigit)
  | single (d : HexDigit)
  | signed (minus : Bool) (d : HexDigit)

namespace Body

def text : Body → List UInt8
  | .pair h l => [h.1, l.1]
  | .single d => [d.1]
  | .signed minus d => [if minus then 45 else 43, d.1]

def value : Body → ℤ
  | .pair h l => (digitValue h.1 * 16 + digitValue l.1 : ℕ)
  | .single d => digitValue d.1
  | .signed minus d => if minus then -(digitValue d.1 : ℤ) else digitValue d.1

/-- A single digit does not go on, neither with a digit nor to `0x`. -/
def Ends : Body → List UInt8 → Prop
  | .single d, rest =>
      isxdigit (deref rest) = false ∧
        ¬ (d.1 = 48 ∧ (deref rest = 120 ∨ deref rest = 88))
  | _, _ => True

end Body

structure Group where
  pad : List UInt8
  body : Body
  blank : ∀ c ∈ pad, isspace c = true

namespace Group

def text (g : Group) : List UInt8 := g.pad ++ g.body.text

def value (g : Group) : ℤ := g.body.value

/-- Two digits and nothing before them. -/
def plain (d : HexDigit × HexDigit) : Group where
  pad := []
  body := .pair d.1 d.2
  blank := fun _ h => absurd h List.not_mem_nil

def Plain (g : Group) : Prop := ∃ d, g = plain d

end Group

/-- The text starts with the groups, with `sep` between them. -/
inductive Spelled (sep : UInt8) : List UInt8 → List Group → Prop
  | last (g : Group) {rest : List UInt8} (hends : g.body.Ends rest) :
      Spelled sep (g.text ++ rest) [g]
  | cons (g : Group) {s : List UInt8} {gs : List Group} (hends : g.body.Ends (sep :: s))
      (hs : Spelled sep s gs) : Spelled sep (g.text ++ sep :: s) (g :: gs)

section Item

variable {c d : UInt8} {rest : List UInt8}

theorem toNat_of_isxdigit (h : isxdigit c = true) :
    (48 ≤ c.toNat ∧ c.toNat ≤ 57) ∨ (97 ≤ c.toNat ∧ c.toNat ≤ 102) ∨
      (65 ≤ c.toNat ∧ c.toNat ≤ 70) := by
  simpa [isxdigit, isdigit, UInt8.le_iff_toNat_le, or_assoc] using h

theorem ne_of_isxdigit (h : isxdigit c = true) (hd : isxdigit d = false) : c ≠ d := by
  rintro rfl
  rw [h] at hd
  cases hd

theorem not_isSign_of_isxdigit (h : isxdigit c = true) : isSign c = false := by
  rw [isSign, decide_eq_false (ne_of_isxdigit h rfl), decide_eq_false (ne_of_isxdigit h rfl)]
  rfl

theorem not_isspace_of_isxdigit (h : isxdigit c = true) : isspace c = false := by
  have hrange := toNat_of_isxdigit h
  by_contra hspace
  rw [Bool.not_eq_false] at hspace
  simp only [isspace, Bool.or_eq_true, Bool.and_eq_true, decide_eq_true_eq,
    UInt8.le_iff_toNat_le, ← UInt8.toNat_inj, UInt8.reduceToNat] at hspace
  omega

theorem of_isSign (h : isSign c = true) : c = 43 ∨ c = 45 := by
  simpa [isSign] using h

theorem not_radix_of_isxdigit (h : isxdigit c = true) : ¬ (c = 120 ∨ c = 88) := by
  rintro (rfl | rfl)
  · cases h
  · cases h

/-- The end of the text is no `x`. -/
theorem not_radix_nil {P : Prop} : ¬ (P ∧ (deref [] = 120 ∨ deref [] = 88)) := by
  rintro ⟨-, h | h⟩
  · cases h
  · cases h

theorem hexDigits_of_not_isSign (h : isSign c = false) (cs : List UInt8) :
    hexDigits (c :: cs) =
      if c = 48 ∧ (deref cs = 120 ∨ deref cs = 88) then cs.tail else c :: cs := by
  have hsign : dropSign (c :: cs) = c :: cs := by
    rw [dropSign, deref_cons, h]
    rfl
  rw [hexDigits, hsign]
  rfl

theorem hexDigits_of_isSign (h : isSign c = true) (cs : List UInt8) :
    hexDigits (c :: cs) =
      if deref cs = 48 ∧ (deref cs.tail = 120 ∨ deref cs.tail = 88) then cs.tail.tail else cs := by
  have hsign : dropSign (c :: cs) = cs := by
    rw [dropSign, deref_cons, h]
    rfl
  rw [hexDigits, hsign]

/-- Two digits. -/
theorem scanItem_pair (hc : isxdigit c = true) (hd : isxdigit d = true) :
    scanItem 2 (c :: d :: rest) = some (((digitValue c * 16 + digitValue d : ℕ) : ℤ), rest) := by
  have hdigits : hexDigits [c, d] = [c, d] := by
    rw [hexDigits_of_not_isSign (not_isSign_of_isxdigit hc)]
    exact if_neg fun h => not_radix_of_isxdigit hd h.2
  have hitem : inputItem 2 (c :: d :: rest) = [c, d] := by
    refine if_pos ?_
    change (hexDigits [c, d]).all isxdigit = true
    rw [hdigits, List.all_cons, List.all_cons, hc, hd]
    rfl
  have hminus : deref [c, d] ≠ 45 := ne_of_isxdigit hc rfl
  rw [scanItem, hitem, hexNumber, hdigits, if_neg (List.cons_ne_nil _ _), if_neg hminus]
  simp [valueFrom]

/-- A digit behind which the number does not go on. -/
theorem scanItem_single (hc : isxdigit c = true)
    (hends : (Body.single ⟨c, hc⟩).Ends rest) :
    scanItem 2 (c :: rest) = some ((digitValue c : ℤ), rest) := by
  have hsign := not_isSign_of_isxdigit hc
  have hdigits : hexDigits [c] = [c] := by
    rw [hexDigits_of_not_isSign hsign]
    exact if_neg not_radix_nil
  have hone : startsNumber [c] = true := by
    rw [startsNumber, hdigits, List.all_cons, hc]
    rfl
  have hitem : inputItem 2 (c :: rest) = [c] := by
    cases rest with
    | nil => exact if_pos hone
    | cons d rest =>
        have htwo : ¬ startsNumber [c, d] = true := by
          have hgoes : ¬ (c = 48 ∧ (deref [d] = 120 ∨ deref [d] = 88)) := hends.2
          have hnot : isxdigit d = false := hends.1
          rw [startsNumber, hexDigits_of_not_isSign hsign, if_neg hgoes, List.all_cons,
            List.all_cons, hnot, Bool.false_and, Bool.and_false]
          exact Bool.false_ne_true
        exact (if_neg htwo).trans (if_pos hone)
  have hminus : deref [c] ≠ 45 := ne_of_isxdigit hc rfl
  rw [scanItem, hitem, hexNumber, hdigits, if_neg (List.cons_ne_nil _ _), if_neg hminus]
  simp [valueFrom]

/-- A sign and a digit. -/
theorem scanItem_signed (minus : Bool) (hd : isxdigit d = true) :
    scanItem 2 ((if minus then 45 else 43) :: d :: rest) =
      some (if minus then -(digitValue d : ℤ) else digitValue d, rest) := by
  have hsign : isSign (if minus then 45 else 43) = true := by
    cases minus <;> rfl
  have hdigits : hexDigits [if minus then 45 else 43, d] = [d] := by
    rw [hexDigits_of_isSign hsign]
    exact if_neg not_radix_nil
  have hitem : inputItem 2 ((if minus then 45 else 43) :: d :: rest) =
      [if minus then 45 else 43, d] := by
    refine if_pos ?_
    change (hexDigits [if minus then 45 else 43, d]).all isxdigit = true
    rw [hdigits, List.all_cons, hd]
    rfl
  rw [scanItem, hitem, hexNumber, hdigits, if_neg (List.cons_ne_nil _ _)]
  cases minus with
  | true => simp [valueFrom]
  | false => simp [valueFrom]

/-- A sign without a digit is no number. -/
theorem scanItem_sign (hc : isSign c = true) (hrest : isxdigit (deref rest) = false) :
    scanItem 2 (c :: rest) = none := by
  have hdigits : hexDigits [c] = [] := by
    rw [hexDigits_of_isSign hc]
    rfl
  have hone : startsNumber [c] = true := by
    rw [startsNumber, hdigits]
    rfl
  have hitem : inputItem 2 (c :: rest) = [c] := by
    cases rest with
    | nil => exact if_pos hone
    | cons d rest =>
        have htwo : ¬ startsNumber [c, d] = true := by
          have hnot : isxdigit d = false := hrest
          have hgoes : ¬ (deref [d] = 48 ∧ (deref [d].tail = 120 ∨ deref [d].tail = 88)) :=
            not_radix_nil
          rw [startsNumber, hexDigits_of_isSign hc, if_neg hgoes, List.all_cons, hnot,
            Bool.false_and]
          exact Bool.false_ne_true
        exact (if_neg htwo).trans (if_pos hone)
  rw [scanItem, hitem, hexNumber, hdigits, if_pos rfl]
  rfl

/-- `0x` without digits is none. -/
theorem scanItem_radix (hd : d = 120 ∨ d = 88) : scanItem 2 (48 :: d :: rest) = none := by
  have hdigits : hexDigits [48, d] = [] := by
    rw [hexDigits_of_not_isSign rfl]
    exact if_pos ⟨rfl, hd⟩
  have hitem : inputItem 2 (48 :: d :: rest) = [48, d] := by
    refine if_pos ?_
    change (hexDigits [48, d]).all isxdigit = true
    rw [hdigits]
    rfl
  rw [scanItem, hitem, hexNumber, hdigits, if_pos rfl]
  rfl

/-- Nothing else starts a number. -/
theorem scanItem_of_not_isxdigit (hsign : isSign c = false) (hc : isxdigit c = false) :
    scanItem 2 (c :: rest) = none := by
  have hnot : ∀ cs, ¬ startsNumber (c :: cs) = true := by
    intro cs
    have hzero : c ≠ 48 := by
      rintro rfl
      cases hc
    rw [startsNumber, hexDigits_of_not_isSign hsign, if_neg fun h => hzero h.1, List.all_cons,
      hc, Bool.false_and]
    exact Bool.false_ne_true
  have hitem : inputItem 2 (c :: rest) = [] := (if_neg (hnot _)).trans (if_neg (hnot _))
  rw [scanItem, hitem]
  rfl

end Item

namespace Body

variable {s rest : List UInt8}

theorem scanItem_text {b : Body} (hends : b.Ends rest) :
    scanItem 2 (b.text ++ rest) = some (b.value, rest) := by
  cases b with
  | pair h l => exact scanItem_pair h.2 l.2
  | single d => exact scanItem_single d.2 hends
  | signed minus d => exact scanItem_signed minus d.2

/-- A conversion in two characters reads one of the three bodies. -/
theorem exists_of_scanItem {v : ℤ} (h : scanItem 2 s = some (v, rest)) :
    ∃ b : Body, s = b.text ++ rest ∧ b.Ends rest ∧ v = b.value := by
  have hread : ∀ (b : Body) (t : List UInt8), s = b.text ++ t → b.Ends t →
      ∃ b : Body, s = b.text ++ rest ∧ b.Ends rest ∧ v = b.value := by
    intro b t hs hends
    rw [hs, scanItem_text hends] at h
    cases h
    exact ⟨b, hs, hends, rfl⟩
  cases s with
  | nil => cases h
  | cons c t =>
      cases hc : isxdigit c with
      | true =>
          cases hd : isxdigit (deref t) with
          | true =>
              cases t with
              | nil => cases hd
              | cons d t => exact hread (.pair ⟨c, hc⟩ ⟨d, hd⟩) t rfl trivial
          | false =>
              by_cases hradix : c = 48 ∧ (deref t = 120 ∨ deref t = 88)
              · obtain ⟨rfl, hd'⟩ := hradix
                cases t with
                | nil =>
                    rcases hd' with hd' | hd'
                    · cases hd'
                    · cases hd'
                | cons d t =>
                    rw [deref_cons] at hd'
                    rw [scanItem_radix hd'] at h
                    cases h
              · exact hread (.single ⟨c, hc⟩) t rfl ⟨hd, hradix⟩
      | false =>
          cases hsign : isSign c with
          | true =>
              cases hd : isxdigit (deref t) with
              | true =>
                  cases t with
                  | nil => cases hd
                  | cons d t =>
                      rcases of_isSign hsign with rfl | rfl
                      · exact hread (.signed false ⟨d, hd⟩) t rfl trivial
                      · exact hread (.signed true ⟨d, hd⟩) t rfl trivial
              | false =>
                  rw [scanItem_sign hsign hd] at h
                  cases h
          | false =>
              rw [scanItem_of_not_isxdigit hsign hc] at h
              cases h

end Body

section Fields

variable {sep : UInt8} {s rest : List UInt8} {gs : List Group}

theorem Body.deref_text (b : Body) : isspace (deref b.text) = false := by
  cases b with
  | pair h l => exact not_isspace_of_isxdigit h.2
  | single d => exact not_isspace_of_isxdigit d.2
  | signed minus d =>
      cases minus with
      | true => rfl
      | false => rfl

namespace Group

theorem dropWhile_text (g : Group) (rest : List UInt8) :
    (g.text ++ rest).dropWhile isspace = g.body.text ++ rest := by
  have hbody : (g.body.text ++ rest).dropWhile isspace = g.body.text ++ rest := by
    have hspace := g.body.deref_text
    cases hb : g.body with
    | pair h l =>
        rw [hb] at hspace
        exact List.dropWhile_cons_of_neg (Bool.not_eq_true _ ▸ hspace)
    | single d =>
        rw [hb] at hspace
        exact List.dropWhile_cons_of_neg (Bool.not_eq_true _ ▸ hspace)
    | signed minus d =>
        rw [hb] at hspace
        exact List.dropWhile_cons_of_neg (Bool.not_eq_true _ ▸ hspace)
  rw [text, List.append_assoc, List.dropWhile_append_of_pos g.blank, hbody]

theorem scanHex_text {g : Group} (hends : g.body.Ends rest) :
    scanHex 2 (g.text ++ rest) = some (g.value, rest) := by
  rw [scanHex, dropWhile_text, Body.scanItem_text hends]
  rfl

/-- A conversion reads a group. -/
theorem exists_of_scanHex {v : ℤ} (h : scanHex 2 s = some (v, rest)) :
    ∃ g : Group, s = g.text ++ rest ∧ g.body.Ends rest ∧ v = g.value := by
  obtain ⟨b, hs, hends, hv⟩ := Body.exists_of_scanItem h
  refine ⟨⟨s.takeWhile isspace, b, fun c hc => List.mem_takeWhile_imp hc⟩, ?_, hends, hv⟩
  rw [text, List.append_assoc, ← hs]
  exact List.takeWhile_append_dropWhile.symm

/-- Two digits are read as they stand. -/
theorem eq_plain {d : HexDigit × HexDigit} {tail : List UInt8} {g : Group}
    (h : d.1.1 :: d.2.1 :: tail = g.text ++ rest) (hends : g.body.Ends rest) :
    g = plain d ∧ tail = rest := by
  obtain ⟨pad, body, blank⟩ := g
  cases pad with
  | cons c pad =>
      have hfirst : d.1.1 = c := (List.cons.inj h).1
      have hspace := blank c List.mem_cons_self
      rw [← hfirst, not_isspace_of_isxdigit d.1.2] at hspace
      cases hspace
  | nil =>
      cases body with
      | pair a b =>
          obtain ⟨a, ha⟩ := a
          obtain ⟨b, hb⟩ := b
          obtain ⟨⟨c, hc⟩, ⟨e, he⟩⟩ := d
          cases h
          exact ⟨rfl, rfl⟩
      | single a =>
          have hrest : d.2.1 :: tail = rest := (List.cons.inj h).2
          have hnot : isxdigit (deref rest) = false := hends.1
          rw [← hrest, deref_cons, d.2.2] at hnot
          cases hnot
      | signed minus a =>
          have hfirst : d.1.1 = if minus then 45 else 43 := (List.cons.inj h).1
          have hdigit := d.1.2
          rw [hfirst] at hdigit
          cases minus with
          | true => cases hdigit
          | false => cases hdigit

end Group

/-- The numbers of a text that groups spell. -/
theorem scanFields_of_spelled (h : Spelled sep s gs) {n : ℕ} (hn : gs.length = n + 1) :
    scanFields 2 sep n s = gs.map Group.value := by
  induction h generalizing n with
  | last g hends =>
      cases hn
      rw [scanFields, Group.scanHex_text hends]
      rfl
  | @cons g s gs hends hs ih =>
      cases n with
      | zero =>
          cases hs with
          | last g' hends' => cases hn
          | cons g' hends' hs' => cases hn
      | succ n =>
          rw [scanFields, Group.scanHex_text hends]
          simp only [if_true]
          rw [ih (Nat.succ.inj hn), List.map_cons]

theorem length_scanFields_le (width n : ℕ) (s : List UInt8) :
    (scanFields width sep n s).length ≤ n + 1 := by
  induction n generalizing s with
  | zero =>
      rw [scanFields]
      split
      · exact Nat.zero_le _
      · exact Nat.le_refl _
  | succ n ih =>
      rw [scanFields]
      split
      · exact Nat.zero_le _
      · exact Nat.succ_le_succ (Nat.zero_le _)
      · split
        · exact Nat.succ_le_succ (ih _)
        · exact Nat.succ_le_succ (Nat.zero_le _)

/-- Where no conversion fails, there are groups. -/
theorem exists_spelled {n : ℕ} (h : (scanFields 2 sep n s).length = n + 1) :
    ∃ gs, gs.length = n + 1 ∧ Spelled sep s gs := by
  induction n generalizing s with
  | zero =>
      rw [scanFields] at h
      cases hscan : scanHex 2 s with
      | none =>
          rw [hscan] at h
          cases h
      | some r =>
          obtain ⟨g, hs, hends, -⟩ := Group.exists_of_scanHex hscan
          rw [hs]
          exact ⟨[g], rfl, Spelled.last g hends⟩
  | succ n ih =>
      rw [scanFields] at h
      cases hscan : scanHex 2 s with
      | none =>
          rw [hscan] at h
          cases h
      | some r =>
          obtain ⟨v, rest⟩ := r
          obtain ⟨g, hs, hends, -⟩ := Group.exists_of_scanHex hscan
          rw [hscan] at h
          cases rest with
          | nil => cases h
          | cons c rest =>
              by_cases hc : c = sep
              · simp only [hc, if_true, List.length_cons] at h
                obtain ⟨gs, hlen, hspelled⟩ := ih (Nat.succ.inj h)
                rw [hc] at hs hends
                rw [hs]
                exact ⟨g :: gs, by rw [List.length_cons, hlen], Spelled.cons g hends hspelled⟩
              · simp only [hc, if_false] at h
                cases h

/-- Pairs of digits with `sep` between them. -/
def pairsText (sep : UInt8) (ds : List (HexDigit × HexDigit)) : List UInt8 :=
  List.intercalate [sep] (ds.map fun d => [d.1.1, d.2.1])

theorem pairsText_cons (d d' : HexDigit × HexDigit) (ds : List (HexDigit × HexDigit)) :
    pairsText sep (d :: d' :: ds) = d.1.1 :: d.2.1 :: sep :: pairsText sep (d' :: ds) := rfl

theorem length_pairsText (d : HexDigit × HexDigit) (ds : List (HexDigit × HexDigit)) :
    (pairsText sep (d :: ds)).length = 3 * ds.length + 2 := by
  induction ds generalizing d with
  | nil => rfl
  | cons d' ds ih =>
      rw [pairsText_cons, List.length_cons, List.length_cons, List.length_cons, ih,
        List.length_cons]
      omega

/-- Pairs of digits are spelled by plain groups. -/
theorem spelled_pairsText {ds : List (HexDigit × HexDigit)} (hds : ds ≠ [])
    (h : pairsText sep ds <+: s) : Spelled sep s (ds.map Group.plain) := by
  obtain ⟨rest, rfl⟩ := h
  induction ds with
  | nil => exact absurd rfl hds
  | cons d ds ih =>
      cases ds with
      | nil => exact Spelled.last (Group.plain d) trivial
      | cons d' ds => exact Spelled.cons (Group.plain d) trivial (ih (List.cons_ne_nil _ _))

theorem pairsText_prefix {ds : List (HexDigit × HexDigit)} (h : Spelled sep s gs)
    (hgs : gs = ds.map Group.plain) : pairsText sep ds <+: s := by
  induction h generalizing ds with
  | last g hends =>
      obtain ⟨d, rfl, hd⟩ := List.map_eq_singleton_iff.1 hgs.symm
      rw [← hd]
      exact List.prefix_append _ _
  | @cons g s gs hends hs ih =>
      obtain ⟨d, ds, rfl, hd, hds⟩ := List.map_eq_cons_iff.1 hgs.symm
      obtain ⟨t, ht⟩ := ih hds.symm
      cases ds with
      | nil =>
          rw [← hds] at hs
          cases hs
      | cons d' ds =>
          rw [pairsText_cons, ← hd, ← ht]
          exact List.prefix_append _ t

/-- They are spelled by no other groups. -/
theorem eq_plain_of_spelled {ds : List (HexDigit × HexDigit)} (h : Spelled sep s gs)
    (hds : pairsText sep ds <+: s) (hlen : gs.length = ds.length) :
    gs = ds.map Group.plain := by
  induction h generalizing ds with
  | last g hends =>
      obtain ⟨d, rfl⟩ := List.length_eq_one_iff.1 hlen.symm
      obtain ⟨t, ht⟩ := hds
      rw [(Group.eq_plain ht hends).1]
      rfl
  | @cons g s gs hends hs ih =>
      obtain ⟨t, ht⟩ := hds
      match ds, hlen with
      | [d], hlen =>
          rw [List.length_eq_zero_iff.1 (Nat.succ.inj hlen)] at hs
          cases hs
      | d :: d' :: ds, hlen =>
          rw [pairsText_cons] at ht
          obtain ⟨hd, htail⟩ := Group.eq_plain ht hends
          have hrest : pairsText sep (d' :: ds) ++ t = s := (List.cons.inj htail).2
          rw [hd, ih ⟨t, hrest⟩ (Nat.succ.inj hlen)]
          rfl

end Fields

end Bytes

end EspHosted
