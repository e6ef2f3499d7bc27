import EspHosted.Driver.Adapter
import EspHosted.Lib.Scan
import Mathlib.Data.Set.List

/-!
# Parsing MAC addresses

`convert_mac_to_bytes` is a length check and one `sscanf`. `Address` are the strings that
start with a MAC address. `Misread` are those in which a number has white space or a sign
before its digit, or is a single digit, and which are long enough all the same.
-/

namespace EspHosted

namespace Common

namespace Mac

open EspHosted.Bytes

/-- `MAC_LEN` -/
def macLen : ℕ := 6

/-- `MIN_MAC_STRING_LEN` -/
def minMacStringLen : ℕ := 17

/-- `convert_mac_to_bytes`: what it returns, and `out` afterwards. A number that is not
converted stays `0`. -/
def convertMacToBytes (out : List UInt8) (s : Option (List UInt8)) : StmRet × List UInt8 :=
  match s with
  | none => (.STM_FAIL, out)
  | some s =>
      if s.length < minMacStringLen then
        (.STM_FAIL, out)
      else
        let mac := scanFields 2 58 5 s
        if mac.length < macLen ∨ ∃ x ∈ mac, x > 0xff then
          (.STM_FAIL, out)
        else
          (.STM_OK, mac.map UInt8.ofInt ++ out.drop macLen)

/-- The byte that two digits stand for. -/
def byte (d : HexDigit × HexDigit) : UInt8 :=
  UInt8.ofNat (digitValue d.1.1 * 16 + digitValue d.2.1)

/-- `s` starts with six groups of two hexadecimal digits, with colons between them. -/
def Address (s mac : List UInt8) : Prop :=
  ∃ ds, ds.length = macLen ∧ pairsText 58 ds <+: s ∧ mac = ds.map byte

/-- An address is accepted and stored, and no other string is. -/
structure Exact (s : List UInt8) : Prop where
  accepts : ∀ out, (convertMacToBytes out (some s)).1 = .STM_OK ↔ ∃ mac, Address s mac
  stores : ∀ out mac, Address s mac → (convertMacToBytes out (some s)).2 = mac ++ out.drop macLen
  keeps : ∀ out, (convertMacToBytes out (some s)).1 = .STM_FAIL →
    (convertMacToBytes out (some s)).2 = out

/-- The string has the length of an address and starts with six numbers of at most two
characters, and one of them is not just two digits. -/
def Misread (s : List UInt8) : Prop :=
  minMacStringLen ≤ s.length ∧ ∃ gs, gs.length = macLen ∧ Spelled 58 s gs ∧ ∃ g ∈ gs, ¬ g.Plain

section Convert

variable {s : List UInt8}

theorem digitValue_lt {c : UInt8} (h : isxdigit c = true) : digitValue c < 16 := by
  have hrange := toNat_of_isxdigit h
  rw [digitValue]
  split
  · rename_i hdigit
    simp only [isdigit, Bool.and_eq_true, decide_eq_true_eq, UInt8.le_iff_toNat_le,
      UInt8.reduceToNat] at hdigit
    omega
  · split
    · omega
    · rename_i hlower
      simp only [islower, Bool.and_eq_true, decide_eq_true_eq, UInt8.le_iff_toNat_le,
        UInt8.reduceToNat] at hlower
      omega

/-- No number of two characters is out of range. -/
theorem value_le (g : Group) : g.value ≤ 0xff := by
  rw [Group.value]
  cases g.body with
  | pair h l =>
      have hh := digitValue_lt h.2
      have hl := digitValue_lt l.2
      rw [Body.value]
      omega
  | single d =>
      have hd := digitValue_lt d.2
      rw [Body.value]
      omega
  | signed minus d =>
      have hd := digitValue_lt d.2
      rw [Body.value]
      split
      · omega
      · omega

/-- The strings that are accepted. -/
theorem convertMacToBytes_of_spelled {gs : List Group} (hlen : minMacStringLen ≤ s.length)
    (hgs : gs.length = macLen) (h : Spelled 58 s gs) (out : List UInt8) :
    convertMacToBytes out (some s) =
      (.STM_OK, (gs.map Group.value).map UInt8.ofInt ++ out.drop macLen) := by
  have hscan : scanFields 2 58 5 s = gs.map Group.value := scanFields_of_spelled h hgs
  have hrange : ¬ ((gs.map Group.value).length < macLen ∨
      ∃ x ∈ gs.map Group.value, x > 0xff) := by
    rintro (hshort | ⟨x, hx, hlarge⟩)
    · rw [List.length_map, hgs] at hshort
      exact absurd hshort (Nat.lt_irrefl _)
    · obtain ⟨g, -, rfl⟩ := List.mem_map.1 hx
      exact absurd hlarge (Int.not_lt.2 (value_le g))
  simp only [convertMacToBytes, if_neg (Nat.not_lt.2 hlen), hscan, if_neg hrange]

/-- All others are refused. -/
theorem convertMacToBytes_of_not_spelled
    (h : ¬ (minMacStringLen ≤ s.length ∧ ∃ gs, gs.length = macLen ∧ Spelled 58 s gs))
    (out : List UInt8) : convertMacToBytes out (some s) = (.STM_FAIL, out) := by
  by_cases hlen : s.length < minMacStringLen
  · simp only [convertMacToBytes, if_pos hlen]
  · have hshort : (scanFields 2 58 5 s).length < macLen := by
      refine Nat.lt_of_le_of_ne (length_scanFields_le 2 5 s) fun hall => ?_
      exact h ⟨Nat.not_lt.1 hlen, exists_spelled hall⟩
    simp only [convertMacToBytes, if_neg hlen, if_pos (Or.inl hshort)]

theorem ofInt_natCast (n : ℕ) : UInt8.ofInt n = UInt8.ofNat n := by
  rw [UInt8.ofInt, ← UInt8.toNat_inj, UInt8.toNat_ofNat', UInt8.toNat_ofNat']
  omega

/-- An address is spelled by plain groups alone. -/
theorem plain_of_address {mac : List UInt8} {gs : List Group} (haddress : Address s mac)
    (hgs : gs.length = macLen) (h : Spelled 58 s gs) :
    mac = (gs.map Group.value).map UInt8.ofInt ∧ ∀ g ∈ gs, g.Plain := by
  obtain ⟨ds, hds, hpairs, rfl⟩ := haddress
  rw [eq_plain_of_spelled h hpairs (hgs.trans hds.symm)]
  constructor
  · rw [List.map_map, List.map_map]
    exact List.map_congr_left fun d _ => (ofInt_natCast _).symm
  · intro g hg
    obtain ⟨d, -, rfl⟩ := List.mem_map.1 hg
    exact ⟨d, rfl⟩

theorem address_of_plain {gs : List Group} (hgs : gs.length = macLen) (h : Spelled 58 s gs)
    (hplain : ∀ g ∈ gs, g.Plain) : ∃ mac, Address s mac := by
  have hrange : gs ∈ Set.range (List.map Group.plain) := by
    rw [Set.range_list_map]
    intro g hg
    obtain ⟨d, rfl⟩ := hplain g hg
    exact ⟨d, rfl⟩
  obtain ⟨ds, rfl⟩ := hrange
  exact ⟨_, ds, (List.length_map _).symm.trans hgs, pairsText_prefix h rfl, rfl⟩

/-- An address is long enough and spelled. -/
theorem spelled_of_address {mac : List UInt8} (h : Address s mac) :
    minMacStringLen ≤ s.length ∧ ∃ gs, gs.length = macLen ∧ Spelled 58 s gs := by
  obtain ⟨ds, hds, hpairs, -⟩ := h
  cases ds with
  | nil => cases hds
  | cons d ds =>
      constructor
      · have hle := hpairs.length_le
        rw [length_pairsText, Nat.succ.inj hds] at hle
        exact hle
      · exact ⟨_, (List.length_map _).trans hds, spelled_pairsText (List.cons_ne_nil _ _) hpairs⟩

theorem exact_iff (s : List UInt8) : Exact s ↔ ¬ Misread s := by
  constructor
  · rintro hexact ⟨hlen, gs, hgs, hspelled, g, hg, hnot⟩
    have hret : (convertMacToBytes [] (some s)).1 = .STM_OK := by
      rw [convertMacToBytes_of_spelled hlen hgs hspelled]
    obtain ⟨mac, haddress⟩ := (hexact.accepts []).1 hret
    exact hnot ((plain_of_address haddress hgs hspelled).2 g hg)
  · intro hnot
    by_cases h : minMacStringLen ≤ s.length ∧ ∃ gs, gs.length = macLen ∧ Spelled 58 s gs
    · obtain ⟨hlen, gs, hgs, hspelled⟩ := h
      have hconvert := convertMacToBytes_of_spelled hlen hgs hspelled
      have hplain : ∀ g ∈ gs, g.Plain := by
        intro g hg
        by_contra hg'
        exact hnot ⟨hlen, gs, hgs, hspelled, g, hg, hg'⟩
      constructor
      · intro out
        rw [hconvert]
        exact iff_of_true rfl (address_of_plain hgs hspelled hplain)
      · intro out mac haddress
        rw [hconvert, (plain_of_address haddress hgs hspelled).1]
      · intro out hfail
        rw [hconvert] at hfail
        cases hfail
    · have hconvert := convertMacToBytes_of_not_spelled h
      have hno : ∀ mac, ¬ Address s mac := fun mac haddress => h (spelled_of_address haddress)
      constructor
      · intro out
        rw [hconvert]
        refine iff_of_false (fun hf => nomatch hf) ?_
        rintro ⟨mac, haddress⟩
        exact hno mac haddress
      · intro out mac haddress
        exact absurd haddress (hno mac)
      · intro out _
        rw [hconvert]

end Convert

end Mac

end Common

end EspHosted
