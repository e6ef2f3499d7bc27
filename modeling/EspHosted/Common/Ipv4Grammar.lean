import EspHosted.Common.Ipv4

/-!
# The strings that are taken for addresses

`Address` are the strings that begin with an IPv4 address in C notation, together with the
word that stands for it in network order. `ipv4AddrAton` accepts them all. It also accepts
the strings of `Misread`, in which a number is missing, is no number of C, or has wrapped
around to one that is in range.
-/

namespace EspHosted

namespace Common

open EspHosted.Bytes

/-- `s` is an address of one to four numbers, followed by its end or a space. In memory, the
bytes of `x` are those of the address, the most significant one first. -/
def Address (s : List UInt8) (x : UInt32) : Prop :=
  ∃ ns rest a, Spells s ns rest ∧ (∀ n ∈ ns, n.Regular) ∧
    address (ns.map Numeral.value) = some a ∧ le32Bytes x = be32Bytes (UInt32.ofNat a)

/-- What is returned and stored for `s` follows the grammar of addresses. -/
structure Follows (s : List UInt8) (r : AtonResult) : Prop where
  accepts : r.ret ↔ ∃ x, Address s x
  stores : ∀ x, Address s x → r.ipUint32 = some x
  refuses : r.ret = false → r.ipUint32 = none

/-- The values are in range after they have wrapped around, but a number is empty, has no
digits behind `0x`, has a digit 8 or 9 behind a leading zero, or is too large for a word. -/
def Misread (s : List UInt8) : Prop :=
  ∃ ns rest, Spells s ns rest ∧ (address (ns.map fun n => n.value % 2 ^ 32)).isSome ∧
    ∃ n ∈ ns, ¬ n.Regular ∨ 2 ^ 32 ≤ n.value

section Grammar

variable {s rest : List UInt8} {ns : List Numeral}

/-- The parts of an address fit in a word. -/
theorem lt_of_address {vs : List ℕ} {a : ℕ} (h : address vs = some a) : ∀ v ∈ vs, v < 2 ^ 32 := by
  intro v hv
  match vs with
  | [] => exact absurd hv List.not_mem_nil
  | [b] =>
      simp only [address, Option.ite_none_right_eq_some] at h
      simp only [List.mem_singleton] at hv
      omega
  | [b, c] =>
      simp only [address, Option.ite_none_right_eq_some] at h
      simp only [List.mem_cons, List.not_mem_nil, or_false] at hv
      omega
  | [b, c, d] =>
      simp only [address, Option.ite_none_right_eq_some] at h
      simp only [List.mem_cons, List.not_mem_nil, or_false] at hv
      omega
  | [b, c, d, e] =>
      simp only [address, Option.ite_none_right_eq_some] at h
      simp only [List.mem_cons, List.not_mem_nil, or_false] at hv
      omega
  | _ :: _ :: _ :: _ :: _ :: _ => exact absurd h (Option.some_ne_none a).symm

theorem address_iff_of_spells (h : Spells s ns rest) (x : UInt32) :
    Address s x ↔ (∀ n ∈ ns, n.Regular) ∧
      ∃ a, address (ns.map Numeral.value) = some a ∧
        le32Bytes x = be32Bytes (UInt32.ofNat a) := by
  constructor
  · intro haddress
    obtain ⟨ns', rest', a, hspells, hregular, ha, hx⟩ := haddress
    rw [hspells.unique h] at hregular ha
    exact ⟨hregular, a, ha, hx⟩
  · intro hsome
    obtain ⟨hregular, a, ha, hx⟩ := hsome
    exact ⟨ns, rest, a, h, hregular, ha, hx⟩

theorem misread_iff_of_spells (h : Spells s ns rest) :
    Misread s ↔ (address (ns.map fun n => n.value % 2 ^ 32)).isSome ∧
      ∃ n ∈ ns, ¬ n.Regular ∨ 2 ^ 32 ≤ n.value := by
  constructor
  · intro hmisread
    obtain ⟨ns', rest', hspells, hsome⟩ := hmisread
    rwa [hspells.unique h] at hsome
  · intro hsome
    exact ⟨ns, rest, h, hsome⟩

/-- A string that is no address is to be refused. -/
theorem follows_iff_of_not_address (h : ∀ x, ¬ Address s x) (a : Option ℕ) :
    Follows s (atonOf a) ↔ ¬ a.isSome := by
  cases a with
  | none =>
      constructor
      · intro _
        exact Bool.false_ne_true
      · intro _
        constructor
        · constructor
          · intro hret
            exact absurd hret Bool.false_ne_true
          · intro haddress
            obtain ⟨x, hx⟩ := haddress
            exact absurd hx (h x)
        · intro x hx
          exact absurd hx (h x)
        · intro _
          rfl
  | some a =>
      constructor
      · intro hfollows
        obtain ⟨x, hx⟩ := hfollows.accepts.1 rfl
        exact absurd hx (h x)
      · intro hnone
        exact absurd rfl hnone

/-- An address is to be stored. -/
theorem follows_of_address (h : Spells s ns rest) (hregular : ∀ n ∈ ns, n.Regular) :
    Follows s (atonOf (address (ns.map Numeral.value))) := by
  cases ha : address (ns.map Numeral.value) with
  | none =>
      have hnot : ∀ x, ¬ Address s x := by
        intro x hx
        obtain ⟨-, a, ha', -⟩ := (address_iff_of_spells h x).1 hx
        rw [ha] at ha'
        exact absurd ha' (Option.some_ne_none a).symm
      rw [follows_iff_of_not_address hnot]
      exact Bool.false_ne_true
  | some a =>
      have hiff : ∀ x, Address s x ↔ x = htonLong (UInt32.ofNat a) := by
        intro x
        rw [address_iff_of_spells h, ha]
        constructor
        · intro hx
          obtain ⟨-, a', ha', hx⟩ := hx
          rw [← le32Bytes_htonLong, ← Option.some.inj ha'] at hx
          exact le32Bytes_injective hx
        · intro hx
          rw [hx]
          exact ⟨hregular, a, rfl, le32Bytes_htonLong _⟩
      constructor
      · constructor
        · intro _
          exact ⟨_, (hiff _).2 rfl⟩
        · intro _
          rfl
      · intro x hx
        rw [(hiff x).1 hx]
        rfl
      · intro hret
        exact absurd hret.symm Bool.false_ne_true

/-- `ipv4_addr_aton` accepts the addresses and no other strings, but for those it misreads. -/
theorem aton_grammar_iff (s : List UInt8) : Follows s (ipv4AddrAton s) ↔ ¬ Misread s := by
  by_cases hspells : ∃ ns rest, Spells s ns rest
  · obtain ⟨ns, rest, h⟩ := hspells
    have hwrap : (ns.map fun n => (scanned n).toNat) = ns.map fun n => n.value % 2 ^ 32 := by
      apply List.map_congr_left
      intro n _
      exact UInt32.toNat_ofNat'
    rw [ipv4AddrAton_of_spells h, hwrap, misread_iff_of_spells h]
    by_cases hgood : ∀ n ∈ ns, n.Regular ∧ n.value < 2 ^ 32
    · have hvalue : (ns.map fun n => n.value % 2 ^ 32) = ns.map Numeral.value := by
        apply List.map_congr_left
        intro n hn
        exact Nat.mod_eq_of_lt (hgood n hn).2
      rw [hvalue]
      constructor
      · intro _ hmisread
        obtain ⟨-, n, hn, hirregular | hlarge⟩ := hmisread
        · exact hirregular (hgood n hn).1
        · exact absurd (hgood n hn).2 (Nat.not_lt.2 hlarge)
      · intro _
        exact follows_of_address h fun n hn => (hgood n hn).1
    · have hbad : ∃ n ∈ ns, ¬ n.Regular ∨ 2 ^ 32 ≤ n.value := by
        simpa only [not_forall, not_and_or, exists_prop, Nat.not_lt] using hgood
      have hnot : ∀ x, ¬ Address s x := by
        intro x hx
        obtain ⟨hregular, a, ha, -⟩ := (address_iff_of_spells h x).1 hx
        obtain ⟨n, hn, hirregular | hlarge⟩ := hbad
        · exact hirregular (hregular n hn)
        · exact absurd (lt_of_address ha _ (List.mem_map_of_mem hn)) (Nat.not_lt.2 hlarge)
      rw [follows_iff_of_not_address hnot]
      constructor
      · intro hnone hmisread
        exact hnone hmisread.1
      · intro hmisread hsome
        exact hmisread ⟨hsome, hbad⟩
  · have hno : ∀ ns rest, ¬ Spells s ns rest := by
      intro ns rest h
      exact hspells ⟨ns, rest, h⟩
    have hnot : ∀ x, ¬ Address s x := by
      intro x hx
      obtain ⟨ns, rest, a, h, -⟩ := hx
      exact hno ns rest h
    have hmisread : ¬ Misread s := by
      intro hmisread
      obtain ⟨ns, rest, h, -⟩ := hmisread
      exact hno ns rest h
    rw [ipv4AddrAton_of_not_spells hno]
    exact iff_of_true ((follows_iff_of_not_address hnot none).2 Bool.false_ne_true) hmisread

/-- The empty string is no address, and is taken for 0.0.0.0. -/
theorem empty_string_accepted : ¬ Follows [] (ipv4AddrAton []) := by
  intro h
  have hspells : Spells [] [{ radix := .decimal, digits := [] }] [] := by
    constructor
    · rfl
    · exact List.cons_ne_nil _ _
    · intro n hn
      rw [List.mem_singleton.1 hn]
      exact ⟨fun c hc => absurd hc List.not_mem_nil, fun _ => by decide⟩
    · exact Or.inl rfl
  obtain ⟨x, hx⟩ := h.accepts.1 (by decide)
  have hregular := ((address_iff_of_spells hspells x).1 hx).1 _ List.mem_cons_self
  exact hregular rfl

end Grammar

end Common

end EspHosted
