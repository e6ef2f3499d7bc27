import Mathlib.Algebra.Group.Nat.Even
import Mathlib.Algebra.GroupWithZero.Nat
import Mathlib.Data.List.Basic
import Mathlib.Data.Nat.Notation
import Mathlib.Tactic.Ring

/-!
# Numbers in base 128

A number is written as groups of seven bits, the lowest first, in one byte each; every
byte but the last has its top bit set. `encode` is the shortest such text of a number.
A reader does not insist on the shortest one: `value` reads the groups of any text, and
`scan` finds where the text at the head of an input ends.
-/

namespace EspHosted

namespace Varint

/-- The shortest text of a number. -/
def encode (n : ℕ) : List UInt8 :=
  if n < 128 then [UInt8.ofNat n] else UInt8.ofNat (n % 128 + 128) :: encode (n / 128)
termination_by n
decreasing_by omega

/-- The number whose groups of seven bits the bytes hold. -/
def value : List UInt8 → ℕ
  | [] => 0
  | b :: bs => b.toNat % 128 + 128 * value bs

/-- The length of the text at the head of an input, when it ends within `limit` bytes. -/
def scan : ℕ → List UInt8 → Option ℕ
  | 0, _ => none
  | _ + 1, [] => none
  | limit + 1, b :: bs => if b.toNat < 128 then some 1 else (scan limit bs).map (· + 1)

/-- `w` added to the first byte -/
def addLow (w : ℕ) : List UInt8 → List UInt8
  | [] => []
  | b :: bs => UInt8.ofNat (b.toNat + w) :: bs

@[simp] theorem value_nil : value [] = 0 := rfl

@[simp] theorem value_cons (b : UInt8) (bs : List UInt8) :
    value (b :: bs) = b.toNat % 128 + 128 * value bs := rfl

theorem encode_of_lt {n : ℕ} (h : n < 128) : encode n = [UInt8.ofNat n] := by
  rw [encode, if_pos h]

theorem encode_of_le {n : ℕ} (h : 128 ≤ n) :
    encode n = UInt8.ofNat (n % 128 + 128) :: encode (n / 128) := by
  rw [encode, if_neg (by omega)]

theorem encode_ne_nil (n : ℕ) : encode n ≠ [] := by
  rw [encode]
  split <;> simp

/-- A number follows the text of its seven lowest bits and of the others. -/
theorem encode_induction {P : ℕ → Prop} (small : ∀ n, n < 128 → P n)
    (large : ∀ n, 128 ≤ n → P (n / 128) → P n) (n : ℕ) : P n := by
  induction n using Nat.strongRecOn with
  | ind n ih =>
      by_cases h : n < 128
      · exact small n h
      · exact large n (by omega) (ih (n / 128) (by omega))

theorem value_encode (n : ℕ) : value (encode n) = n := by
  induction n using encode_induction with
  | small n h =>
      rw [encode_of_lt h, value_cons, value_nil, UInt8.toNat_ofNat']
      omega
  | large n h ih =>
      rw [encode_of_le h, value_cons, ih, UInt8.toNat_ofNat']
      omega

theorem scan_encode_append {n limit : ℕ} (h : (encode n).length ≤ limit) (rest : List UInt8) :
    scan limit (encode n ++ rest) = some (encode n).length := by
  induction n using encode_induction generalizing limit with
  | small n hn =>
      have := List.length_pos_iff.2 (encode_ne_nil n)
      obtain ⟨limit, rfl⟩ : ∃ k, limit = k + 1 := ⟨limit - 1, by omega⟩
      have hb : (UInt8.ofNat n).toNat < 128 := by
        rw [UInt8.toNat_ofNat']
        omega
      rw [encode_of_lt hn, List.singleton_append, scan, if_pos hb, List.length_singleton]
  | large n hn ih =>
      rw [encode_of_le hn, List.length_cons] at h
      obtain ⟨limit, rfl⟩ : ∃ k, limit = k + 1 := ⟨limit - 1, by omega⟩
      have hb : ¬ (UInt8.ofNat (n % 128 + 128)).toNat < 128 := by
        rw [UInt8.toNat_ofNat']
        omega
      rw [encode_of_le hn, List.cons_append, scan, if_neg hb, ih (by omega)]
      rfl

/-- What `scan` finds lies in the input, and has at least one byte. -/
theorem scan_bounds {limit n : ℕ} {bs : List UInt8} (h : scan limit bs = some n) :
    0 < n ∧ n ≤ limit ∧ n ≤ bs.length := by
  induction limit generalizing bs n with
  | zero => cases h
  | succ limit ih =>
      cases bs with
      | nil => cases h
      | cons b bs =>
          rw [scan] at h
          split at h
          · cases h
            simp
          · obtain ⟨k, hk, rfl⟩ := Option.map_eq_some_iff.1 h
            have := ih hk
            simp only [List.length_cons]
            omega

/-- A text that has been found is found again in front of another input. -/
theorem scan_take_append {limit n k : ℕ} {bs : List UInt8} (h : scan limit bs = some n)
    (hk : n ≤ k) (rest : List UInt8) : scan limit (bs.take k ++ rest) = some n := by
  induction limit generalizing bs n k with
  | zero => cases h
  | succ limit ih =>
      cases bs with
      | nil => cases h
      | cons b bs =>
          have hpos := (scan_bounds h).1
          obtain ⟨k, rfl⟩ : ∃ j, k = j + 1 := ⟨k - 1, by omega⟩
          rw [List.take_succ_cons, List.cons_append, scan]
          rw [scan] at h
          split at h
          · rename_i hb
            rw [if_pos hb]
            exact h
          · rename_i hb
            obtain ⟨j, hj, rfl⟩ := Option.map_eq_some_iff.1 h
            rw [if_neg hb, ih hj (by omega)]
            rfl

/-- `k + 1` bytes are enough for the numbers below `128 ^ (k + 1)`, and for no others. -/
theorem length_encode_le_iff (n k : ℕ) : (encode n).length ≤ k + 1 ↔ n < 128 ^ (k + 1) := by
  induction k generalizing n with
  | zero =>
      by_cases h : n < 128
      · simp [encode_of_lt h, h]
      · rw [encode_of_le (by omega)]
        have := List.length_pos_iff.2 (encode_ne_nil (n / 128))
        simp only [List.length_cons]
        omega
  | succ k ih =>
      by_cases h : n < 128
      · have : 128 ^ 1 ≤ 128 ^ (k + 1 + 1) := Nat.pow_le_pow_right (by omega) (by omega)
        rw [encode_of_lt h]
        simp only [List.length_singleton]
        omega
      · rw [encode_of_le (by omega), List.length_cons, Nat.add_le_add_iff_right, ih,
          Nat.div_lt_iff_lt_mul (by omega), ← pow_succ]

/-- The length of a text by the number of its groups. -/
theorem length_encode_eq {n k : ℕ} (hlo : 128 ^ k ≤ n) (hhi : n < 128 ^ (k + 1)) :
    (encode n).length = k + 1 := by
  have hle := (length_encode_le_iff n k).2 hhi
  cases k with
  | zero =>
      have := List.length_pos_iff.2 (encode_ne_nil n)
      omega
  | succ k =>
      have hge : ¬ (encode n).length ≤ k + 1 := by
        rw [length_encode_le_iff]
        omega
      omega

/-- The seven lowest bits are free for a smaller number. -/
theorem encode_add {n w k : ℕ} (hk : k ≤ 7) (hn : n % 2 ^ k = 0) (hw : w < 2 ^ k) :
    encode (n + w) = addLow w (encode n) := by
  have hdvd : 2 ^ k ∣ 128 := (Nat.pow_dvd_pow 2 hk).trans (by decide)
  obtain ⟨c, hc⟩ := hdvd
  have hmod : n % 128 % 2 ^ k = 0 := by
    rw [Nat.mod_mod_of_dvd n ⟨c, hc⟩, hn]
  have hroom : n % 128 + w < 128 := by
    obtain ⟨d, hd⟩ := Nat.dvd_of_mod_eq_zero hmod
    have hlt : n % 128 < 128 := Nat.mod_lt n (by decide)
    have hdc : d < c := by
      refine Nat.lt_of_mul_lt_mul_left (a := 2 ^ k) ?_
      omega
    have hstep : 2 ^ k * (d + 1) ≤ 2 ^ k * c := Nat.mul_le_mul_left _ hdc
    have hexpand : 2 ^ k * (d + 1) = 2 ^ k * d + 2 ^ k := by ring
    omega
  by_cases h : n < 128
  · rw [encode_of_lt h, encode_of_lt (by omega)]
    simp only [addLow, UInt8.toNat_ofNat']
    congr 2
    omega
  · rw [encode_of_le (n := n) (by omega), encode_of_le (n := n + w) (by omega)]
    have hdiv : (n + w) / 128 = n / 128 := by omega
    simp only [addLow, UInt8.toNat_ofNat', hdiv]
    congr 2
    omega

end Varint

end EspHosted
