import EspHosted.Lib.Slice

/-!
# Strings in C

A string is what stands before the first NUL of a memory. The functions of
`string.h` look for that NUL wherever it is: in a field of fixed size that is full,
`strlen` finds the next one behind the field. A list that ends without a NUL is
meant to be followed by one.
-/

namespace EspHosted

namespace Bytes

/-- The string that starts where the memory `m` does. -/
def cstr (m : List UInt8) : List UInt8 := m.takeWhile (· ≠ 0)

/-- `strlen` -/
def strlen (m : List UInt8) : ℕ := (cstr m).length

/-- A field of `n` bytes that holds `s`, filled with zeros. -/
def padTo (n : ℕ) (s : List UInt8) : List UInt8 := s ++ List.replicate (n - s.length) 0

/-- The `n` bytes `strncpy` stores. -/
def strncpy (src : List UInt8) (n : ℕ) : List UInt8 := padTo n ((cstr src).take n)

/-- The number of bytes `strncpy` reads: the string and its NUL, but `n` at most. -/
def strncpyReads (src : List UInt8) (n : ℕ) : ℕ := min n (strlen src + 1)

@[simp] theorem cstr_nil : cstr [] = [] := rfl

@[simp] theorem cstr_zero_cons (m : List UInt8) : cstr (0 :: m) = [] := by
  simp [cstr]

theorem cstr_cons {b : UInt8} (hb : b ≠ 0) (m : List UInt8) : cstr (b :: m) = b :: cstr m := by
  simp [cstr, hb]

theorem zero_notMem_cstr (m : List UInt8) : 0 ∉ cstr m := by
  induction m with
  | nil => exact List.not_mem_nil
  | cons b m ih =>
      by_cases hb : b = 0
      · rw [hb, cstr_zero_cons]
        exact List.not_mem_nil
      · rw [cstr_cons hb, List.mem_cons, not_or]
        exact ⟨fun h => hb h.symm, ih⟩

/-- Behind bytes that are not NUL the string goes on. -/
theorem cstr_append {s : List UInt8} (hs : 0 ∉ s) (m : List UInt8) :
    cstr (s ++ m) = s ++ cstr m := by
  induction s with
  | nil => rfl
  | cons b s ih =>
      rw [List.mem_cons, not_or] at hs
      rw [List.cons_append, cstr_cons (Ne.symm hs.1), ih hs.2, List.cons_append]

theorem cstr_replicate_append {n : ℕ} (hn : 0 < n) (m : List UInt8) :
    cstr (List.replicate n 0 ++ m) = [] := by
  cases n with
  | zero => exact absurd hn (Nat.lt_irrefl 0)
  | succ n => exact cstr_zero_cons _

/-- A text alone is its own string. -/
theorem cstr_of_text {s : List UInt8} (hs : 0 ∉ s) : cstr s = s := by
  have happ := cstr_append hs []
  rwa [List.append_nil, cstr_nil, List.append_nil] at happ

@[simp] theorem length_padTo {n : ℕ} {s : List UInt8} (h : s.length ≤ n) :
    (padTo n s).length = n := by
  rw [padTo, List.length_append, List.length_replicate]
  omega

/-- A field that is not full ends its string. -/
theorem cstr_padTo_of_lt {n : ℕ} {s : List UInt8} (hs : 0 ∉ s) (h : s.length < n)
    (m : List UInt8) : cstr (padTo n s ++ m) = s := by
  rw [padTo, List.append_assoc, cstr_append hs, cstr_replicate_append (by omega), List.append_nil]

theorem padTo_of_length {n : ℕ} {s : List UInt8} (h : s.length = n) : padTo n s = s := by
  rw [padTo, h, Nat.sub_self, List.replicate_zero, List.append_nil]

/-- A full field does not: its string goes on behind it. -/
theorem cstr_padTo_of_length {n : ℕ} {s : List UInt8} (hs : 0 ∉ s) (h : s.length = n)
    (m : List UInt8) : cstr (padTo n s ++ m) = s ++ cstr m := by
  rw [padTo_of_length h, cstr_append hs]

theorem cstr_padTo {n : ℕ} {s : List UInt8} (hs : 0 ∉ s) : cstr (padTo n s) = s := by
  by_cases h : s.length < n
  · have hpad := cstr_padTo_of_lt hs h []
    rwa [List.append_nil] at hpad
  · have hzero : n - s.length = 0 := by omega
    rw [padTo, hzero, List.replicate_zero, List.append_nil, cstr_of_text hs]

/-- A field holds the empty string exactly when it starts with a zero. -/
theorem cstr_padTo_append_eq_nil_iff {n : ℕ} {s : List UInt8} (hn : 0 < n) (hs : 0 ∉ s)
    (m : List UInt8) : cstr (padTo n s ++ m) = [] ↔ s = [] := by
  cases s with
  | nil =>
      rw [padTo, List.nil_append, cstr_replicate_append (by simpa using hn)]
  | cons b s =>
      rw [List.mem_cons, not_or] at hs
      rw [padTo, List.cons_append, List.cons_append, cstr_cons (Ne.symm hs.1)]
      simp

/-- Filling up twice is filling up once. -/
theorem padTo_padTo {k n : ℕ} (h : k ≤ n) (s : List UInt8) :
    padTo n (padTo k s) = padTo n s := by
  simp only [padTo, List.length_append, List.length_replicate, List.append_assoc,
    List.replicate_append_replicate]
  congr 2
  omega

/-- A store into a cleared field fills it up. -/
theorem patch_cleared {l src : List UInt8} {n off : ℕ} (hoff : l.length = off)
    (h : src.length ≤ n) (r : List UInt8) :
    patch (l ++ (List.replicate n 0 ++ r)) off src = l ++ (padTo n src ++ r) := by
  have hsplit : List.replicate n (0 : UInt8) =
      List.replicate src.length 0 ++ List.replicate (n - src.length) 0 := by
    rw [List.replicate_append_replicate, Nat.add_sub_cancel' h]
  have hpatch := patch_append l (List.replicate src.length 0)
    (List.replicate (n - src.length) 0 ++ r) src List.length_replicate
  rw [hoff] at hpatch
  rw [hsplit, padTo]
  simpa only [List.append_assoc] using hpatch

/-- `strncpy` of a text with its NUL, as far as the field goes. -/
theorem padTo_strncpy_min {src : List UInt8} (hsrc : 0 ∉ src) (n : ℕ) :
    padTo n (strncpy src (min n (strlen src + 1))) = padTo n (src.take n) := by
  rw [strncpy, padTo_padTo (Nat.min_le_left _ _), strlen, cstr_of_text hsrc]
  by_cases h : src.length + 1 ≤ n
  · rw [Nat.min_eq_right h, List.take_of_length_le (Nat.le_succ _),
      List.take_of_length_le (Nat.le_of_succ_le h)]
  · rw [Nat.min_eq_left (Nat.le_of_not_le h)]

@[simp] theorem length_strncpy (src : List UInt8) (n : ℕ) : (strncpy src n).length = n := by
  rw [strncpy, length_padTo]
  exact List.length_take_le _ _

/-! ## Copies from counted bytes -/

/-- Bytes that hold a NUL hold their string. -/
theorem cstr_append_of_mem {s : List UInt8} (hs : 0 ∈ s) (m : List UInt8) :
    cstr (s ++ m) = cstr s := by
  induction s with
  | nil => exact absurd hs List.not_mem_nil
  | cons b s ih =>
      by_cases hb : b = 0
      · rw [hb, List.cons_append, cstr_zero_cons, cstr_zero_cons]
      · have hmem : 0 ∈ s := (List.mem_cons.1 hs).resolve_left (Ne.symm hb)
        rw [List.cons_append, cstr_cons hb, cstr_cons hb, ih hmem]

theorem strlen_lt_of_mem {s : List UInt8} (hs : 0 ∈ s) : strlen s < s.length := by
  rw [strlen]
  induction s with
  | nil => exact absurd hs List.not_mem_nil
  | cons b s ih =>
      by_cases hb : b = 0
      · rw [hb, cstr_zero_cons]
        exact Nat.succ_pos _
      · have hmem : 0 ∈ s := (List.mem_cons.1 hs).resolve_left (Ne.symm hb)
        rw [cstr_cons hb]
        exact Nat.succ_lt_succ (ih hmem)

/-- `strncpy` stays in its source when the source holds a NUL, or all it may copy. -/
theorem strncpyReads_le_iff (s beyond : List UInt8) (n : ℕ) :
    strncpyReads (s ++ beyond) n ≤ s.length ↔ 0 ∈ s ∨ n ≤ s.length := by
  rw [strncpyReads]
  by_cases hs : 0 ∈ s
  · have hlt : strlen (s ++ beyond) < s.length := by
      rw [strlen, cstr_append_of_mem hs]
      exact strlen_lt_of_mem hs
    refine iff_of_true ?_ (Or.inl hs)
    exact Nat.le_trans (Nat.min_le_right _ _) hlt
  · have hlen : strlen (s ++ beyond) = s.length + strlen beyond := by
      rw [strlen, cstr_append hs, List.length_append]
      rfl
    rw [hlen]
    constructor
    · intro h
      right
      omega
    · intro h
      have hle := h.resolve_left hs
      omega

/-- The front of a field. -/
theorem take_padTo {k n : ℕ} {s : List UInt8} (hs : s.length ≤ k) (hk : k ≤ n) :
    (padTo n s).take k = padTo k s := by
  have hsplit : n - s.length = (k - s.length) + (n - k) := by omega
  rw [padTo, hsplit, ← List.replicate_append_replicate, ← List.append_assoc]
  exact List.take_left' (length_padTo hs)

/-- Behind its text a field is zero. -/
theorem drop_padTo {k n : ℕ} {s : List UInt8} (hs : s.length ≤ k) :
    (padTo n s).drop k = List.replicate (n - k) 0 := by
  rw [padTo, List.drop_append, List.drop_eq_nil_of_le hs, List.nil_append, List.drop_replicate]
  congr 1
  omega

/-- What `strncpy` of `n` bytes leaves when the last one is then cleared. -/
theorem patch_strncpy {n : ℕ} (hn : 0 < n) (m : List UInt8) :
    patch (strncpy m n) (n - 1) [0] = padTo n ((cstr m).take (n - 1)) := by
  have htake : (strncpy m n).take (n - 1) = padTo (n - 1) ((cstr m).take (n - 1)) := by
    rw [strncpy]
    by_cases hshort : (cstr m).length ≤ n - 1
    · rw [List.take_of_length_le (Nat.le_trans hshort (Nat.sub_le _ _)),
        List.take_of_length_le hshort, take_padTo hshort (Nat.sub_le _ _)]
    · have hfull : ((cstr m).take n).length = n := by
        rw [List.length_take]
        omega
      have hcut : ((cstr m).take (n - 1)).length = n - 1 := by
        rw [List.length_take]
        omega
      rw [padTo_of_length hfull, padTo_of_length hcut, List.take_take,
        Nat.min_eq_left (Nat.sub_le _ _)]
  have hdrop : (strncpy m n).drop (n - 1 + [(0 : UInt8)].length) = [] := by
    apply List.drop_eq_nil_of_le
    rw [length_strncpy, List.length_singleton]
    omega
  have hpad : n - ((cstr m).take (n - 1)).length =
      (n - 1 - ((cstr m).take (n - 1)).length) + 1 := by
    have hle := List.length_take_le (n - 1) (cstr m)
    omega
  rw [patch, htake, hdrop, List.append_nil, padTo, padTo, hpad, List.replicate_succ',
    List.append_assoc]

/-- Bytes that end in a zero, with nothing but zeros behind the first one. -/
def ZeroEnded (s : List UInt8) : Prop := 0 ∈ s ∧ padTo s.length (cstr s) = s

/-- A field that is not smaller than its source gets exactly the bytes of the source, and
`strncpy` reads no others, when the source ends in zeros. -/
theorem copied_iff {s beyond : List UInt8} {size n : ℕ} (hpos : 0 < size)
    (hlen : s.length ≤ size) (hsize : size ≤ n) :
    (strncpyReads (s ++ beyond) n ≤ s.length ∧
        (padTo n ((cstr (s ++ beyond)).take (n - 1))).take size = padTo size s) ↔
      ZeroEnded s := by
  rw [strncpyReads_le_iff]
  by_cases hs : 0 ∈ s
  · have hlt : (cstr s).length < s.length := strlen_lt_of_mem hs
    have htext : (cstr s).length ≤ n - 1 := by omega
    rw [cstr_append_of_mem hs, List.take_of_length_le htext,
      take_padTo (Nat.le_trans (Nat.le_of_lt hlt) hlen) hsize]
    constructor
    · intro h
      have hfront := congrArg (List.take s.length) h.2
      rw [take_padTo (Nat.le_of_lt hlt) hlen, take_padTo (Nat.le_refl _) hlen,
        padTo_of_length rfl] at hfront
      exact ⟨hs, hfront⟩
    · intro h
      refine ⟨Or.inl hs, ?_⟩
      calc
        padTo size (cstr s) = padTo size (padTo s.length (cstr s)) := (padTo_padTo hlen _).symm
        _ = padTo size s := by rw [h.2]
  · constructor
    · intro h
      have hn : n ≤ s.length := h.1.resolve_left hs
      have hfull : s.length = size := by omega
      have hcut : ((cstr (s ++ beyond)).take (n - 1)).length < size := by
        rw [List.length_take]
        omega
      have hzero : 0 ∈ (padTo n ((cstr (s ++ beyond)).take (n - 1))).take size := by
        rw [take_padTo (Nat.le_of_lt hcut) hsize, padTo]
        exact List.mem_append_right _ (List.mem_replicate.2 ⟨by omega, rfl⟩)
      rw [h.2, padTo_of_length hfull] at hzero
      exact absurd hzero hs
    · intro h
      exact absurd h.1 hs

end Bytes

end EspHosted
