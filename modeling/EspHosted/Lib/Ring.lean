import EspHosted.Lib.Slice

/-!
# Rings

A ring is a memory whose end is followed by its start. `Holds m pos xs` says that the list
`xs` stands in the ring from `pos` on; `pos` counts the places of all turns. A store that
does not run over the end of the memory, at the place behind what the ring holds, appends
to it when there is room, and a load at the place of the first element reads from the
front.
-/

namespace EspHosted

namespace Ring

open EspHosted.Bytes

section Ring

variable {α : Type*} {m m' : List α} {pos off : ℕ} {xs ys : List α}

/-- The elements of `xs` stand in the ring from `pos` on. -/
def Holds (m : List α) (pos : ℕ) (xs : List α) : Prop :=
  ∀ i < xs.length, m[(pos + i) % m.length]? = xs[i]?

/-- `m'` is the memory after `ys` was stored at `off`. -/
structure Stored (m : List α) (off : ℕ) (ys m' : List α) : Prop where
  length : m'.length = m.length
  getElem? : ∀ i, m'[i]? = if off ≤ i ∧ i < off + ys.length then ys[i - off]? else m[i]?

@[simp] theorem holds_nil : Holds m pos [] := by
  intro i hi
  exact absurd hi (Nat.not_lt_zero i)

/-- Only the place in the turn matters. -/
@[simp] theorem holds_mod : Holds m (pos % m.length) xs ↔ Holds m pos xs := by
  have hmod : ∀ i, (pos % m.length + i) % m.length = (pos + i) % m.length := fun i =>
    Nat.mod_add_mod pos m.length i
  simp only [Holds, hmod]

theorem holds_congr {pos' : ℕ} (h : pos % m.length = pos' % m.length) :
    Holds m pos xs ↔ Holds m pos' xs := by
  rw [← holds_mod, h, holds_mod]

theorem Holds.drop (h : Holds m pos xs) (n : ℕ) : Holds m (pos + n) (xs.drop n) := by
  intro i hi
  rw [List.length_drop] at hi
  rw [Nat.add_assoc, h (n + i) (by omega), List.getElem?_drop]

theorem Holds.take (h : Holds m pos xs) (n : ℕ) : Holds m pos (xs.take n) := by
  intro i hi
  rw [List.length_take] at hi
  rw [h i (by omega), List.getElem?_take, if_pos (by omega)]

theorem holds_append : Holds m pos (xs ++ ys) ↔ Holds m pos xs ∧ Holds m (pos + xs.length) ys := by
  constructor
  · intro h
    constructor
    · have htake := h.take xs.length
      rwa [List.take_left] at htake
    · have hdrop := h.drop xs.length
      rwa [List.drop_left] at hdrop
  · rintro ⟨hc, hd⟩ i hi
    rw [List.length_append] at hi
    by_cases hlt : i < xs.length
    · rw [hc i hlt, List.getElem?_append_left hlt]
    · have hge : xs.length ≤ i := Nat.le_of_not_lt hlt
      have hplace : pos + i = pos + xs.length + (i - xs.length) := by omega
      rw [List.getElem?_append_right hge, hplace]
      exact hd (i - xs.length) (by omega)

/-- Places of one turn are different. -/
theorem place_ne {i j n : ℕ} (hij : i < j) (hj : j < i + n) : (pos + i) % n ≠ (pos + j) % n := by
  intro heq
  have hdvd := Nat.dvd_of_mod_eq_zero (Nat.sub_mod_eq_zero_of_mod_eq heq.symm)
  have hle := Nat.le_of_dvd (by omega) hdvd
  omega

/-- What the ring holds is not touched by a store into the places behind it. -/
theorem Holds.frame (h : Holds m pos xs) (hstored : Stored m off ys m') (gap : ℕ)
    (hroom : xs.length + gap + ys.length ≤ m.length)
    (hoff : off = (pos + (xs.length + gap)) % m.length) : Holds m' pos xs := by
  intro i hi
  have houtside : ¬ (off ≤ (pos + i) % m.length ∧ (pos + i) % m.length < off + ys.length) := by
    rintro ⟨hlo, hhi⟩
    -- the place would be one of the store
    have hplace : (pos + (xs.length + gap + ((pos + i) % m.length - off))) % m.length =
        (pos + i) % m.length := by
      calc
        (pos + (xs.length + gap + ((pos + i) % m.length - off))) % m.length
            = ((pos + (xs.length + gap)) + ((pos + i) % m.length - off)) % m.length := by
              rw [Nat.add_assoc pos]
        _ = ((pos + (xs.length + gap)) % m.length + ((pos + i) % m.length - off)) % m.length :=
              (Nat.mod_add_mod _ _ _).symm
        _ = (off + ((pos + i) % m.length - off)) % m.length := by rw [← hoff]
        _ = (pos + i) % m.length := by
              rw [Nat.add_sub_cancel' hlo, Nat.mod_mod]
    exact place_ne (by omega) (by omega) hplace.symm
  rw [hstored.length, hstored.getElem?, if_neg houtside]
  exact h i hi

/-- What was stored stands in the ring. -/
theorem Stored.holds (hstored : Stored m off ys m') (hoff : off = pos % m.length)
    (hend : off + ys.length ≤ m.length) : Holds m' pos ys := by
  intro i hi
  have hplace : (pos + i) % m.length = off + i := by
    rw [← Nat.mod_add_mod, ← hoff]
    exact Nat.mod_eq_of_lt (by omega)
  rw [hstored.length, hplace, hstored.getElem?, if_pos ⟨Nat.le_add_right _ _, by omega⟩,
    Nat.add_sub_cancel_left]

/-- A store in front of what the ring holds. -/
theorem Holds.cons {x : α} (h : Holds m (pos + 1) xs) (hstored : Stored m off [x] m')
    (hroom : xs.length + 1 ≤ m.length) (hoff : off = pos % m.length) : Holds m' pos (x :: xs) := by
  have hlt : pos % m.length < m.length := Nat.mod_lt _ (by omega)
  have hend : off + [x].length ≤ m.length := by
    rw [hoff]
    exact hlt
  refine holds_append.2 ⟨hstored.holds hoff hend, ?_⟩
  refine h.frame hstored (m.length - (xs.length + 1)) ?_ ?_
  · simp only [List.length_singleton]
    omega
  · have hturn : pos + 1 + (xs.length + (m.length - (xs.length + 1))) = pos + m.length := by omega
    rw [hturn, Nat.add_mod_right, hoff]

/-- `m'` is the ring after `ys` was laid down from `pos` on, whether over the end or not: what
stood in other places stands there still. -/
structure Laid (m : List α) (pos : ℕ) (ys m' : List α) : Prop where
  length : m'.length = m.length
  holds : Holds m' pos ys
  frame : ∀ p xs gap, Holds m p xs → xs.length + gap + ys.length ≤ m.length →
    pos % m.length = (p + (xs.length + gap)) % m.length → Holds m' p xs

theorem laid_nil (m : List α) (pos : ℕ) : Laid m pos [] m :=
  ⟨rfl, holds_nil, fun _ _ _ h _ _ => h⟩

theorem Stored.laid (hstored : Stored m off ys m') (hoff : off = pos % m.length)
    (hend : off + ys.length ≤ m.length) : Laid m pos ys m' :=
  ⟨hstored.length, hstored.holds hoff hend, fun _ _ gap h hroom hpos =>
    h.frame hstored gap hroom (hoff.trans hpos)⟩

/-- One behind the other. -/
theorem Laid.append {m'' zs : List α} (h : Laid m pos ys m')
    (h' : Laid m' (pos + ys.length) zs m'') (hroom : ys.length + zs.length ≤ m.length) :
    Laid m pos (ys ++ zs) m'' := by
  have hlength := h.length
  refine ⟨h'.length.trans hlength, holds_append.2 ⟨?_, h'.holds⟩, fun p xs gap hxs hfits hpos => ?_⟩
  · exact h'.frame pos ys 0 h.holds (by omega) rfl
  · rw [List.length_append] at hfits
    refine h'.frame p xs (gap + ys.length) (h.frame p xs gap hxs (by omega) hpos) (by omega) ?_
    rw [hlength, ← Nat.mod_add_mod, hpos, Nat.mod_add_mod]
    congr 1
    omega

end Ring

section Bytes

variable {m : List UInt8} {pos off : ℕ} {xs : List UInt8}

@[simp] theorem patch_nil (m : List UInt8) (off : ℕ) : patch m off [] = m := by
  rw [patch, List.append_nil, List.length_nil, Nat.add_zero, List.take_append_drop]

theorem stored_patch {ys : List UInt8} (h : off + ys.length ≤ m.length) :
    Stored m off ys (patch m off ys) :=
  ⟨length_patch h, getElem?_patch (by omega)⟩

theorem stored_store {b : Block} {ys : List UInt8} (h : off + ys.length ≤ b.bytes.length) :
    Stored b.bytes off ys (b.store off ys).bytes := by
  rw [Block.store_of_le h]
  exact stored_patch h

/-- A load that does not run over the end reads the front of what the ring holds. -/
theorem Holds.slice_eq (h : Holds m pos xs) {n : ℕ} (hn : n ≤ xs.length)
    (hoff : off = pos % m.length) (hend : off + n ≤ m.length) : slice m off n = xs.take n := by
  apply List.ext_getElem?
  intro i
  rw [getElem?_slice, List.getElem?_take]
  split_ifs with hi
  · have hplace : (pos + i) % m.length = off + i := by
      rw [← Nat.mod_add_mod, ← hoff]
      exact Nat.mod_eq_of_lt (by omega)
    rw [← h i (by omega), hplace]
  · rfl

/-- In two turns of the memory, what the ring holds stands in one piece. -/
theorem Holds.slice_twice (h : Holds m pos xs) (hpos : pos ≤ m.length)
    (hlength : xs.length ≤ m.length) : slice (m ++ m) pos xs.length = xs := by
  apply List.ext_getElem?
  intro i
  rw [getElem?_slice]
  split_ifs with hi
  · rw [← h i hi]
    by_cases hlt : pos + i < m.length
    · rw [List.getElem?_append_left hlt, Nat.mod_eq_of_lt hlt]
    · have hge : m.length ≤ pos + i := Nat.le_of_not_lt hlt
      rw [List.getElem?_append_right hge, Nat.mod_eq_sub_mod hge, Nat.mod_eq_of_lt (by omega)]
  · exact (List.getElem?_eq_none (Nat.le_of_not_lt hi)).symm

end Bytes

end Ring

end EspHosted
