import Mathlib.Data.List.Basic

/-!
# Words

The words of a list are the pieces between its separators, without the empty ones.
-/

namespace EspHosted

namespace Words

variable {α β : Type*} {p : α → Bool} {w l m : List α} {s : α}

def words (p : α → Bool) (l : List α) : List (List α) := (l.splitOnP p).filter fun w => !w.isEmpty

@[simp] theorem words_nil : words p [] = [] := by
  rw [words, List.splitOnP_nil]
  rfl

theorem words_append_cons (l m : List α) (hs : p s = true) :
    words p (l ++ s :: m) = words p l ++ words p m := by
  rw [words, List.splitOnP_append_cons l m hs, List.filter_append]
  rfl

/-- A piece without separators is a word. -/
theorem words_of_forall (hne : w ≠ []) (hw : ∀ x ∈ w, p x = false) : words p w = [w] := by
  rw [words, List.splitOnP_eq_singleton hw]
  cases w with
  | nil => exact absurd rfl hne
  | cons x w => rfl

theorem flatten_splitOnP (p : α → Bool) (l : List α) :
    (l.splitOnP p).flatten = l.filter fun x => !p x := by
  induction l with
  | nil => rw [List.splitOnP_nil, List.flatten_cons, List.flatten_nil, List.filter_nil,
      List.append_nil]
  | cons x l ih =>
      rw [List.splitOnP_cons_eq_if_modifyHead]
      cases hsep : p x with
      | true =>
          rw [if_pos rfl, List.flatten_cons, List.nil_append, ih, List.filter_cons, hsep]
          rfl
      | false =>
          obtain ⟨w, ws, hws⟩ := List.exists_cons_of_ne_nil (List.splitOnP_ne_nil p l)
          rw [if_neg Bool.false_ne_true, List.filter_cons, hsep, ← ih, hws]
          rfl

/-- The words hold what is not a separator. -/
theorem flatten_words (p : α → Bool) (l : List α) :
    (words p l).flatten = l.filter fun x => !p x := by
  rw [words, List.flatten_filter_not_isEmpty, flatten_splitOnP]

/-- The words of a list are those of its image, when the separators are the same. -/
theorem words_map {q : β → Bool} {f : α → β} {l : List α} (hf : ∀ x ∈ l, q (f x) = p x) :
    words q (l.map f) = (words p l).map (List.map f) := by
  have hsplit : (l.map f).splitOnP q = (l.splitOnP p).map (List.map f) := by
    induction l with
    | nil =>
        rw [List.map_nil, List.splitOnP_nil, List.splitOnP_nil]
        rfl
    | cons x l ih =>
        obtain ⟨w, ws, hws⟩ := List.exists_cons_of_ne_nil (List.splitOnP_ne_nil p l)
        rw [List.map_cons, List.splitOnP_cons_eq_if_modifyHead,
          List.splitOnP_cons_eq_if_modifyHead, hf x List.mem_cons_self,
          ih fun y hy => hf y (List.mem_cons_of_mem x hy), hws]
        split_ifs <;> rfl
  rw [words, hsplit, words, List.filter_map]
  congr 2
  funext w
  cases w <;> rfl

/-- A map that leaves what is not a separator alone leaves the words alone. -/
theorem map_words {f : α → α} {l : List α} (hf : ∀ x, p x = false → f x = x) :
    (words p l).map (List.map f) = words p l := by
  have hword : ∀ w ∈ words p l, w.map f = w := by
    intro w hw
    refine (List.map_congr_left fun x hx => hf x ?_).trans (List.map_id' w)
    have hmem : x ∈ l.filter fun x => !p x := by
      rw [← flatten_words]
      exact List.mem_flatten_of_mem hw hx
    have hkeep := (List.mem_filter.1 hmem).2
    rwa [Bool.not_eq_true'] at hkeep
  exact (List.map_congr_left hword).trans (List.map_id' _)

end Words

end EspHosted
