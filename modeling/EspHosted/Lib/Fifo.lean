import Mathlib.Data.List.Basic

/-!
# Queues and the logs at their two ends

`sent` is what was put into a queue so far and `received` what was taken out, both in
order. In an exact queue the two differ by the contents, so what comes out is what went
in. A queue that may be reset loses some of it, and what comes out is a sublist:
in order, and nothing twice or made up.
-/

namespace EspHosted

namespace Fifo

section Fifo

variable {α : Type*} {sent received queue : List α}

/-- Nothing is lost: what was taken out and the contents are what was put in. -/
def Exact (sent received queue : List α) : Prop := received ++ queue = sent

/-- What was taken out, and then the contents, were put in in this order. -/
def Sound (sent received queue : List α) : Prop := (received ++ queue).Sublist sent

theorem Exact.nil : Exact ([] : List α) [] [] := rfl

theorem Exact.send (h : Exact sent received queue) (xs : List α) :
    Exact (sent ++ xs) received (queue ++ xs) := by
  rw [Exact, ← List.append_assoc, show received ++ queue = sent from h]

theorem Exact.receive (h : Exact sent received queue) (n : ℕ) :
    Exact sent (received ++ queue.take n) (queue.drop n) := by
  rw [Exact, List.append_assoc, List.take_append_drop]
  exact h

theorem Sound.nil : Sound ([] : List α) [] [] := List.Sublist.refl []

theorem Sound.send (h : Sound sent received queue) (x : α) :
    Sound (sent ++ [x]) received (queue ++ [x]) := by
  rw [Sound, ← List.append_assoc]
  exact List.Sublist.append_right h [x]

theorem Sound.receive {x : α} (h : Sound sent received (x :: queue)) :
    Sound sent (received ++ [x]) queue := by
  rw [Sound, List.append_assoc]
  exact h

/-- A reset loses the contents. -/
theorem Sound.reset (h : Sound sent received queue) : Sound sent received [] := by
  rw [Sound, List.append_nil]
  exact (List.sublist_append_left received queue).trans h

theorem Sound.sublist (h : Sound sent received queue) : received.Sublist sent :=
  (List.sublist_append_left received queue).trans h

end Fifo

end Fifo

end EspHosted
