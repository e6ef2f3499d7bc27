import EspHosted.Usart.RingStream

/-!
# The receive stream of the UART

The receive interrupt writes to `rx_buffer` and a task reads from it. The interrupt comes
between any two statements of the task and is not interrupted by it, so that a write is one
step and a read many. `readSemaphore` only says when the task reads: a read that waited in
vain reads too.
-/

namespace EspHosted

namespace RingBuffer

open EspHosted.Bytes Machine

inductive RxAction where
  /-- `HAL_UARTEx_RxEventCallback` with the first `Size` bytes of `RX_DMA_buffer`. -/
  | rxEvent (data : List UInt8)
  /-- `get_rx_data`, up to the first statement of its read. -/
  | getRxData (bufferLength : ℕ)
  /-- The next statement of the task. -/
  | task
  deriving DecidableEq

def rxStep (s : Shared) : RxAction → Option Shared
  | .rxEvent data => some (s.write data)
  | .getRxData bufferLength => step s (.read bufferLength)
  | .task => step s .reader

/-- An event drops bytes only when there is no place for them. -/
def TakesAll (s : Shared) : RxAction → Prop
  | .rxEvent data =>
      (tmBufferWrite s.b data).2 = min (s.b.size - 1 - s.b.unread.length) data.length
  | _ => True

/-- Between two steps no write runs. -/
structure RxInv (s : Shared) : Prop where
  inv : Inv s
  idle : s.w = .idle

section Steps

variable {s s' : Shared}

theorem RxInv.in_lt (h : RxInv s) : s.b.inPos < s.b.size := by
  obtain ⟨contents, hcoherent⟩ := h.inv
  have hwriter := hcoherent.writer
  rwa [h.idle] at hwriter

/-- A step that does not measure the buffer for a read is apart from every write. -/
theorem along_apart {as : List Action} (hother : ∀ a ∈ as, a ≠ .reader) :
    Along step Apart s as := by
  induction as generalizing s with
  | nil => trivial
  | cons a as ih =>
      refine ⟨fun hreader => absurd hreader (hother a List.mem_cons_self), fun s' _ => ?_⟩
      exact ih fun a' ha' => hother a' (List.mem_cons_of_mem a ha')

theorem Inv.run {t : Shared} {as : List Action} (h : Inv s) (hother : ∀ a ∈ as, a ≠ .reader)
    (hrun : Machine.run RingBuffer.step s as = some t) : Inv t :=
  (always_of_along RingBuffer.step (fun _ _ _ h hapart hstep => h.step hapart hstep) h
    (along_apart hother)).last RingBuffer.step hrun

/-- The interrupt is a run of the writer. -/
theorem RxInv.write (h : RxInv s) (data : List UInt8) : RxInv (s.write data) := by
  obtain ⟨k, hrun⟩ := run_write h.idle data
  refine ⟨h.inv.run ?_ hrun, h.idle⟩
  intro a ha
  rcases List.mem_cons.1 ha with hcall | hwriter
  · rw [hcall]
    nofun
  · rw [List.eq_of_mem_replicate hwriter]
    nofun

theorem callRead_w (s : Shared) (count : ℕ) : (callRead s count).w = s.w := by
  rw [callRead]
  split_ifs <;> rfl

theorem readStep_w (s : Shared) : (readStep s).w = s.w := by
  obtain ⟨b, w, r, written, read⟩ := s
  cases r with
  | getFull count =>
      simp only [readStep]
      split_ifs <;> rfl
  | _ => rfl

theorem RxInv.step {a : RxAction} (h : RxInv s) (hstep : rxStep s a = some s') : RxInv s' := by
  cases a with
  | rxEvent data =>
      cases hstep
      exact h.write data
  | getRxData bufferLength =>
      have hread : RingBuffer.step s (.read bufferLength) = some s' := hstep
      refine ⟨h.inv.step (fun hreader => by cases hreader) hread, ?_⟩
      obtain ⟨-, hnext⟩ := Option.ite_none_right_eq_some.1 hread
      cases hnext
      exact (callRead_w s bufferLength).trans h.idle
  | task =>
      have hread : RingBuffer.step s .reader = some s' := hstep
      refine ⟨h.inv.step (fun _ _ hends => Nat.ne_of_lt h.in_lt hends.1) hread, ?_⟩
      obtain ⟨-, hnext⟩ := Option.ite_none_left_eq_some.1 hread
      cases hnext
      exact (readStep_w s).trans h.idle

theorem RxInv.takesAll (h : RxInv s) (a : RxAction) : TakesAll s a := by
  cases a with
  | rxEvent data =>
      have hin := h.in_lt
      obtain ⟨contents, hcoherent⟩ := h.inv
      have hfree := hcoherent.window.getFree_eq hin
      rw [TakesAll, hcoherent.window.unread_eq, ← hfree, tmBufferWrite]
      simp only [checkIn_of_lt hin]
      split_ifs with hnone hfull
      · rw [hnone, Nat.min_zero]
      · rw [hfull.2, Nat.zero_min]
      · rfl
  | getRxData bufferLength => trivial
  | task => trivial

end Steps

/-- In every run of the interrupt and the task the bytes that the task has read, the bytes
that are there and nothing else are the bytes that the events have handed over, in their
order, and an event hands over all its bytes as long as there is a place for them. -/
theorem receive_stream_intact {size : ℕ} (hsize : 0 < size) {memory : Block}
    (hlength : memory.bytes.length = size) (hoverrun : memory.overrun = false) {b : TmBuffer}
    (hinit : tmBufferInit size (some memory) none = some b) (as : List RxAction) :
    Always rxStep Intact (.start b) as ∧ Along rxStep TakesAll (.start b) as := by
  have hstart : RxInv (.start b) := ⟨inv_start hsize hlength hoverrun hinit, rfl⟩
  have halways : Always rxStep RxInv (.start b) as :=
    always_of_invariant rxStep (fun _ _ _ h hstep => h.step hstep) hstart as
  exact ⟨halways.mono rxStep fun _ h => h.inv.intact,
    along_of_always rxStep (fun _ a h => h.takesAll a) halways⟩

/-- Bytes arrive while the task reads the ones before them. -/
def arrivals : List RxAction :=
  [ .rxEvent [65, 66, 67], .getRxData 2, .task, .rxEvent [68], .task, .task, .task,
    .getRxData 2 ]

theorem receive_stream_intact_uart :
    ∃ b, tmBufferInit 255 (some (Block.calloc 255)) none = some b ∧
      (run rxStep (.start b) arrivals).isSome = true ∧
      Always rxStep Intact (.start b) arrivals :=
  ⟨_, rfl, by decide +kernel, (receive_stream_intact (by decide) List.length_replicate
    (rfl : (Block.calloc 255).overrun = false) rfl arrivals).1⟩

end RingBuffer

end EspHosted
