import EspHosted.Lib.Bytes
import EspHosted.Lib.Fifo
import EspHosted.Lib.Machine
import Mathlib.Data.Fintype.Option

/-!
# The output stream of the UART

Any number of tasks in `put_tx_data` and the transfer-complete interrupt share
`tx_buffer`, which is a FIFO of bytes, and `TX_DMA_buffer`. The test of `gState`, the
read into `TX_DMA_buffer` and the start of the transfer are three steps, and nothing
keeps the agents apart between them. The stream is whole exactly as long as no agent
reads a chunk while another chunk is waiting for its start or is being sent.

`wire`, `accepted`, `filled`, `assertFailed` and `overwritten` are logs that no branch
reads, except that the program stops at a failed assertion.
-/

namespace EspHosted

namespace Usart

open EspHosted.Bytes Machine Fifo

/-- `TX_DMA_BUFFER_SIZE` -/
def txDmaBufferSize : ℕ := 16

/-- `huart2.gState`, as far as a transmission sets it. -/
inductive GState where
  | READY
  | BUSY_TX
  deriving DecidableEq

/-- A task, or `none` for the interrupt. -/
abbrev Agent (ι : Type) := Option ι

/-- The next statement of an agent: the test in `put_tx_data`, or the two halves of
`tx_next_chunk`. -/
inductive Pc where
  | idle
  | testGState
  | tmBufferRead
  | transmitDma (size : ℕ)
  deriving DecidableEq

/-- A chunk was read and is not started yet. -/
def Pc.isTransmitDma : Pc → Bool
  | .transmitDma _ => true
  | _ => false

/-- `filled` is the length of the chunk in `TX_DMA_buffer` that is still to be sent. -/
structure State (ι : Type) where
  txBuffer : List UInt8
  txDmaBuffer : List UInt8
  gState : GState
  txXferSize : ℕ
  pc : Agent ι → Pc
  filled : ℕ
  wire : List UInt8
  accepted : List UInt8
  assertFailed : Bool
  overwritten : Bool

inductive Action (ι : Type) where
  | putTxData (t : ι) (buffer : List UInt8) (ret : ℕ)
  | testGState (t : ι)
  | tmBufferRead (a : Agent ι)
  | transmitDma (a : Agent ι)
  | transferComplete

section Stream

variable {ι : Type}

def init : State ι where
  txBuffer := []
  txDmaBuffer := List.replicate txDmaBufferSize 0
  gState := .READY
  txXferSize := 0
  pc := fun _ => .idle
  filled := 0
  wire := []
  accepted := []
  assertFailed := false
  overwritten := false

/-- The chunk in `TX_DMA_buffer`, from its read to the end of its transfer. -/
def State.chunk (s : State ι) : List UInt8 := s.txDmaBuffer.take s.filled

/-- Nothing is lost, reordered or sent twice, no transfer is started on top of another,
and the stream does not stall. -/
structure Integrity (s : State ι) : Prop where
  assertFailed : s.assertFailed = false
  overwritten : s.overwritten = false
  stream : s.wire ++ s.chunk ++ s.txBuffer = s.accepted
  progress : (∀ t, s.pc (some t) = .idle) → s.txBuffer ≠ [] →
    s.gState = .BUSY_TX ∨ s.pc none ≠ .idle

/-- A chunk is read only when no transfer is in progress and no other chunk waits for its
start. -/
def Undisturbed (s : State ι) : Action ι → Prop
  | .tmBufferRead _ =>
      s.txBuffer ≠ [] → s.gState = .READY ∧ ∀ b, (s.pc b).isTransmitDma = false
  | _ => True

instance [Fintype ι] (s : State ι) : DecidablePred (Undisturbed s)
  | .putTxData _ _ _ => isTrue trivial
  | .testGState _ => isTrue trivial
  | .tmBufferRead _ => inferInstanceAs (Decidable (_ → _))
  | .transmitDma _ => isTrue trivial
  | .transferComplete => isTrue trivial

variable [DecidableEq ι]

def State.goto (s : State ι) (a : Agent ι) (pc : Pc) : State ι :=
  { s with pc := Function.update s.pc a pc }

/-- `TM_BUFFER_Read` into `TX_DMA_buffer` -/
def tmBufferRead (s : State ι) (a : Agent ι) : State ι :=
  match s.txBuffer.take txDmaBufferSize with
  | [] => s.goto a .idle
  | x :: xs =>
      { s with
        txBuffer := s.txBuffer.drop txDmaBufferSize
        txDmaBuffer := patch s.txDmaBuffer 0 (x :: xs)
        filled := (x :: xs).length
        overwritten := s.overwritten || decide (s.gState = GState.BUSY_TX) }.goto a
          (.transmitDma (x :: xs).length)

/-- `HAL_UART_Transmit_DMA` and the assertion on its result -/
def transmitDma (s : State ι) (a : Agent ι) (size : ℕ) : State ι :=
  match s.gState with
  | .READY => { s with gState := .BUSY_TX, txXferSize := size }.goto a .idle
  | .BUSY_TX => { s with assertFailed := true }

def step (s : State ι) (a : Action ι) : Option (State ι) :=
  if s.assertFailed then
    none
  else
    match a with
    | .putTxData t buffer ret =>
        if s.pc (some t) = .idle then
          some
            ({ s with
              txBuffer := s.txBuffer ++ buffer.take ret
              accepted := s.accepted ++ buffer.take ret }.goto (some t) .testGState)
        else
          none
    | .testGState t =>
        if s.pc (some t) = .testGState then
          some (s.goto (some t) (if s.gState = .READY then .tmBufferRead else .idle))
        else
          none
    | .tmBufferRead a => if s.pc a = .tmBufferRead then some (tmBufferRead s a) else none
    | .transmitDma a =>
        match s.pc a with
        | .transmitDma size => some (transmitDma s a size)
        | _ => none
    | .transferComplete =>
        if s.gState = .BUSY_TX ∧ s.pc none = .idle then
          some
            ({ s with
              wire := s.wire ++ s.txDmaBuffer.take s.txXferSize
              filled := 0
              gState := .READY }.goto none .tmBufferRead)
        else
          none

/-- What an undisturbed run keeps: at most one chunk is out of the FIFO and not yet on
the wire, and one agent answers for it. -/
structure Core (s : State ι) : Prop where
  assertFailed : s.assertFailed = false
  overwritten : s.overwritten = false
  length : s.txDmaBuffer.length = txDmaBufferSize
  filled_le : s.filled ≤ txDmaBufferSize
  stream : Exact s.accepted (s.wire ++ s.chunk) s.txBuffer
  busy : s.gState = .BUSY_TX → 0 < s.filled ∧ s.txXferSize = s.filled ∧
    ∀ a, (s.pc a).isTransmitDma = false
  waiting : ∀ a size, s.pc a = .transmitDma size →
    0 < size ∧ size = s.filled ∧ s.gState = .READY
  single : ∀ a b, (s.pc a).isTransmitDma = true → (s.pc b).isTransmitDma = true → a = b
  empty : s.gState = .READY → (∀ a, (s.pc a).isTransmitDma = false) → s.filled = 0
  progress : s.txBuffer ≠ [] → s.gState = .BUSY_TX ∨ ∃ a, s.pc a ≠ .idle

namespace Core

omit [DecidableEq ι] in
theorem init : Core (Usart.init : State ι) := by
  constructor
  · rfl
  · rfl
  · exact List.length_replicate
  · exact Nat.zero_le _
  · exact Exact.nil
  · intro h
    cases h
  · intro a size h
    cases h
  · intro a b h
    cases h
  · exact fun _ _ => rfl
  · intro h
    exact absurd rfl h

omit [DecidableEq ι] in
theorem integrity {s : State ι} (h : Core s) : Integrity s := by
  constructor
  · exact h.assertFailed
  · exact h.overwritten
  · exact h.stream
  · intro hidle hne
    rcases h.progress hne with hbusy | ⟨a, ha⟩
    · exact Or.inl hbusy
    · cases a with
      | none => exact Or.inr ha
      | some t => exact absurd (hidle t) ha

omit [DecidableEq ι] in
theorem length_chunk {s : State ι} (h : Core s) : s.chunk.length = s.filled := by
  rw [State.chunk, List.length_take, h.length]
  exact Nat.min_eq_left h.filled_le

end Core

theorem take_patch_zero (buf src : List UInt8) : (patch buf 0 src).take src.length = src := by
  rw [patch, List.take_zero, List.nil_append]
  exact List.take_left

/-- Between pieces of code without a chunk, an agent moves unseen. -/
theorem isTransmitDma_goto {s : State ι} {a : Agent ι} {k : Pc}
    (ha : (s.pc a).isTransmitDma = false) (hk : k.isTransmitDma = false) (b : Agent ι) :
    ((s.goto a k).pc b).isTransmitDma = (s.pc b).isTransmitDma := by
  simp only [State.goto]
  by_cases hb : b = a
  · rw [hb, Function.update_self, ha, hk]
  · rw [Function.update_of_ne hb]

/-- A chunk that waits after the move waited before. -/
theorem transmitDma_goto {s : State ι} {a b : Agent ι} {k : Pc} {size : ℕ}
    (hk : k.isTransmitDma = false) (h : (s.goto a k).pc b = .transmitDma size) :
    s.pc b = .transmitDma size ∧ b ≠ a := by
  simp only [State.goto] at h
  by_cases hb : b = a
  · rw [hb, Function.update_self] at h
    rw [h] at hk
    cases hk
  · rw [Function.update_of_ne hb] at h
    exact ⟨h, hb⟩

theorem exists_ne_idle_goto {s : State ι} {a : Agent ι} {k : Pc} (hk : k ≠ .idle) :
    ∃ b, (s.goto a k).pc b ≠ .idle := by
  refine ⟨a, ?_⟩
  simp only [State.goto, Function.update_self]
  exact hk

namespace Core

theorem goto {s : State ι} (h : Core s) {a : Agent ι} {k : Pc}
    (ha : (s.pc a).isTransmitDma = false) (hk : k.isTransmitDma = false)
    (hprogress : s.txBuffer ≠ [] → s.gState = .BUSY_TX ∨ ∃ b, (s.goto a k).pc b ≠ .idle) :
    Core (s.goto a k) := by
  have hsame := isTransmitDma_goto ha hk
  constructor
  · exact h.assertFailed
  · exact h.overwritten
  · exact h.length
  · exact h.filled_le
  · exact h.stream
  · intro hbusy
    obtain ⟨hpos, hsize, hnone⟩ := h.busy hbusy
    refine ⟨hpos, hsize, fun b => ?_⟩
    rw [hsame b]
    exact hnone b
  · intro b size hb
    exact h.waiting b size (transmitDma_goto hk hb).1
  · intro b c hb hc
    rw [hsame] at hb hc
    exact h.single b c hb hc
  · intro hready hnone
    refine h.empty hready fun b => ?_
    rw [← hsame b]
    exact hnone b
  · exact hprogress

omit [DecidableEq ι] in
/-- An agent that is on its way to the FIFO lets it grow. -/
theorem append {s : State ι} (h : Core s) (xs : List UInt8) (hbusy : ∃ a, s.pc a ≠ .idle) :
    Core { s with txBuffer := s.txBuffer ++ xs, accepted := s.accepted ++ xs } :=
  ⟨h.assertFailed, h.overwritten, h.length, h.filled_le, h.stream.send xs, h.busy, h.waiting,
    h.single, h.empty, fun _ => Or.inr hbusy⟩

/-- A chunk leaves the FIFO while nothing else is under way. -/
theorem tmBufferRead {s : State ι} (h : Core s) {a : Agent ι} (ha : s.pc a = .tmBufferRead)
    (hfree : s.txBuffer ≠ [] → s.gState = .READY ∧ ∀ b, (s.pc b).isTransmitDma = false) :
    Core (Usart.tmBufferRead s a) := by
  simp only [Usart.tmBufferRead]
  cases htake : s.txBuffer.take txDmaBufferSize with
  | nil =>
      have hempty : s.txBuffer = [] := by
        rcases List.take_eq_nil_iff.1 htake with hzero | hempty
        · cases hzero
        · exact hempty
      exact h.goto (by rw [ha]; rfl) rfl fun hne => absurd hempty hne
  | cons x xs =>
      have hne : s.txBuffer ≠ [] := by
        intro hempty
        rw [hempty] at htake
        cases htake
      obtain ⟨hready, hnone⟩ := hfree hne
      have hfilled := h.empty hready hnone
      have hle : (x :: xs).length ≤ txDmaBufferSize := by
        rw [← htake, List.length_take]
        exact Nat.min_le_left _ _
      have hchunk : s.chunk = [] := by
        rw [State.chunk, hfilled, List.take_zero]
      have honly : ∀ b,
          (Function.update s.pc a (.transmitDma (x :: xs).length) b).isTransmitDma = true →
            b = a := by
        intro b hb
        by_contra hba
        rw [Function.update_of_ne hba, hnone b] at hb
        cases hb
      constructor
      · exact h.assertFailed
      · change (s.overwritten || decide (s.gState = GState.BUSY_TX)) = false
        rw [h.overwritten, hready]
        rfl
      · rw [← h.length]
        exact length_patch (by rw [h.length, Nat.zero_add]; exact hle)
      · exact hle
      · have hreceive := h.stream.receive txDmaBufferSize
        rw [hchunk, List.append_nil, htake] at hreceive
        change Exact s.accepted
          (s.wire ++ (patch s.txDmaBuffer 0 (x :: xs)).take (x :: xs).length) _
        rw [take_patch_zero]
        exact hreceive
      · intro hbusy
        exact nomatch hready.symm.trans hbusy
      · intro b size hb
        by_cases hba : b = a
        · subst hba
          simp only [State.goto, Function.update_self] at hb
          cases hb
          exact ⟨Nat.succ_pos _, rfl, hready⟩
        · simp only [State.goto, Function.update_of_ne hba] at hb
          have hwaits := hnone b
          rw [hb] at hwaits
          cases hwaits
      · intro b c hb hc
        rw [honly b hb, honly c hc]
      · intro _ hnone'
        have hself := hnone' a
        simp only [State.goto, Function.update_self] at hself
        cases hself
      · exact fun _ => Or.inr (exists_ne_idle_goto fun hk => nomatch hk)

/-- The waiting chunk goes on the wire. -/
theorem transmitDma {s : State ι} (h : Core s) {a : Agent ι} {size : ℕ}
    (ha : s.pc a = .transmitDma size) : Core (Usart.transmitDma s a size) := by
  obtain ⟨hpos, hsize, hready⟩ := h.waiting a size ha
  have hawaits : (s.pc a).isTransmitDma = true := by
    rw [ha]
    rfl
  have hnone : ∀ b, (Function.update s.pc a Pc.idle b).isTransmitDma = false := by
    intro b
    by_cases hba : b = a
    · rw [hba, Function.update_self]
      rfl
    · rw [Function.update_of_ne hba, Bool.eq_false_iff]
      exact fun hb => hba (h.single b a hb hawaits)
  simp only [Usart.transmitDma, hready]
  constructor
  · exact h.assertFailed
  · exact h.overwritten
  · exact h.length
  · exact h.filled_le
  · exact h.stream
  · exact fun _ => ⟨hsize ▸ hpos, hsize, hnone⟩
  · intro b size' hb
    have hidle := hnone b
    rw [show Function.update s.pc a Pc.idle b = .transmitDma size' from hb] at hidle
    cases hidle
  · intro b c hb
    exact absurd ((hnone b).symm.trans hb) Bool.false_ne_true
  · intro hready'
    cases hready'
  · exact fun _ => Or.inl rfl

/-- The chunk has been sent, and the interrupt goes on with the next one. -/
theorem transferComplete {s : State ι} (h : Core s) (hbusy : s.gState = .BUSY_TX) :
    Core
      ({ s with
        wire := s.wire ++ s.txDmaBuffer.take s.txXferSize
        filled := 0
        gState := .READY }.goto none .tmBufferRead) := by
  obtain ⟨hpos, hsize, hnone⟩ := h.busy hbusy
  have hidle : ∀ b, (Function.update s.pc none Pc.tmBufferRead b).isTransmitDma = false := by
    intro b
    by_cases hb : b = none
    · rw [hb, Function.update_self]
      rfl
    · rw [Function.update_of_ne hb]
      exact hnone b
  constructor
  · exact h.assertFailed
  · exact h.overwritten
  · exact h.length
  · exact Nat.zero_le _
  · change Exact s.accepted (s.wire ++ s.txDmaBuffer.take s.txXferSize ++ s.txDmaBuffer.take 0) _
    rw [hsize, List.take_zero, List.append_nil]
    exact h.stream
  · intro hbusy'
    cases hbusy'
  · intro b size hb
    have hwaits := hidle b
    rw [show Function.update s.pc none Pc.tmBufferRead b = .transmitDma size from hb] at hwaits
    cases hwaits
  · intro b c hb
    exact absurd ((hidle b).symm.trans hb) Bool.false_ne_true
  · exact fun _ _ => rfl
  · exact fun _ => Or.inr (exists_ne_idle_goto fun hk => nomatch hk)

theorem keep {s s' : State ι} {a : Action ι} (h : Core s) (ha : Undisturbed s a)
    (hs : step s a = some s') : Core s' := by
  have hrunning : ¬ s.assertFailed = true := by
    rw [h.assertFailed]
    exact Bool.false_ne_true
  unfold step at hs
  rw [if_neg hrunning] at hs
  cases a with
  | putTxData t buffer ret =>
      simp only at hs
      split at hs
      · rename_i hpc
        cases hs
        have hbusy : ∃ b, (s.goto (some t) .testGState).pc b ≠ .idle :=
          exists_ne_idle_goto fun hk => nomatch hk
        have hgoto : Core (s.goto (some t) .testGState) :=
          h.goto (by rw [hpc]; rfl) rfl fun _ => Or.inr hbusy
        exact hgoto.append (buffer.take ret) hbusy
      · cases hs
  | testGState t =>
      simp only at hs
      split at hs
      · rename_i hpc
        cases hs
        split
        · exact h.goto (by rw [hpc]; rfl) rfl
            fun _ => Or.inr (exists_ne_idle_goto fun hk => nomatch hk)
        · rename_i hready
          refine h.goto (by rw [hpc]; rfl) rfl fun _ => Or.inl ?_
          cases hg : s.gState with
          | READY => exact absurd hg hready
          | BUSY_TX => rfl
      · cases hs
  | tmBufferRead b =>
      simp only at hs
      split at hs
      · rename_i hpc
        cases hs
        exact h.tmBufferRead hpc ha
      · cases hs
  | transmitDma b =>
      simp only at hs
      split at hs
      · rename_i size hpc
        cases hs
        exact h.transmitDma hpc
      · cases hs
  | transferComplete =>
      simp only at hs
      split at hs
      · rename_i hbusy
        cases hs
        exact h.transferComplete hbusy.1
      · cases hs

/-- A chunk that is read on top of another one breaks the stream. -/
theorem undisturbed_of_tmBufferRead {s : State ι} (h : Core s) {a : Agent ι}
    (hi : Integrity (Usart.tmBufferRead s a)) (hne : s.txBuffer ≠ []) :
    s.gState = .READY ∧ ∀ b, (s.pc b).isTransmitDma = false := by
  have hoverwritten := hi.overwritten
  have hstream := hi.stream
  simp only [Usart.tmBufferRead] at hoverwritten hstream
  cases htake : s.txBuffer.take txDmaBufferSize with
  | nil =>
      rcases List.take_eq_nil_iff.1 htake with hzero | hempty
      · cases hzero
      · exact absurd hempty hne
  | cons x xs =>
      rw [htake] at hoverwritten hstream
      constructor
      · cases hg : s.gState with
        | READY => rfl
        | BUSY_TX =>
            simp only [State.goto, hg, decide_true, Bool.or_true] at hoverwritten
            cases hoverwritten
      · -- the bytes of a chunk still to be sent would be gone
        intro b
        cases hb : s.pc b with
        | transmitDma size =>
            obtain ⟨hpos, hsize, -⟩ := h.waiting b size hb
            simp only [State.goto, State.chunk, take_patch_zero] at hstream
            rw [← htake, List.append_assoc, List.take_append_drop, ← h.stream] at hstream
            have hlen := congrArg List.length hstream
            simp only [List.length_append, h.length_chunk] at hlen
            omega
        | _ => rfl

theorem leave {s s' : State ι} {a : Action ι} (h : Core s) (hs : step s a = some s')
    (hi : Integrity s') : Undisturbed s a := by
  cases a with
  | tmBufferRead b =>
      have hrunning : ¬ s.assertFailed = true := by
        rw [h.assertFailed]
        exact Bool.false_ne_true
      unfold step at hs
      rw [if_neg hrunning] at hs
      simp only at hs
      split at hs
      · cases hs
        exact h.undisturbed_of_tmBufferRead hi
      · cases hs
  | _ => trivial

end Core

/-- The output stream is whole in a run exactly when every chunk of it is read while no
transfer is in progress and no other chunk waits for its start. -/
theorem stream_integrity_iff {as : List (Action ι)} {t : State ι}
    (hrun : run step init as = some t) :
    Always step Integrity (init : State ι) as ↔ Along step Undisturbed (init : State ι) as :=
  always_iff_along_of_core step (K := Core) (fun _ h => h.integrity)
    (fun _ _ _ h ha hs => h.keep ha hs) (fun _ _ _ h hs hi => h.leave hs hi) .init hrun

end Stream

/-- Two tasks print, and both find `gState` ready. -/
def twoWriters : List (Action Bool) :=
  [ .putTxData false (List.replicate 20 65) 20, .putTxData true [66] 1, .testGState false,
    .testGState true, .tmBufferRead (some false), .transmitDma (some false),
    .tmBufferRead (some true), .transmitDma (some true) ]

theorem two_writers_assert :
    ∃ s, run step init twoWriters = some s ∧ ¬ Integrity s := by
  have hend : (run step init twoWriters).map (fun s => (s.assertFailed, s.overwritten)) =
      some (true, true) := by decide
  obtain ⟨s, hrun, heq⟩ := Option.map_eq_some_iff.1 hend
  refine ⟨s, hrun, ?_⟩
  intro h
  rw [h.assertFailed] at heq
  exact Bool.false_ne_true (congrArg Prod.fst heq)

/-- One task prints two chunks; the interrupt starts the second. -/
def oneWriter : List (Action Unit) :=
  [ .putTxData () (List.replicate 20 65) 20, .testGState (), .tmBufferRead (some ()),
    .transmitDma (some ()), .transferComplete, .tmBufferRead none, .transmitDma none,
    .transferComplete, .tmBufferRead none ]

theorem stream_integrity_one_writer : Always step Integrity init oneWriter := by
  have hsome : (run step init oneWriter).isSome = true := by decide
  obtain ⟨s, hrun⟩ := Option.isSome_iff_exists.1 hsome
  exact (stream_integrity_iff hrun).2 (by decide)

end Usart

end EspHosted
