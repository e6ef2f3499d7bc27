import EspHosted.Driver.Netdev
import EspHosted.Lib.Machine

/-!
# Opening an interface while traffic flows

One device; any number of tasks in `network_open` and `network_close`, and
`process_rx_task` in `netdev_rx`. Every assignment and every queue operation is a step
of its own. `Safe` is what `netdev_rx` relies on: an interface that is up has a queue
and a handle, and no pointer is followed that is `NULL` or leads to a freed handle.

`network_open` sets the device up before it publishes the handle, so a single
`network_open` already breaks this. `Ordered` lists the places where the order of the
steps matters. A `HandlePhase` is a log, but for the rule that a handle is closed once,
and only after `network_open` has returned it.
-/

namespace EspHosted

namespace Net

namespace Publish

open Machine

inductive HandlePhase where
  | unused
  | opening
  | opened
  | closing
  | cleared
  | freed
  deriving DecidableEq

/-- `struct network_handle`: whether `ndev` is this device, and whether there is a
callback. -/
structure Handle where
  phase : HandlePhase
  ndev : Bool
  netRxCallback : Bool

/-- The next statement of a task, with the handle it is about. -/
inductive Pc where
  | idle
  | setNdev (h : ℕ)
  | setCallback (h : ℕ)
  | testRxQ (h : ℕ)
  | xQueueReset (h : ℕ)
  | xQueueCreate (h : ℕ)
  | checkRxQ (h : ℕ)
  | setUp (h : ℕ)
  | publish (h : ℕ)
  | freeFailed (h : ℕ)
  | setDown (h : ℕ)
  | testClose (h : ℕ)
  | resetClose (h : ℕ)
  | clearHandle (h : ℕ)
  | freeHandle (h : ℕ)

/-- How far `netdev_rx` has come with a packet. -/
inductive RxPc where
  | idle
  | tested
  | enqueued
  | loaded (netHandle : Option ℕ)
  | calling (h : ℕ)
  deriving DecidableEq

/-- `rxQ` is the number of packets in the queue. -/
structure State (ι : Type) where
  state : NetdevState
  rxQ : Option ℕ
  netHandle : Option ℕ
  handles : ℕ → Handle
  next : ℕ
  pc : ι → Pc
  rx : RxPc
  faulted : Bool

/-- `advance` is the next statement of a task, with the outcome of `xQueueCreate` or the
test of the callback argument where there is one. -/
inductive Action (ι : Type) where
  | networkOpen (t : ι)
  | networkClose (t : ι) (h : ℕ)
  | advance (t : ι) (outcome : Bool)
  | netdevRx

section Step

variable {ι : Type}

def init : State ι where
  state := .DOWN
  rxQ := none
  netHandle := none
  handles := fun _ => { phase := .unused, ndev := false, netRxCallback := false }
  next := 0
  pc := fun _ => .idle
  rx := .idle
  faulted := false

/-- The next statement of `netdev_rx`; the callback reads one packet. -/
def stepRx (s : State ι) : Option (State ι) :=
  match s.rx with
  | .idle => some { s with rx := if s.state = .UP then .tested else .idle }
  | .tested =>
      match s.rxQ with
      | none => some { s with faulted := true }
      | some n =>
          if n < rxQueueSize then some { s with rxQ := some (n + 1), rx := .enqueued } else none
  | .enqueued => some { s with rx := .loaded s.netHandle }
  | .loaded none => some { s with faulted := true }
  | .loaded (some h) =>
      if (s.handles h).phase = .freed then some { s with faulted := true }
      else some { s with rx := if (s.handles h).netRxCallback then .calling h else .idle }
  | .calling h =>
      if (s.handles h).phase = .freed then some { s with faulted := true }
      else some { s with rxQ := s.rxQ.map fun n => n - 1, rx := .idle }

variable [DecidableEq ι]

def State.goto (s : State ι) (t : ι) (pc : Pc) : State ι :=
  { s with pc := Function.update s.pc t pc }

/-- A task goes on to `pc`, and the handle changes to `obj`. -/
def State.store (s : State ι) (t : ι) (pc : Pc) (h : ℕ) (obj : Handle) : State ι :=
  { s with handles := Function.update s.handles h obj, pc := Function.update s.pc t pc }

/-- The next statement of a task in `network_open` or `network_close`. -/
def advance (s : State ι) (t : ι) (outcome : Bool) : Option (State ι) :=
  match s.pc t with
  | .idle => none
  | .setNdev h => some (s.store t (.setCallback h) h { s.handles h with ndev := true })
  | .setCallback h =>
      some (s.store t (.testRxQ h) h { s.handles h with netRxCallback := outcome })
  | .testRxQ h => some (s.goto t (if s.rxQ.isSome then .xQueueReset h else .xQueueCreate h))
  | .xQueueReset h => some ({ s with rxQ := s.rxQ.map fun _ => 0 }.goto t (.publish h))
  | .xQueueCreate h =>
      some ({ s with rxQ := if outcome then some 0 else none }.goto t (.checkRxQ h))
  | .checkRxQ h => some (s.goto t (if s.rxQ.isSome then .setUp h else .freeFailed h))
  | .setUp h => some ({ s with state := .UP }.goto t (.publish h))
  | .publish h =>
      some ({ s with netHandle := some h }.store t .idle h { s.handles h with phase := .opened })
  | .freeFailed h => some (s.store t .idle h { s.handles h with phase := .freed })
  | .setDown h => some ({ s with state := .DOWN }.goto t (.testClose h))
  | .testClose h => some (s.goto t (if s.rxQ.isSome then .resetClose h else .clearHandle h))
  | .resetClose h => some ({ s with rxQ := s.rxQ.map fun _ => 0 }.goto t (.clearHandle h))
  | .clearHandle h =>
      some ({ s with netHandle := none }.store t (.freeHandle h) h
        { s.handles h with phase := .cleared })
  | .freeHandle h => some (s.store t .idle h { s.handles h with phase := .freed })

def step (s : State ι) (a : Action ι) : Option (State ι) :=
  if s.faulted then
    none
  else
    match a with
    | .networkOpen t =>
        match s.pc t with
        | .idle =>
            some ({ s with next := s.next + 1 }.store t (.setNdev s.next) s.next
              { phase := .opening, ndev := false, netRxCallback := false })
        | _ => none
    | .networkClose t h =>
        match s.pc t with
        | .idle =>
            if (s.handles h).phase = .opened then
              some (s.store t (.setDown h) h { s.handles h with phase := .closing })
            else
              none
        | _ => none
    | .advance t outcome => advance s t outcome
    | .netdevRx => stepRx s

end Step

/-- The handle a task works on. -/
def Pc.handle : Pc → Option ℕ
  | .idle => none
  | .setNdev h => some h
  | .setCallback h => some h
  | .testRxQ h => some h
  | .xQueueReset h => some h
  | .xQueueCreate h => some h
  | .checkRxQ h => some h
  | .setUp h => some h
  | .publish h => some h
  | .freeFailed h => some h
  | .setDown h => some h
  | .testClose h => some h
  | .resetClose h => some h
  | .clearHandle h => some h
  | .freeHandle h => some h

/-- The phase of the handle that a task works on. -/
def Pc.phase : Pc → HandlePhase
  | .setDown _ => .closing
  | .testClose _ => .closing
  | .resetClose _ => .closing
  | .clearHandle _ => .closing
  | .freeHandle _ => .cleared
  | _ => .opening

/-- `network_open` has set the device of the handle. -/
def Pc.linked : Pc → Bool
  | .setCallback _ => true
  | .testRxQ _ => true
  | .xQueueReset _ => true
  | .xQueueCreate _ => true
  | .checkRxQ _ => true
  | .setUp _ => true
  | .publish _ => true
  | .freeFailed _ => true
  | _ => false

/-- `ndev->net_handle` may be a handle of this phase. -/
def HandlePhase.published : HandlePhase → Bool
  | .opened => true
  | .closing => true
  | _ => false

/-- `netdev_rx` may still use a handle of this phase. -/
def HandlePhase.live : HandlePhase → Bool
  | .opened => true
  | .closing => true
  | .cleared => true
  | _ => false

/-- The handle that `netdev_rx` has loaded. -/
def RxPc.handle : RxPc → Option ℕ
  | .loaded netHandle => netHandle
  | .calling h => some h
  | _ => none

section Ordered

variable {ι : Type}

/-- An interface that is up has a queue and a live handle of this device, and no bad
pointer was followed. -/
structure Safe (s : State ι) : Prop where
  running : s.faulted = false
  up : s.state = .UP → s.rxQ.isSome ∧
    ∃ h, s.netHandle = some h ∧ (s.handles h).ndev = true ∧ (s.handles h).phase ≠ .freed

/-- The device is set up only with a queue and a published handle; the queue is lost and
the handle is cleared only while the device is down and no `netdev_rx` has yet to use it;
a handle is freed only when `netdev_rx` has not loaded it. -/
def OrderedAt (s : State ι) (outcome : Bool) : Pc → Prop
  | .setUp _ => s.rxQ.isSome ∧ s.netHandle.isSome
  | .xQueueCreate _ => outcome = false → s.state = .DOWN ∧ s.rx ≠ .tested
  | .clearHandle _ => s.state = .DOWN ∧ s.rx ≠ .tested ∧ s.rx ≠ .enqueued
  | .freeHandle h => s.rx ≠ .loaded (some h) ∧ s.rx ≠ .calling h
  | _ => True

def Ordered (s : State ι) : Action ι → Prop
  | .advance t outcome => OrderedAt s outcome (s.pc t)
  | _ => True

instance (s : State ι) (outcome : Bool) : DecidablePred (OrderedAt s outcome)
  | .idle => isTrue trivial
  | .setNdev _ => isTrue trivial
  | .setCallback _ => isTrue trivial
  | .testRxQ _ => isTrue trivial
  | .xQueueReset _ => isTrue trivial
  | .xQueueCreate _ => inferInstanceAs (Decidable (_ → _))
  | .checkRxQ _ => isTrue trivial
  | .setUp _ => inferInstanceAs (Decidable (_ ∧ _))
  | .publish _ => isTrue trivial
  | .freeFailed _ => isTrue trivial
  | .setDown _ => isTrue trivial
  | .testClose _ => isTrue trivial
  | .resetClose _ => isTrue trivial
  | .clearHandle _ => inferInstanceAs (Decidable (_ ∧ _))
  | .freeHandle _ => inferInstanceAs (Decidable (_ ∧ _))

instance (s : State ι) : DecidablePred (Ordered s)
  | .networkOpen _ => isTrue trivial
  | .networkClose _ _ => isTrue trivial
  | .advance t outcome => inferInstanceAs (Decidable (OrderedAt s outcome (s.pc t)))
  | .netdevRx => isTrue trivial

/-- What an ordered run keeps. -/
structure Core (s : State ι) : Prop where
  running : s.faulted = false
  up : s.state = .UP → s.rxQ.isSome ∧ s.netHandle.isSome
  tested : s.rx = .tested → s.rxQ.isSome ∧ s.netHandle.isSome
  enqueued : s.rx = .enqueued → s.netHandle.isSome
  loaded : s.rx ≠ .loaded none
  published : ∀ h, s.netHandle = some h →
    (s.handles h).phase.published = true ∧ (s.handles h).ndev = true
  live : ∀ h, s.rx.handle = some h → (s.handles h).phase.live = true
  held : ∀ t h, (s.pc t).handle = some h →
    (s.handles h).phase = (s.pc t).phase ∧
      ((s.pc t).linked = true → (s.handles h).ndev = true)
  distinct : ∀ t u h, (s.pc t).handle = some h → (s.pc u).handle = some h → t = u
  fresh : ∀ h, s.next ≤ h → (s.handles h).phase = .unused

namespace Core

theorem init : Core (Publish.init : State ι) := by
  constructor
  · rfl
  · intro h
    cases h
  · intro h
    cases h
  · intro h
    cases h
  · intro h
    cases h
  · intro h hh
    cases hh
  · intro h hh
    cases hh
  · intro t h hh
    cases hh
  · intro t u h hh
    cases hh
  · exact fun _ _ => rfl

theorem safe {s : State ι} (h : Core s) : Safe s := by
  constructor
  · exact h.running
  · intro hup
    obtain ⟨hrxQ, hhandle⟩ := h.up hup
    obtain ⟨hdl, hhdl⟩ := Option.isSome_iff_exists.1 hhandle
    obtain ⟨hphase, hndev⟩ := h.published hdl hhdl
    refine ⟨hrxQ, hdl, hhdl, hndev, ?_⟩
    intro hfreed
    rw [hfreed] at hphase
    cases hphase

/-- A handle that is in use has an address below the next one. -/
theorem lt_next {s : State ι} (h : Core s) {hdl : ℕ}
    (hphase : (s.handles hdl).phase ≠ .unused) : hdl < s.next := by
  by_contra hge
  exact hphase (h.fresh hdl (Nat.le_of_not_lt hge))

variable [DecidableEq ι]

/-- One task moves on, and one handle changes with it. -/
theorem store {s : State ι} (h : Core s) {t : ι} {pc : Pc} {hdl : ℕ} {obj : Handle}
    (hlt : hdl < s.next) (hother : ∀ u, u ≠ t → (s.pc u).handle ≠ some hdl)
    (hpc : ∀ hdl', pc.handle = some hdl' → hdl' = hdl ∧ obj.phase = pc.phase ∧
      (pc.linked = true → obj.ndev = true))
    (hpub : s.netHandle = some hdl → obj.phase.published = true ∧ obj.ndev = true)
    (hlive : s.rx.handle = some hdl → obj.phase.live = true) :
    Core (s.store t pc hdl obj) := by
  constructor
  · exact h.running
  · exact h.up
  · exact h.tested
  · exact h.enqueued
  · exact h.loaded
  · intro hdl' hh
    simp only [State.store]
    by_cases heq : hdl' = hdl
    · subst heq
      rw [Function.update_self]
      exact hpub hh
    · rw [Function.update_of_ne heq]
      exact h.published hdl' hh
  · intro hdl' hh
    simp only [State.store]
    by_cases heq : hdl' = hdl
    · subst heq
      rw [Function.update_self]
      exact hlive hh
    · rw [Function.update_of_ne heq]
      exact h.live hdl' hh
  · intro u hdl' hh
    simp only [State.store] at hh ⊢
    by_cases hu : u = t
    · subst hu
      rw [Function.update_self] at hh ⊢
      obtain ⟨rfl, hphase, hndev⟩ := hpc hdl' hh
      rw [Function.update_self]
      exact ⟨hphase, hndev⟩
    · rw [Function.update_of_ne hu] at hh ⊢
      have hne : hdl' ≠ hdl := by
        intro heq
        rw [heq] at hh
        exact hother u hu hh
      rw [Function.update_of_ne hne]
      exact h.held u hdl' hh
  · intro u v hdl' hu hv
    simp only [State.store] at hu hv
    by_cases hut : u = t
    · by_cases hvt : v = t
      · rw [hut, hvt]
      · rw [hut, Function.update_self] at hu
        rw [Function.update_of_ne hvt, (hpc hdl' hu).1] at hv
        exact absurd hv (hother v hvt)
    · rw [Function.update_of_ne hut] at hu
      by_cases hvt : v = t
      · rw [hvt, Function.update_self] at hv
        rw [(hpc hdl' hv).1] at hu
        exact absurd hu (hother u hut)
      · rw [Function.update_of_ne hvt] at hv
        exact h.distinct u v hdl' hu hv
  · intro hdl' hle
    have hne : hdl' ≠ hdl := fun heq => Nat.not_le_of_lt hlt (heq ▸ hle)
    simp only [State.store, Function.update_of_ne hne]
    exact h.fresh hdl' hle

omit [DecidableEq ι] in
theorem other {s : State ι} (h : Core s) {t : ι} {hdl : ℕ}
    (ht : (s.pc t).handle = some hdl) (u : ι) (hu : u ≠ t) : (s.pc u).handle ≠ some hdl :=
  fun hh => hu (h.distinct u t hdl hh ht)

omit [DecidableEq ι] in
theorem not_published {s : State ι} (h : Core s) {hdl : ℕ}
    (hphase : (s.handles hdl).phase.published = false) : s.netHandle ≠ some hdl := by
  intro hh
  rw [(h.published hdl hh).1] at hphase
  cases hphase

omit [DecidableEq ι] in
theorem not_live {s : State ι} (h : Core s) {hdl : ℕ}
    (hphase : (s.handles hdl).phase.live = false) : s.rx.handle ≠ some hdl := by
  intro hh
  rw [h.live hdl hh] at hphase
  cases hphase

/-- A task in `network_open` or `network_close` goes on with its handle. -/
theorem work {s : State ι} (h : Core s) {t : ι} {pc : Pc} {hdl : ℕ} {obj : Handle}
    (ht : (s.pc t).handle = some hdl)
    (hpc : ∀ hdl', pc.handle = some hdl' → hdl' = hdl ∧ obj.phase = pc.phase ∧
      (pc.linked = true → obj.ndev = true))
    (hpub : s.netHandle = some hdl → obj.phase.published = true ∧ obj.ndev = true)
    (hlive : s.rx.handle = some hdl → obj.phase.live = true) :
    Core (s.store t pc hdl obj) := by
  have hlt : hdl < s.next := by
    apply h.lt_next
    rw [(h.held t hdl ht).1]
    cases s.pc t <;> exact fun hphase => nomatch hphase
  exact h.store hlt (h.other ht) hpc hpub hlive

/-- A task goes on, and its handle stays as it is. -/
theorem goto {s : State ι} (h : Core s) {t : ι} {old pc : Pc} {hdl : ℕ} (ht : s.pc t = old)
    (hhdl : old.handle = some hdl) (hlinked : pc.linked = old.linked)
    (hpc : pc.handle = some hdl) (hphase : pc.phase = old.phase) : Core (s.goto t pc) := by
  subst ht
  obtain ⟨hold, hndev⟩ := h.held t hdl hhdl
  have hstore : s.goto t pc = s.store t pc hdl (s.handles hdl) := by
    rw [State.store, Function.update_eq_self]
    rfl
  rw [hstore]
  refine h.work hhdl ?_ (h.published hdl) (h.live hdl)
  intro hdl' hh
  rw [hpc] at hh
  cases hh
  exact ⟨rfl, hold.trans hphase.symm, fun hpc' => hndev (hlinked.symm.trans hpc')⟩

omit [DecidableEq ι] in
theorem setRxQ {s : State ι} (h : Core s) {rxQ : Option ℕ}
    (hrxQ : rxQ = none → s.state = .DOWN ∧ s.rx ≠ .tested ∨ s.rxQ = none) :
    Core { s with rxQ := rxQ } := by
  cases rxQ with
  | some n =>
      exact ⟨h.running, fun hup => ⟨rfl, (h.up hup).2⟩, fun hrx => ⟨rfl, (h.tested hrx).2⟩,
        h.enqueued, h.loaded, h.published, h.live, h.held, h.distinct, h.fresh⟩
  | none =>
      rcases hrxQ rfl with ⟨hdown, hrx⟩ | hnone
      · refine ⟨h.running, ?_, fun hrx' => absurd hrx' hrx, h.enqueued, h.loaded, h.published,
          h.live, h.held, h.distinct, h.fresh⟩
        intro hup
        rw [hdown] at hup
        cases hup
      · rw [← hnone]
        exact h

omit [DecidableEq ι] in
theorem reset {s : State ι} (h : Core s) (f : ℕ → ℕ) : Core { s with rxQ := s.rxQ.map f } := by
  refine h.setRxQ fun hnone => Or.inr ?_
  cases hrxQ : s.rxQ with
  | none => rfl
  | some n =>
      rw [hrxQ] at hnone
      cases hnone

omit [DecidableEq ι] in
theorem setDown {s : State ι} (h : Core s) : Core { s with state := .DOWN } := by
  refine ⟨h.running, ?_, h.tested, h.enqueued, h.loaded, h.published, h.live, h.held,
    h.distinct, h.fresh⟩
  intro hup
  cases hup

omit [DecidableEq ι] in
theorem setUp {s : State ι} (h : Core s) (hready : s.rxQ.isSome ∧ s.netHandle.isSome) :
    Core { s with state := .UP } :=
  ⟨h.running, fun _ => hready, h.tested, h.enqueued, h.loaded, h.published, h.live, h.held,
    h.distinct, h.fresh⟩

omit [DecidableEq ι] in
theorem clear {s : State ι} (h : Core s) (hdown : s.state = .DOWN) (htested : s.rx ≠ .tested)
    (henqueued : s.rx ≠ .enqueued) : Core { s with netHandle := none } := by
  refine ⟨h.running, ?_, fun hrx => absurd hrx htested, fun hrx => absurd hrx henqueued,
    h.loaded, ?_, h.live, h.held, h.distinct, h.fresh⟩
  · intro hup
    rw [hdown] at hup
    cases hup
  · intro hdl hh
    cases hh

omit [DecidableEq ι] in
theorem publish {s : State ι} (h : Core s) (hdl : ℕ)
    (hhdl : (s.handles hdl).phase.published = true ∧ (s.handles hdl).ndev = true) :
    Core { s with netHandle := some hdl } := by
  refine ⟨h.running, fun hup => ⟨(h.up hup).1, rfl⟩, fun hrx => ⟨(h.tested hrx).1, rfl⟩,
    fun _ => rfl, h.loaded, ?_, h.live, h.held, h.distinct, h.fresh⟩
  intro hdl' hh
  cases hh
  exact hhdl

/-- Every statement of `network_open` and `network_close` keeps the invariant, in an
ordered run. -/
theorem advance {s s' : State ι} {t : ι} {outcome : Bool} (h : Core s)
    (ha : Ordered s (.advance t outcome)) (hs : Publish.advance s t outcome = some s') :
    Core s' := by
  have hheld := h.held t
  simp only [Publish.advance] at hs
  simp only [Ordered] at ha
  cases hpc : s.pc t with
  | idle =>
      rw [hpc] at hs
      cases hs
  | setNdev hdl =>
      rw [hpc] at hs hheld
      obtain ⟨hphase, -⟩ := hheld hdl rfl
      cases hs
      refine h.work (by rw [hpc]; rfl) ?_ ?_ (h.live hdl)
      · intro hdl' hh
        cases hh
        exact ⟨rfl, hphase, fun _ => rfl⟩
      · exact fun hh => absurd hh (h.not_published (by rw [hphase]; rfl))
  | setCallback hdl =>
      rw [hpc] at hs hheld
      obtain ⟨hphase, hndev⟩ := hheld hdl rfl
      cases hs
      refine h.work (by rw [hpc]; rfl) ?_ (h.published hdl) (h.live hdl)
      intro hdl' hh
      cases hh
      exact ⟨rfl, hphase, fun _ => hndev rfl⟩
  | testRxQ hdl | checkRxQ hdl | testClose hdl =>
      rw [hpc] at hs
      cases hs
      split
      · exact h.goto hpc rfl rfl rfl rfl
      · exact h.goto hpc rfl rfl rfl rfl
  | xQueueReset hdl | resetClose hdl =>
      rw [hpc] at hs
      cases hs
      exact (h.reset fun _ => 0).goto hpc rfl rfl rfl rfl
  | xQueueCreate hdl =>
      rw [hpc] at hs ha
      cases hs
      have hcreate : Core { s with rxQ := if outcome then some 0 else none } := by
        cases outcome with
        | true => exact h.setRxQ fun hnone => nomatch hnone
        | false => exact h.setRxQ fun _ => Or.inl (ha rfl)
      exact hcreate.goto hpc rfl rfl rfl rfl
  | setUp hdl =>
      rw [hpc] at hs ha
      cases hs
      exact (h.setUp ha).goto hpc rfl rfl rfl rfl
  | publish hdl =>
      rw [hpc] at hs hheld
      obtain ⟨hphase, hndev⟩ := hheld hdl rfl
      cases hs
      have hopened : Core (s.store t .idle hdl { s.handles hdl with phase := .opened }) :=
        h.work (by rw [hpc]; rfl) (fun _ hh => nomatch hh) (fun _ => ⟨rfl, hndev rfl⟩)
          fun _ => rfl
      refine hopened.publish hdl ?_
      simp only [State.store, Function.update_self]
      exact ⟨rfl, hndev rfl⟩
  | freeFailed hdl =>
      rw [hpc] at hs hheld
      obtain ⟨hphase, -⟩ := hheld hdl rfl
      cases hs
      refine h.work (by rw [hpc]; rfl) (fun _ hh => nomatch hh) ?_ ?_
      · exact fun hh => absurd hh (h.not_published (by rw [hphase]; rfl))
      · exact fun hh => absurd hh (h.not_live (by rw [hphase]; rfl))
  | setDown hdl =>
      rw [hpc] at hs
      cases hs
      exact h.setDown.goto hpc rfl rfl rfl rfl
  | clearHandle hdl =>
      rw [hpc] at hs ha
      cases hs
      refine (h.clear ha.1 ha.2.1 ha.2.2).work (by rw [hpc]; rfl) ?_ (fun hh => nomatch hh)
        fun _ => rfl
      intro hdl' hh
      cases hh
      exact ⟨rfl, rfl, fun hlinked => nomatch hlinked⟩
  | freeHandle hdl =>
      rw [hpc] at hs ha hheld
      obtain ⟨hphase, -⟩ := hheld hdl rfl
      cases hs
      refine h.work (by rw [hpc]; rfl) (fun _ hh => nomatch hh) ?_ ?_
      · exact fun hh => absurd hh (h.not_published (by rw [hphase]; rfl))
      · intro hh
        obtain ⟨hloaded, hcalling⟩ : s.rx ≠ .loaded (some hdl) ∧ s.rx ≠ .calling hdl := ha
        cases hrx : s.rx with
        | loaded netHandle =>
            rw [hrx] at hh hloaded
            exact absurd (congrArg RxPc.loaded hh) hloaded
        | calling hdl' =>
            rw [hrx] at hh hcalling
            cases hh
            exact absurd rfl hcalling
        | _ =>
            rw [hrx] at hh
            cases hh

omit [DecidableEq ι] in
theorem setRx {s : State ι} (h : Core s) {rx : RxPc}
    (htested : rx = .tested → s.rxQ.isSome ∧ s.netHandle.isSome)
    (henqueued : rx = .enqueued → s.netHandle.isSome) (hloaded : rx ≠ .loaded none)
    (hlive : ∀ hdl, rx.handle = some hdl → (s.handles hdl).phase.live = true) :
    Core { s with rx := rx } :=
  ⟨h.running, h.up, htested, henqueued, hloaded, h.published, hlive, h.held, h.distinct,
    h.fresh⟩

omit [DecidableEq ι] in
theorem done {s : State ι} (h : Core s) : Core { s with rx := .idle } := by
  apply h.setRx
  · intro hrx
    cases hrx
  · intro hrx
    cases hrx
  · intro hrx
    cases hrx
  · intro hdl hrx
    cases hrx

omit [DecidableEq ι] in
theorem load {s : State ι} (h : Core s) (hhandle : s.netHandle.isSome) :
    Core { s with rx := .loaded s.netHandle } := by
  apply h.setRx
  · intro hrx
    cases hrx
  · intro hrx
    cases hrx
  · intro hrx
    cases hnone : s.netHandle with
    | none =>
        rw [hnone] at hhandle
        cases hhandle
    | some hdl =>
        rw [hnone] at hrx
        cases hrx
  · intro hdl hrx
    have hphase := (h.published hdl hrx).1
    cases hp : (s.handles hdl).phase with
    | opened => rfl
    | closing => rfl
    | _ =>
        rw [hp] at hphase
        cases hphase

omit [DecidableEq ι] in
/-- `netdev_rx` keeps the invariant and follows no bad pointer. -/
theorem rx {s s' : State ι} (h : Core s) (hs : stepRx s = some s') : Core s' := by
  have hlive : ∀ hdl, s.rx.handle = some hdl → (s.handles hdl).phase ≠ .freed := by
    intro hdl hrx hfreed
    have hphase := h.live hdl hrx
    rw [hfreed] at hphase
    cases hphase
  simp only [stepRx] at hs
  cases hrx : s.rx with
  | idle =>
      rw [hrx] at hs
      cases hs
      split
      · rename_i hup
        apply h.setRx
        · exact fun _ => h.up hup
        · intro hrx'
          cases hrx'
        · intro hrx'
          cases hrx'
        · intro hdl hrx'
          cases hrx'
      · exact h.done
  | tested =>
      obtain ⟨hrxQ, hhandle⟩ := h.tested hrx
      obtain ⟨n, hn⟩ := Option.isSome_iff_exists.1 hrxQ
      rw [hrx, hn] at hs
      simp only at hs
      split at hs
      · cases hs
        have hsent : Core { s with rxQ := some (n + 1) } := h.setRxQ fun hnone => nomatch hnone
        apply hsent.setRx
        · intro hrx'
          cases hrx'
        · exact fun _ => hhandle
        · intro hrx'
          cases hrx'
        · intro hdl hrx'
          cases hrx'
      · cases hs
  | enqueued =>
      have hhandle := h.enqueued hrx
      rw [hrx] at hs
      cases hs
      exact h.load hhandle
  | loaded netHandle =>
      cases netHandle with
      | none => exact absurd hrx h.loaded
      | some hdl =>
          have hheld : s.rx.handle = some hdl := by
            rw [hrx]
            rfl
          rw [hrx] at hs
          simp only [hlive hdl hheld, if_false] at hs
          cases hs
          split
          · apply h.setRx
            · intro hrx'
              cases hrx'
            · intro hrx'
              cases hrx'
            · intro hrx'
              cases hrx'
            · intro hdl' hrx'
              cases hrx'
              exact h.live hdl hheld
          · exact h.done
  | calling hdl =>
      have hheld : s.rx.handle = some hdl := by
        rw [hrx]
        rfl
      rw [hrx] at hs
      simp only [hlive hdl hheld, if_false] at hs
      cases hs
      exact (h.reset fun n => n - 1).done

/-- A new handle belongs to nobody. -/
theorem malloc {s : State ι} (h : Core s) {t : ι} {pc : Pc} {obj : Handle}
    (hpc : ∀ hdl, pc.handle = some hdl → hdl = s.next ∧ obj.phase = pc.phase ∧
      (pc.linked = true → obj.ndev = true)) :
    Core ({ s with next := s.next + 1 }.store t pc s.next obj) := by
  have hunused : (s.handles s.next).phase = .unused := h.fresh s.next (Nat.le_refl s.next)
  have hnext : Core { s with next := s.next + 1 } :=
    ⟨h.running, h.up, h.tested, h.enqueued, h.loaded, h.published, h.live, h.held, h.distinct,
      fun hdl hle => h.fresh hdl (Nat.le_of_succ_le hle)⟩
  refine hnext.store (Nat.lt_succ_self s.next) ?_ hpc ?_ ?_
  · intro u _ hh
    have hphase := (h.held u s.next hh).1
    rw [hunused] at hphase
    cases hu : s.pc u <;> rw [hu] at hphase <;> cases hphase
  · exact fun hh => absurd hh (h.not_published (by rw [hunused]; rfl))
  · exact fun hh => absurd hh (h.not_live (by rw [hunused]; rfl))

/-- A handle that is open is on no task's hands, and may be closed. -/
theorem close {s : State ι} (h : Core s) {t : ι} {hdl : ℕ}
    (hopened : (s.handles hdl).phase = .opened) :
    Core (s.store t (.setDown hdl) hdl { s.handles hdl with phase := .closing }) := by
  refine h.store ?_ ?_ ?_ ?_ fun _ => rfl
  · apply h.lt_next
    rw [hopened]
    exact fun hphase => nomatch hphase
  · intro u _ hh
    have hphase := (h.held u hdl hh).1
    rw [hopened] at hphase
    cases hu : s.pc u <;> rw [hu] at hphase <;> cases hphase
  · intro hdl' hh
    cases hh
    exact ⟨rfl, rfl, fun hlinked => nomatch hlinked⟩
  · exact fun hh => ⟨rfl, (h.published hdl hh).2⟩

/-- A step of an ordered run keeps the invariant. -/
theorem keep {s s' : State ι} {a : Action ι} (h : Core s) (ha : Ordered s a)
    (hs : step s a = some s') : Core s' := by
  have hrunning : ¬ s.faulted = true := by
    rw [h.running]
    exact Bool.false_ne_true
  unfold step at hs
  rw [if_neg hrunning] at hs
  cases a with
  | networkOpen t =>
      simp only at hs
      split at hs
      · cases hs
        apply h.malloc
        intro hdl hh
        cases hh
        exact ⟨rfl, rfl, fun hlinked => nomatch hlinked⟩
      · cases hs
  | networkClose t hdl =>
      simp only at hs
      split at hs
      · split at hs
        · rename_i hopened
          cases hs
          exact h.close hopened
        · cases hs
      · cases hs
  | advance t outcome => exact h.advance ha hs
  | netdevRx => exact h.rx hs

end Core

variable [DecidableEq ι]

/-- In every ordered run, an interface that is up has its queue and its handle, and
`netdev_rx` follows no bad pointer. -/
theorem safe_of_ordered {as : List (Action ι)} (h : Along step Ordered (init : State ι) as) :
    Always step Safe (init : State ι) as := by
  have hinv : Always step Core (init : State ι) as :=
    always_of_along step (fun _ _ _ hi ha hs => hi.keep ha hs) .init h
  exact hinv.mono step fun _ hi => hi.safe

end Ordered

/-- One task opens the interface, and a packet comes right after the device was set up. -/
def openSchedule : List (Action Unit) :=
  .networkOpen () :: List.replicate 6 (.advance () true) ++ List.replicate 4 .netdevRx

theorem open_follows_null :
    ∃ s, run step init openSchedule = some s ∧ ¬ Safe s := by
  have hend : (run step init openSchedule).map (fun s => (s.netHandle, s.faulted)) =
      some (none, true) := by decide
  obtain ⟨s, hrun, heq⟩ := Option.map_eq_some_iff.1 hend
  refine ⟨s, hrun, ?_⟩
  intro h
  rw [h.running] at heq
  exact Bool.false_ne_true (congrArg Prod.snd heq)

/-- Two tasks open the interface: the second finds the queue of the first and publishes
its handle before the first sets the device up. A packet comes, and the interface is
closed. -/
def overlapSchedule : List (Action Bool) :=
  .networkOpen false :: .networkOpen true ::
    List.replicate 5 (.advance false true) ++ List.replicate 5 (.advance true true) ++
      List.replicate 2 (.advance false true) ++ List.replicate 5 .netdevRx ++
        .networkClose true 0 :: List.replicate 5 (.advance true true)

theorem safe_overlap :
    (run step init overlapSchedule).isSome ∧ Always step Safe init overlapSchedule := by
  constructor
  · decide
  · exact safe_of_ordered (by decide)

end Publish

end Net

end EspHosted
