import EspHosted.Control.SerialIf
import EspHosted.Lib.Lifetime
import EspHosted.Lib.Machine
import Mathlib.Data.Finset.Card

/-!
# The table of serial handles

`serial_init` takes the slot at `conn_num` and `serial_close` clears the slot below it,
whoever closes. The two agree because `serial_init` stops one handle too early: there is
never a second one. A `serial_open` without a queue frees its handle and then stores
`DESTROY` in it.
-/

namespace EspHosted

namespace Control

namespace SerialTable

open Machine SerialIf Lifetime

/-- The handles and what was done with their blocks so far; no branch reads the log. -/
structure State where
  statics : Statics
  log : List (LifeEvent ℕ)

/-- A call, made on a handle that is live. The allocation of `serial_init` is asserted. -/
inductive Action where
  | serialInit
  | serialOpen (serialHdl : ℕ) (queueCreate : Bool)
  | serialClose (serialHdl : ℕ)
  | serialRxHandler (ifNum : UInt8) (rxbuff : Message) (queueSend : Bool)

/-- `serial_close` looks for the queue, and frees the handle. -/
def serialCloseEvents (serialHdl : ℕ) : List (LifeEvent ℕ) := [.use serialHdl, .free serialHdl]

/-- `serial_open` stores the queue; without one, the store of `DESTROY` comes after
`serial_close`. -/
def serialOpenEvents (serialHdl : ℕ) (queueCreate : Bool) : List (LifeEvent ℕ) :=
  .use serialHdl ::
    if queueCreate then [.use serialHdl]
    else serialCloseEvents serialHdl ++ [.use serialHdl]

/-- `get_serial_handle` looks at the state of the handle in the slot. -/
def serialRxHandlerEvents (s : Statics) (ifNum : UInt8) : List (LifeEvent ℕ) :=
  if ifNum.toNat < maxSerialIntf then
    ((s.interfaceHandleG[ifNum.toNat]?.getD none).toList).map .use
  else
    []

def init : State where
  statics := .init
  log := []

def step (s : State) : Action → Option State
  | .serialInit =>
      (SerialIf.serialInit s.statics true).map fun r =>
        { statics := r.1, log := s.log ++ r.2.toList.map .use }
  | .serialOpen p queueCreate =>
      (s.statics.heap p).map fun h =>
        { statics := (SerialIf.serialOpen s.statics p h queueCreate).2
          log := s.log ++ serialOpenEvents p queueCreate }
  | .serialClose p =>
      (s.statics.heap p).map fun _ =>
        { statics := SerialIf.serialClose s.statics p, log := s.log ++ serialCloseEvents p }
  | .serialRxHandler ifNum rxbuff queueSend =>
      some
        { statics := (SerialIf.serialRxHandler s.statics ifNum rxbuff queueSend).2
          log := s.log ++ serialRxHandlerEvents s.statics ifNum }

/-- The addresses of the live handles. -/
def live (s : Statics) : Finset ℕ := {p ∈ Finset.range s.next | (s.heap p).isSome}

/-- Every slot is empty or holds the live handle with its number, `conn_num` counts the
live handles, and no handle is touched after it was released. -/
structure Consistent (s : State) : Prop where
  slots : ∀ i p, s.statics.interfaceHandleG[i]? = some (some p) →
    ∃ h, s.statics.heap p = some h ∧ h.ifNum.toNat = i ∧
      ∀ q h', s.statics.heap q = some h' → h'.ifNum = h.ifNum → q = p
  connNum : s.statics.connNum = (live s.statics).card
  released : Orderly s.log

/-- `serial_init` returns a handle exactly when there is room for one, and a frame changes
the active handle of its interface at most. -/
def Answers (s : State) : Action → Prop
  | .serialInit =>
      (∃ r p, SerialIf.serialInit s.statics true = some (r, some p)) ↔
        (live s.statics).card < maxSerialIntf
  | .serialRxHandler ifNum rxbuff queueSend =>
      ∀ p, (SerialIf.serialRxHandler s.statics ifNum rxbuff queueSend).2.heap p ≠
          s.statics.heap p →
        ∃ h, s.statics.heap p = some h ∧ h.state = .ACTIVE ∧ h.ifNum = ifNum
  | _ => True

/-- A step answers as it should and leaves the table consistent. -/
def Served (s : State) (a : Action) : Prop :=
  Answers s a ∧ ∀ s', step s a = some s' → Consistent s'

/-- There is no other handle at a `serial_init`, and a `serial_open` gets its queue. -/
def Permitted (s : State) : Action → Prop
  | .serialInit => live s.statics = ∅
  | .serialOpen _ queueCreate => queueCreate = true
  | _ => True

instance (s : State) : DecidablePred (Permitted s)
  | .serialInit => inferInstanceAs (Decidable (live s.statics = ∅))
  | .serialOpen _ queueCreate => inferInstanceAs (Decidable (queueCreate = true))
  | .serialClose _ => isTrue trivial
  | .serialRxHandler _ _ _ => isTrue trivial

theorem serialInit_of_room {s : Statics} (h : s.connNum + 1 < maxSerialIntf) :
    SerialIf.serialInit s true =
      some
        ( { interfaceHandleG := s.interfaceHandleG.set s.connNum (some s.next)
            connNum := s.connNum + 1
            heap := Function.update s.heap s.next
              (some
                { ifType := espSerialIf
                  ifNum := UInt8.ofNat s.connNum
                  state := .INIT
                  queue := none })
            next := s.next + 1 },
          some s.next ) := by
  rw [SerialIf.serialInit, if_pos h, if_pos rfl]

/-- No handle, or one in the first slot. -/
inductive Slots (s : Statics) : Prop
  | empty (hconn : s.connNum = 0) (hslots : s.interfaceHandleG = [none, none])
      (hheap : ∀ p, s.heap p = none) : Slots s
  | single {p : ℕ} {h : Handle} (hconn : s.connNum = 1)
      (hslots : s.interfaceHandleG = [some p, none]) (hheap : s.heap p = some h)
      (hnum : h.ifNum = 0) (hother : ∀ q, q ≠ p → s.heap q = none) (hlt : p < s.next) : Slots s

/-- What permitted steps keep. -/
structure Core (s : State) : Prop where
  slots : Slots s.statics
  freed : ∀ p, .free p ∈ s.log → s.statics.heap p = none ∧ p < s.statics.next
  released : Orderly s.log

namespace Slots

variable {s : Statics}

theorem live_empty (hheap : ∀ p, s.heap p = none) : live s = ∅ := by
  rw [live, Finset.filter_eq_empty_iff]
  intro p _
  rw [hheap p]
  exact Bool.false_ne_true

theorem live_single {p : ℕ} {h : Handle} (hheap : s.heap p = some h)
    (hother : ∀ q, q ≠ p → s.heap q = none) (hlt : p < s.next) : live s = {p} := by
  ext q
  rw [live, Finset.mem_filter, Finset.mem_range, Finset.mem_singleton]
  constructor
  · intro hq
    by_contra hne
    rw [hother q hne] at hq
    exact Bool.false_ne_true hq.2
  · intro hq
    rw [hq, hheap]
    exact ⟨hlt, rfl⟩

/-- A live handle is the one in the first slot. -/
theorem single_of_live (h : Slots s) {p : ℕ} {hdl : Handle} (hlive : s.heap p = some hdl) :
    s.connNum = 1 ∧ s.interfaceHandleG = [some p, none] ∧ hdl.ifNum = 0 ∧
      (∀ q, q ≠ p → s.heap q = none) ∧ p < s.next := by
  cases h with
  | empty _ _ hheap =>
      rw [hheap p] at hlive
      cases hlive
  | @single q hdl' hconn hslots hheap hnum hother hlt =>
      have hpq : p = q := by
        by_contra hne
        rw [hother p hne] at hlive
        cases hlive
      subst hpq
      have heq : hdl = hdl' := Option.some.inj (hlive.symm.trans hheap)
      rw [heq]
      exact ⟨hconn, hslots, hnum, hother, hlt⟩

/-- A live handle changes, but not its number. -/
theorem update (h : Slots s) {p : ℕ} {hdl hdl' : Handle} (hlive : s.heap p = some hdl)
    (hnum : hdl'.ifNum = hdl.ifNum) :
    Slots { s with heap := Function.update s.heap p (some hdl') } := by
  obtain ⟨hconn, hslots, hzero, hother, hlt⟩ := h.single_of_live hlive
  refine .single hconn hslots (Function.update_self _ _ _) (hnum.trans hzero) ?_ hlt
  intro q hq
  exact (Function.update_of_ne hq _ _).trans (hother q hq)

end Slots

namespace Core

variable {s : State}

theorem init : Core SerialTable.init := by
  constructor
  · exact .empty rfl rfl fun _ => rfl
  · intro p hp
    cases hp
  · exact Orderly.nil

theorem consistent (h : Core s) : Consistent s := by
  cases h.slots with
  | empty hconn hslots hheap =>
      constructor
      · intro i p hp
        rw [hslots] at hp
        match i with
        | 0 => cases hp
        | 1 => cases hp
      · rw [hconn, Slots.live_empty hheap, Finset.card_empty]
      · exact h.released
  | @single p hdl hconn hslots hheap hnum hother hlt =>
      constructor
      · intro i q hq
        rw [hslots] at hq
        match i with
        | 0 =>
            cases hq
            refine ⟨hdl, hheap, ?_, ?_⟩
            · rw [hnum]
              rfl
            · intro r h' hr _
              by_contra hne
              rw [hother r hne] at hr
              cases hr
        | 1 => cases hq
      · rw [hconn, Slots.live_single hheap hother hlt, Finset.card_singleton]
      · exact h.released

/-- A step that uses live handles only, and frees none. -/
theorem uses (h : Core s) {statics : Statics} (hslots : Slots statics)
    (hnext : s.statics.next ≤ statics.next) {ps : List ℕ}
    (hps : ∀ p ∈ ps, .free p ∉ s.log)
    (hfreed : ∀ p, .free p ∈ s.log → statics.heap p = none) :
    Core { statics := statics, log := s.log ++ ps.map .use } := by
  constructor
  · exact hslots
  · intro p hp
    rcases List.mem_append.1 hp with hold | hnew
    · exact ⟨hfreed p hold, Nat.lt_of_lt_of_le (h.freed p hold).2 hnext⟩
    · obtain ⟨q, -, hq⟩ := List.mem_map.1 hnew
      cases hq
  · refine h.released.append (orderly_uses ps) ?_
    intro e he
    obtain ⟨p, hp, rfl⟩ := List.mem_map.1 he
    exact hps p hp

theorem not_freed_of_live (h : Core s) {p : ℕ} {hdl : Handle}
    (hlive : s.statics.heap p = some hdl) : .free p ∉ s.log := by
  intro hp
  rw [(h.freed p hp).1] at hlive
  cases hlive

theorem not_freed_next (h : Core s) : .free s.statics.next ∉ s.log := fun hp =>
  Nat.lt_irrefl _ (h.freed _ hp).2

/-- The first handle. -/
theorem serialInit (h : Core s) (hnone : live s.statics = ∅) :
    ∃ r, SerialIf.serialInit s.statics true = some (r, some s.statics.next) ∧
      Core { statics := r, log := s.log ++ [s.statics.next].map .use } := by
  cases h.slots with
  | single _ _ hheap _ hother hlt =>
      rw [Slots.live_single hheap hother hlt] at hnone
      exact absurd hnone (Finset.singleton_ne_empty _)
  | empty hconn hslots hheap =>
      have hroom : s.statics.connNum + 1 < maxSerialIntf := by
        rw [hconn]
        decide
      refine ⟨_, serialInit_of_room hroom, h.uses ?_ (Nat.le_succ _) ?_ ?_⟩
      · refine .single ?_ ?_ (Function.update_self _ _ _) ?_ ?_ (Nat.lt_succ_self _)
        · rw [hconn]
        · rw [hconn, hslots]
          rfl
        · rw [hconn]
          rfl
        · intro q hq
          exact (Function.update_of_ne hq _ _).trans (hheap q)
      · intro p hp
        rw [List.mem_singleton.1 hp]
        exact h.not_freed_next
      · intro p hp
        have hne : p ≠ s.statics.next := (h.freed p hp).2.ne
        exact (Function.update_of_ne hne _ _).trans (hheap p)

/-- A live handle is used, and changes apart from its number. -/
theorem update (h : Core s) {p : ℕ} {hdl hdl' : Handle} (hlive : s.statics.heap p = some hdl)
    (hnum : hdl'.ifNum = hdl.ifNum) {ps : List ℕ} (hps : ∀ q ∈ ps, .free q ∉ s.log) :
    Core
      { statics := { s.statics with heap := Function.update s.statics.heap p (some hdl') }
        log := s.log ++ ps.map .use } := by
  refine h.uses (h.slots.update hlive hnum) ?_ hps ?_
  · exact Nat.le_refl _
  · intro q hq
    have hne : q ≠ p := fun heq => h.not_freed_of_live hlive (heq ▸ hq)
    exact (Function.update_of_ne hne _ _).trans (h.freed q hq).1

theorem serialClose (h : Core s) {p : ℕ} {hdl : Handle} (hlive : s.statics.heap p = some hdl) :
    Core
      { statics := SerialIf.serialClose s.statics p, log := s.log ++ serialCloseEvents p } := by
  obtain ⟨hconn, hslots, -, hother, hlt⟩ := h.slots.single_of_live hlive
  have hnone : ∀ q, Function.update s.statics.heap p none q = none := by
    intro q
    by_cases hq : q = p
    · rw [hq, Function.update_self]
    · exact (Function.update_of_ne hq _ _).trans (hother q hq)
  constructor
  · refine .empty ?_ ?_ hnone
    · rw [SerialIf.serialClose, hconn]
    · rw [SerialIf.serialClose, hconn, hslots]
      rfl
  · intro q hq
    refine ⟨hnone q, ?_⟩
    rcases List.mem_append.1 hq with hold | hnew
    · exact (h.freed q hold).2
    · simp only [serialCloseEvents, List.mem_cons, List.not_mem_nil, or_false] at hnew
      rcases hnew with hnew | hnew
      · cases hnew
      · cases hnew
        exact hlt
  · refine h.released.append ?_ ?_
    · simp [serialCloseEvents, Orderly]
    · intro e he
      simp only [serialCloseEvents, List.mem_cons, List.not_mem_nil, or_false] at he
      rcases he with rfl | rfl
      · exact h.not_freed_of_live hlive
      · exact h.not_freed_of_live hlive

/-- A frame reaches an active handle or none. -/
theorem serialRxHandler (h : Core s) (ifNum : UInt8) (rxbuff : Message) (queueSend : Bool) :
    Core
      { statics := (SerialIf.serialRxHandler s.statics ifNum rxbuff queueSend).2
        log := s.log ++ serialRxHandlerEvents s.statics ifNum } := by
  have hevents : ∃ ps : List ℕ, serialRxHandlerEvents s.statics ifNum = ps.map .use ∧
      ∀ p ∈ ps, ∃ hdl, s.statics.heap p = some hdl := by
    unfold serialRxHandlerEvents
    split
    · refine ⟨_, rfl, ?_⟩
      intro p hp
      have hslot : s.statics.interfaceHandleG[ifNum.toNat]? = some (some p) := by
        rw [Option.mem_toList] at hp
        cases hslot : s.statics.interfaceHandleG[ifNum.toNat]? with
        | none =>
            rw [hslot] at hp
            cases hp
        | some slot =>
            rw [hslot] at hp
            exact congrArg some hp
      obtain ⟨hdl, hlive, -⟩ := h.consistent.slots _ _ hslot
      exact ⟨hdl, hlive⟩
    · exact ⟨[], rfl, fun p hp => absurd hp List.not_mem_nil⟩
  obtain ⟨ps, hps, hlive⟩ := hevents
  rw [hps]
  have hnotFreed : ∀ p ∈ ps, .free p ∉ s.log := by
    intro p hp
    obtain ⟨hdl, hheap⟩ := hlive p hp
    exact h.not_freed_of_live hheap
  have hsame : Core { statics := s.statics, log := s.log ++ ps.map .use } :=
    h.uses h.slots (Nat.le_refl _) hnotFreed fun p hp => (h.freed p hp).1
  unfold SerialIf.serialRxHandler
  split
  · exact hsame
  · rename_i p hdl hget
    split
    · refine h.update (live_of_getSerialHandle hget) ?_ hnotFreed
      rfl
    · exact hsame

/-- A permitted step keeps the core. -/
theorem keep {s' : State} {a : Action} (h : Core s) (ha : Permitted s a)
    (hs : step s a = some s') : Core s' := by
  cases a with
  | serialInit =>
      obtain ⟨r, hinit, hcore⟩ := h.serialInit ha
      simp only [step, hinit, Option.map_some] at hs
      cases hs
      exact hcore
  | serialOpen p queueCreate =>
      obtain ⟨hdl, hlive, hs⟩ := Option.map_eq_some_iff.1 hs
      cases hs
      have hcreated : queueCreate = true := ha
      rw [hcreated]
      have hps : ∀ q ∈ [p, p], .free q ∉ s.log := by
        intro q hq
        rw [show q = p by simpa using hq]
        exact h.not_freed_of_live hlive
      refine h.update hlive ?_ hps
      rfl
  | serialClose p =>
      obtain ⟨hdl, hlive, hs⟩ := Option.map_eq_some_iff.1 hs
      cases hs
      exact h.serialClose hlive
  | serialRxHandler ifNum rxbuff queueSend =>
      cases hs
      exact h.serialRxHandler ifNum rxbuff queueSend

/-- A frame changes the handle that `get_serial_handle` finds. -/
theorem delivers (h : Core s) (ifNum : UInt8) (rxbuff : Message) (queueSend : Bool) :
    Answers s (.serialRxHandler ifNum rxbuff queueSend) := by
  intro p hchanged
  unfold SerialIf.serialRxHandler at hchanged
  split at hchanged
  · exact absurd rfl hchanged
  · rename_i q hdl hget
    split at hchanged
    · by_cases hpq : p = q
      · subst hpq
        have hlive := live_of_getSerialHandle hget
        obtain ⟨hdl', hlive', hnum, -⟩ :=
          h.consistent.slots _ _ (registered_of_getSerialHandle hget)
        have heq : hdl' = hdl := Option.some.inj (hlive'.symm.trans hlive)
        rw [heq] at hnum
        exact ⟨hdl, hlive, active_of_getSerialHandle hget, UInt8.toNat_inj.1 hnum⟩
      · exact absurd (Function.update_of_ne hpq _ _) hchanged
    · exact absurd rfl hchanged

/-- Under the core, a step is served as it should be exactly when it is permitted. -/
theorem served_iff {s' : State} {a : Action} (h : Core s) (hs : step s a = some s') :
    Served s a ↔ Permitted s a := by
  constructor
  · intro hserved
    obtain ⟨hanswers, hconsistent⟩ := hserved
    cases a with
    | serialInit =>
        cases h.slots with
        | empty _ _ hheap => exact Slots.live_empty hheap
        | single hconn _ hheap _ hother hlt =>
            have hroom : (live s.statics).card < maxSerialIntf := by
              rw [Slots.live_single hheap hother hlt, Finset.card_singleton]
              decide
            obtain ⟨r, p, hinit⟩ := hanswers.2 hroom
            have hfull : ¬ s.statics.connNum + 1 < maxSerialIntf := by
              rw [hconn]
              decide
            rw [SerialIf.serialInit, if_neg hfull] at hinit
            cases hinit
    | serialOpen p queueCreate =>
        cases queueCreate with
        | true => rfl
        | false =>
            have horderly := (hconsistent s' hs).released
            obtain ⟨hdl, hlive, hs⟩ := Option.map_eq_some_iff.1 hs
            cases hs
            -- The store of `DESTROY` comes behind the `free`.
            have hfreed : LifeEvent.free p ∈ s.log ++ .use p :: serialCloseEvents p :=
              List.mem_append_right _ (by simp [serialCloseEvents])
            have hlog : s.log ++ serialOpenEvents p false =
                s.log ++ .use p :: serialCloseEvents p ++ [.use p] := by
              simp [serialOpenEvents]
            change Orderly (s.log ++ serialOpenEvents p false) at horderly
            rw [hlog] at horderly
            exact absurd horderly (not_orderly hfreed (List.mem_singleton_self _) rfl)
    | serialClose p => trivial
    | serialRxHandler ifNum rxbuff queueSend => trivial
  · intro ha
    constructor
    · cases a with
      | serialInit =>
          obtain ⟨r, hinit, -⟩ := h.serialInit ha
          have hnone : live s.statics = ∅ := ha
          constructor
          · intro _
            rw [hnone]
            decide
          · intro _
            exact ⟨r, _, hinit⟩
      | serialOpen p queueCreate => trivial
      | serialClose p => trivial
      | serialRxHandler ifNum rxbuff queueSend => exact h.delivers ifNum rxbuff queueSend
    · intro s'' hs''
      exact (h.keep ha hs'').consistent

end Core

/-- The table is served as it should be in a run exactly when every `serial_init` of it
comes while no handle is live, and every `serial_open` gets its queue. -/
theorem serial_table_iff {as : List Action} {t : State} (hrun : run step init as = some t) :
    Along step Served init as ↔ Along step Permitted init as :=
  along_iff_along_of_core step (fun _ _ _ h ha hs => h.keep ha hs)
    (fun _ _ _ h hs => h.served_iff hs) Core.init hrun

/-- A handle is opened without a queue. -/
def openFails : List Action := [.serialInit, .serialOpen 0 false]

/-- `DESTROY` is stored in the freed handle, at a time when the table is empty again. -/
theorem released_handle_written :
    ∃ t, run step init openFails = some t ∧
      t.log = [.use 0, .use 0, .use 0, .free 0, .use 0] ∧
        ¬ Along step Served init openFails := by
  have hrun : ∃ t, run step init openFails = some t := ⟨_, rfl⟩
  obtain ⟨t, hrun⟩ := hrun
  have hlog : t.log = [.use 0, .use 0, .use 0, .free 0, .use 0] := by
    cases hrun
    rfl
  refine ⟨t, hrun, hlog, ?_⟩
  intro h
  obtain ⟨s', hinit, hopen⟩ := Option.bind_eq_some_iff.1 hrun
  have hserved := (h.2 s' hinit).1
  obtain ⟨t', hstep, hend⟩ := Option.bind_eq_some_iff.1 hopen
  cases hend
  have horderly := (hserved.2 t hstep).released
  rw [hlog] at horderly
  exact absurd horderly (by simp [Orderly, LifeEvent.block])

/-- One handle, which receives a frame and is closed; then another one. -/
def reopened : List Action :=
  [ .serialInit, .serialOpen 0 true, .serialRxHandler 0 ⟨[1], by decide⟩ true, .serialClose 0,
    .serialInit ]

theorem serial_table_reopened :
    ∃ t, run step init reopened = some t ∧ Along step Served init reopened := by
  have hrun : ∃ t, run step init reopened = some t := ⟨_, rfl⟩
  obtain ⟨t, hrun⟩ := hrun
  exact ⟨t, hrun, (serial_table_iff hrun).2 (by decide)⟩

end SerialTable

end Control

end EspHosted
