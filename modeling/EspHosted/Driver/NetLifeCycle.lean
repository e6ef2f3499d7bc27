import EspHosted.Driver.Netdev
import EspHosted.Lib.Machine

/-!
# Opening and closing a network interface

The receive queue of a device is created by its first `network_open` and is never
deleted. A later `network_open` finds it and returns before the line that sets the
device up, so an interface that was closed can be opened again only in name.
-/

namespace EspHosted

namespace Net

open Machine
open Spi (WBuffer)

section LifeCycle

variable {κ : Type}

inductive Action (κ : Type) where
  | networkOpen (ifName : Option (List Char)) (netRxCallback : Option κ) (queueCreate : Bool)
  | networkClose (netHandle : ℕ)

/-- A call returns, or is not made: a handle is closed at most once. -/
def step (s : State κ) : Action κ → Option (State κ)
  | .networkOpen ifName netRxCallback queueCreate =>
      some (networkOpen s ifName netRxCallback queueCreate).2
  | .networkClose netHandle => networkClose s netHandle

/-- A device as `init_netdev` registers it. -/
def registered (name : List Char) (priv : EspPrivate) : Netdev where
  name := name
  netOps := some { netdevXmit := true }
  state := .DOWN
  netHandle := none
  rxQ := none
  priv := some priv

/-- After `init_netdev` has registered the interfaces. -/
def init (interfaces : List (List Char × EspPrivate)) : State κ where
  ndevDb := interfaces.map fun i => registered i.1 i.2
  handles := fun _ => none
  next := 0

/-- The handle is the open handle of its device: received packets go to its callback,
and packets written to it are queued for the slave. -/
structure Opened (s : State κ) (netHandle i : ℕ) (netRxCallback : Option κ) (ndev : Netdev) :
    Prop where
  handle : s.handles netHandle = some { ndev := i, netRxCallback := netRxCallback }
  device : s.ndevDb[i]? = some ndev
  up : ndev.state = .UP
  rxQ : ndev.rxQ.isSome
  current : ndev.netHandle = some netHandle
  delivers : ∀ netBuf, ∃ r, netdevRx s i netBuf true = some r ∧
    r.callback = netRxCallback.map fun callback => (callback, netHandle)
  transmits : ∀ (len : UInt16) (payload : WBuffer len), 1 ≤ len.toNat →
    len.toNat ≤ maxPayloadSize →
      ∃ h, (networkWrite (some (some ndev)) (some ⟨len, some payload⟩) true).queued = some h

/-- What every call leaves behind: an open interface, a closed one. -/
def LifeCycle (s : State κ) : Action κ → Prop
  | .networkOpen ifName netRxCallback queueCreate =>
      ∀ h s', networkOpen s ifName netRxCallback queueCreate = (some h, s') →
        ∃ name i ndev, ifName = some name ∧ netdevGet s.ndevDb name = some i ∧
          Opened s' h i netRxCallback ndev
  | .networkClose netHandle =>
      ∀ s' h, networkClose s netHandle = some s' → s.handles netHandle = some h →
        ∃ ndev, s'.ndevDb[h.ndev]? = some ndev ∧ ndev.state = .DOWN ∧ ndev.netHandle = none

/-- An interface whose receive queue exists is opened only while it is up. -/
def NotReopened (s : State κ) : Action κ → Prop
  | .networkOpen (some name) _ _ =>
      ∀ i ndev, netdevGet s.ndevDb name = some i → s.ndevDb[i]? = some ndev →
        ndev.rxQ.isSome → ndev.state = .UP
  | _ => True

/-- Every device has the operations and the private data that `init_netdev` gave it. -/
def Operational (s : State κ) : Prop :=
  ∀ ndev ∈ s.ndevDb, ndev.netOps = some { netdevXmit := true } ∧ ndev.priv.isSome

theorem operational_init (interfaces : List (List Char × EspPrivate)) :
    Operational (init interfaces : State κ) := by
  intro ndev hmem
  obtain ⟨i, -, rfl⟩ := List.mem_map.1 hmem
  exact ⟨rfl, rfl⟩

/-- A device that keeps its operations and private data may change otherwise. -/
theorem Operational.set {s s' : State κ} (h : Operational s) {i : ℕ} {ndev ndev' : Netdev}
    (hi : s.ndevDb[i]? = some ndev) (hdb : s'.ndevDb = s.ndevDb.set i ndev')
    (hops : ndev'.netOps = ndev.netOps) (hpriv : ndev'.priv = ndev.priv) :
    Operational s' := by
  intro d hd
  rw [hdb] at hd
  rcases List.mem_or_eq_of_mem_set hd with hold | hnew
  · exact h d hold
  · rw [hnew, hops, hpriv]
    exact h ndev (List.mem_of_getElem? hi)

theorem netdevOpen_netOps (ndev : Netdev) (queueCreate : Bool) :
    (netdevOpen ndev queueCreate).2.netOps = ndev.netOps ∧
      (netdevOpen ndev queueCreate).2.priv = ndev.priv := by
  simp only [netdevOpen]
  split
  · exact ⟨rfl, rfl⟩
  · split
    · exact ⟨rfl, rfl⟩
    · exact ⟨rfl, rfl⟩

theorem netdevOpen_of_rxQ {ndev : Netdev} {queueCreate : Bool} (h : ndev.rxQ.isSome) :
    (netdevOpen ndev queueCreate).1 = .STM_OK := by
  obtain ⟨rxQ, hrxQ⟩ := Option.isSome_iff_exists.1 h
  simp only [netdevOpen, hrxQ]

theorem networkOpen_of_netdevOpen {s : State κ} {name : List Char} {i : ℕ} {ndev : Netdev}
    (netRxCallback : Option κ) {queueCreate : Bool} (hget : netdevGet s.ndevDb name = some i)
    (hi : s.ndevDb[i]? = some ndev) (hok : (netdevOpen ndev queueCreate).1 = .STM_OK) :
    ∃ s', networkOpen s (some name) netRxCallback queueCreate = (some s.next, s') := by
  simp only [networkOpen, hget, hi]
  split
  · rename_i hfail
    rw [hfail] at hok
    cases hok
  · exact ⟨_, rfl⟩

/-- What `network_open` has done when it returns a handle. -/
theorem networkOpen_eq_some {s s' : State κ} {ifName : Option (List Char)}
    {netRxCallback : Option κ} {queueCreate : Bool} {h : ℕ}
    (ho : networkOpen s ifName netRxCallback queueCreate = (some h, s')) :
    ∃ name i ndev, ifName = some name ∧ netdevGet s.ndevDb name = some i ∧
      s.ndevDb[i]? = some ndev ∧ (netdevOpen ndev queueCreate).1 = .STM_OK ∧
      s'.handles h = some { ndev := i, netRxCallback := netRxCallback } ∧
      s'.ndevDb[i]? = some { (netdevOpen ndev queueCreate).2 with netHandle := some h } := by
  simp only [networkOpen] at ho
  split at ho
  · cases ho
  · rename_i name
    split at ho
    · cases ho
    · rename_i i hget
      split at ho
      · cases ho
      · rename_i ndev hi
        have hlt : i < s.ndevDb.length := (List.getElem?_eq_some_iff.1 hi).1
        split at ho
        · cases ho
        · rename_i opened hopen
          cases ho
          refine ⟨name, i, ndev, rfl, hget, hi, ?_, ?_, ?_⟩
          · rw [hopen]
          · exact Function.update_self _ _ _
          · rw [hopen]
            exact List.getElem?_set_self hlt

theorem Operational.step {s s' : State κ} {a : Action κ} (h : Operational s)
    (hs : Net.step s a = some s') : Operational s' := by
  cases a with
  | networkOpen ifName netRxCallback queueCreate =>
      simp only [Net.step, Option.some.injEq] at hs
      subst hs
      simp only [networkOpen]
      split
      · exact h
      · split
        · exact h
        · split
          · exact h
          · rename_i ndev hi
            have hkeep := netdevOpen_netOps ndev queueCreate
            split
            · rename_i ndev' hopen
              rw [hopen] at hkeep
              exact h.set hi rfl hkeep.1 hkeep.2
            · rename_i ndev' hopen
              rw [hopen] at hkeep
              exact h.set hi rfl hkeep.1 hkeep.2
  | networkClose netHandle =>
      simp only [Net.step, networkClose] at hs
      split at hs
      · cases hs
      · split at hs
        · cases hs
        · rename_i ndev hi
          cases hs
          exact h.set hi rfl rfl rfl

/-- The fields of an open interface are enough for its traffic. -/
theorem opened_of_up {s : State κ} (hs : Operational s) {netHandle i : ℕ}
    {netRxCallback : Option κ} {ndev : Netdev}
    (hhandle : s.handles netHandle = some { ndev := i, netRxCallback := netRxCallback })
    (hdevice : s.ndevDb[i]? = some ndev) (hup : ndev.state = .UP) (hrxQ : ndev.rxQ.isSome)
    (hcurrent : ndev.netHandle = some netHandle) :
    Opened s netHandle i netRxCallback ndev := by
  constructor
  · exact hhandle
  · exact hdevice
  · exact hup
  · exact hrxQ
  · exact hcurrent
  · intro netBuf
    obtain ⟨rxQ, hrxQ⟩ := Option.isSome_iff_exists.1 hrxQ
    simp only [netdevRx, hdevice, hup, hrxQ, hcurrent, hhandle, if_true, Option.map_some]
    exact ⟨_, rfl, rfl⟩
  · intro len payload hpos hmax
    obtain ⟨hops, hpriv⟩ := hs ndev (List.mem_of_getElem? hdevice)
    obtain ⟨priv, hpriv⟩ := Option.isSome_iff_exists.1 hpriv
    simp only [networkWrite, hup, hops, espNetdevXmit, hpriv]
    exact ⟨_, Spi.sendToSlave_of_le priv.ifType priv.ifNum payload hpos hmax⟩

/-- `netdev_open` brings a device up, unless it finds a receive queue. -/
theorem state_netdevOpen {ndev : Netdev} {queueCreate : Bool}
    (ho : (netdevOpen ndev queueCreate).1 = .STM_OK) :
    (netdevOpen ndev queueCreate).2.rxQ.isSome ∧
      ((netdevOpen ndev queueCreate).2.state = .UP ↔ (ndev.rxQ.isSome → ndev.state = .UP)) := by
  simp only [netdevOpen] at ho ⊢
  cases hrxQ : ndev.rxQ with
  | some rxQ =>
      constructor
      · rfl
      · constructor
        · intro h _
          exact h
        · intro h
          exact h rfl
  | none =>
      cases queueCreate with
      | true => exact ⟨rfl, iff_of_true rfl fun hnone => nomatch hnone⟩
      | false =>
          rw [hrxQ] at ho
          cases ho

theorem lifeCycle_networkOpen_iff {s : State κ} (hs : Operational s)
    (ifName : Option (List Char)) (netRxCallback : Option κ) (queueCreate : Bool) :
    LifeCycle s (.networkOpen ifName netRxCallback queueCreate) ↔
      NotReopened s (.networkOpen ifName netRxCallback queueCreate) := by
  constructor
  · intro h
    cases ifName with
    | none => trivial
    | some name =>
        intro i ndev hget hi hrxQ
        have hok : (netdevOpen ndev queueCreate).1 = .STM_OK := netdevOpen_of_rxQ hrxQ
        obtain ⟨s', ho⟩ := networkOpen_of_netdevOpen (s := s) netRxCallback hget hi hok
        obtain ⟨name', i', opened, hname, hget', hopened⟩ := h s.next s' ho
        obtain ⟨name'', i'', ndev'', hname', hget'', hi'', -, -, hdevice⟩ :=
          networkOpen_eq_some ho
        cases hname
        cases hname'
        cases hget'.symm.trans hget
        cases hget''.symm.trans hget
        cases hi''.symm.trans hi
        cases hopened.device.symm.trans hdevice
        exact (state_netdevOpen hok).2.1 hopened.up hrxQ
  · intro h handle s' ho
    obtain ⟨name, i, ndev, rfl, hget, hi, hok, hhandle, hdevice⟩ := networkOpen_eq_some ho
    have hstep : Operational s' :=
      hs.step (a := .networkOpen (some name) netRxCallback queueCreate)
        (by rw [Net.step, ho])
    obtain ⟨hrxQ, hup⟩ := state_netdevOpen hok
    exact ⟨name, i, _, rfl, hget,
      opened_of_up hstep hhandle hdevice (hup.2 (h i ndev hget hi)) hrxQ rfl⟩

/-- Every call leaves the interface as it should in a run exactly when no interface is
opened again after it was closed. -/
theorem life_cycle_iff (interfaces : List (List Char × EspPrivate)) {as : List (Action κ)}
    {t : State κ} (hrun : run step (init interfaces) as = some t) :
    Along step LifeCycle (init interfaces) as ↔ Along step NotReopened (init interfaces) as := by
  refine along_congr step (fun s a s' h hs => h.step hs) ?_ (operational_init interfaces) hrun
  intro s a s' h hs
  cases a with
  | networkOpen ifName netRxCallback queueCreate =>
      exact lifeCycle_networkOpen_iff h ifName netRxCallback queueCreate
  | networkClose netHandle =>
      refine iff_of_true ?_ trivial
      intro t hdl ht hh
      simp only [networkClose, hh] at ht
      split at ht
      · cases ht
      · rename_i ndev hi
        cases ht
        have hlt : hdl.ndev < s.ndevDb.length := (List.getElem?_eq_some_iff.1 hi).1
        exact ⟨netdevClose ndev, List.getElem?_set_self hlt, rfl, rfl⟩

end LifeCycle

/-- `STA_INTERFACE` -/
def staInterface : List Char := ['E', 'S', 'P', '_', 'S', 'T', 'A', 'T', 'I', 'O', 'N']

/-- `SOFTAP_INTERFACE` -/
def softapInterface : List Char := ['E', 'S', 'P', '_', 'S', 'O', 'F', 'T', 'A', 'P']

/-- The interfaces of `init_netdev`. -/
def hostInterfaces : List (List Char × EspPrivate) :=
  [ (staInterface, { ifType := espStaIf, ifNum := 0 }),
    (softapInterface, { ifType := espApIf, ifNum := 0 }) ]

/-- Both interfaces are opened, and the station is closed. -/
def openSchedule : List (Action Unit) :=
  [ .networkOpen (some staInterface) (some ()) true,
    .networkOpen (some softapInterface) (some ()) true, .networkClose 0 ]

/-- The station is opened, closed and opened again. -/
def reopenSchedule : List (Action Unit) :=
  [ .networkOpen (some staInterface) (some ()) true, .networkClose 0,
    .networkOpen (some staInterface) (some ()) true ]

theorem reopened_interface_down :
    (∃ t, run step (init hostInterfaces) reopenSchedule = some t) ∧
      ¬ Along step LifeCycle (init hostInterfaces) reopenSchedule := by
  constructor
  · exact ⟨_, rfl⟩
  · intro h
    have hclosed : Along step LifeCycle _ _ := h.2 _ rfl
    have hreopened : Along step LifeCycle _ _ := hclosed.2 _ rfl
    obtain ⟨name, i, ndev, hname, hget, hopened⟩ := hreopened.1 _ _ rfl
    cases hname
    cases hget
    cases hopened.device
    cases hopened.up

theorem life_cycle_two_interfaces :
    Along step LifeCycle (init hostInterfaces) openSchedule := by
  have hrun : run step (init hostInterfaces) openSchedule = some _ := rfl
  refine (life_cycle_iff hostInterfaces hrun).2 ⟨?_, ?_⟩
  · intro i ndev hget hi hrxQ
    cases hget
    cases hi
    cases hrxQ
  · intro s hopened
    cases hopened
    refine ⟨?_, ?_⟩
    · intro i ndev hget hi hrxQ
      cases hget
      cases hi
      cases hrxQ
    · exact fun _ _ => ⟨trivial, fun _ _ => trivial⟩

end Net

end EspHosted
