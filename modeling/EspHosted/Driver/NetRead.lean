import EspHosted.Driver.NetLifeCycle
import EspHosted.Lib.Fifo

/-!
# Packets from the receive queue

`netdev_rx` puts packets into the receive queue of a device and any number of tasks
read them with `network_read`, the callback of the handle among them. Opening and
closing an interface resets its queue in between. A read that has found the queue of
its handle waits on it, whatever becomes of the handle.

`network_read` allocates the packet it returns before it waits, and ignores whether
`xQueueReceive` has written to it. `enqueued` and `returned` are logs that no branch
reads; a packet nobody wrote is returned as `none`.
-/

namespace EspHosted

namespace Net

namespace Read

open Machine Fifo

structure State (κ ι : Type) where
  net : Net.State κ
  /-- The device whose queue a task waits on in `network_read`. -/
  reading : ι → Option ℕ
  enqueued : ℕ → List EspPbuf
  returned : ℕ → List (Option EspPbuf)

inductive Action (κ ι : Type) where
  | networkOpen (ifName : Option (List Char)) (netRxCallback : Option κ) (queueCreate : Bool)
  | networkClose (netHandle : ℕ)
  | netdevRx (i : ℕ) (netBuf : EspPbuf)
  | networkRead (t : ι) (netHandle : ℕ)
  | xQueueReceive (t : ι)
  | timeout (t : ι)

section Read

variable {κ ι : Type}

/-- The contents of the receive queue of device `i`. -/
def rxQueue (s : Net.State κ) (i : ℕ) : List EspPbuf :=
  ((s.ndevDb[i]?).bind Netdev.rxQ).getD []

def init (interfaces : List (List Char × EspPrivate)) : State κ ι where
  net := Net.init interfaces
  reading := fun _ => none
  enqueued := fun _ => []
  returned := fun _ => []

/-- Every read returned a packet, and the packets of a device in the order of their
arrival, each at most once. -/
def Faithful (s : State κ ι) : Prop :=
  ∀ i, ∃ packets : List EspPbuf, s.returned i = packets.map some ∧ packets.Sublist (s.enqueued i)

/-- The wait of a read ends without a packet. -/
def Action.isTimeout : Action κ ι → Bool
  | .timeout _ => true
  | _ => false

/-- The queue of device `i` becomes `rxQ`. -/
def setRxQ (s : Net.State κ) (i : ℕ) (ndev : Netdev) (rxQ : List EspPbuf) : Net.State κ :=
  { s with ndevDb := s.ndevDb.set i { ndev with rxQ := some rxQ } }

def step [DecidableEq ι] (s : State κ ι) : Action κ ι → Option (State κ ι)
  | .networkOpen ifName netRxCallback queueCreate =>
      some { s with net := (networkOpen s.net ifName netRxCallback queueCreate).2 }
  | .networkClose netHandle =>
      (networkClose s.net netHandle).map fun net => { s with net := net }
  | .netdevRx i netBuf =>
      match s.net.ndevDb[i]? with
      | none => none
      | some ndev =>
          match ndev.state, ndev.rxQ with
          | .DOWN, _ => some s
          | .UP, none => none
          | .UP, some rxQ =>
              if rxQ.length < rxQueueSize then
                some
                  { s with
                    net := setRxQ s.net i ndev (rxQ ++ [netBuf])
                    enqueued := Function.update s.enqueued i (s.enqueued i ++ [netBuf]) }
              else
                none
  | .networkRead t netHandle =>
      match s.reading t, s.net.handles netHandle with
      | none, some h => some { s with reading := Function.update s.reading t (some h.ndev) }
      | _, _ => none
  | .xQueueReceive t =>
      match s.reading t with
      | none => none
      | some i =>
          match s.net.ndevDb[i]? with
          | none => none
          | some ndev =>
              match ndev.rxQ with
              | some (netBuf :: rxQ) =>
                  some
                    { s with
                      net := setRxQ s.net i ndev rxQ
                      reading := Function.update s.reading t none
                      returned := Function.update s.returned i (s.returned i ++ [some netBuf]) }
              | _ => none
  | .timeout t =>
      match s.reading t with
      | none => none
      | some i =>
          if rxQueue s.net i = [] then
            some
              { s with
                reading := Function.update s.reading t none
                returned := Function.update s.returned i (s.returned i ++ [none]) }
          else
            none

/-- What the logs of a device say about its queue, as long as every read got a packet. -/
def Delivers (s : State κ ι) : Prop :=
  ∀ i, ∃ packets : List EspPbuf, s.returned i = packets.map some ∧
    Sound (s.enqueued i) packets (rxQueue s.net i)

theorem Delivers.init (interfaces : List (List Char × EspPrivate)) :
    Delivers (Read.init interfaces : State κ ι) := by
  intro i
  refine ⟨[], rfl, ?_⟩
  have hempty : rxQueue (Net.init interfaces : Net.State κ) i = [] := by
    rw [rxQueue, Net.init, List.getElem?_map]
    cases interfaces[i]? with
    | none => rfl
    | some interface => rfl
  change Sound [] [] (rxQueue (Net.init interfaces : Net.State κ) i)
  rw [hempty]
  exact Sound.nil

theorem Delivers.faithful {s : State κ ι} (h : Delivers s) : Faithful s := by
  intro i
  obtain ⟨packets, hreturned, hsound⟩ := h i
  exact ⟨packets, hreturned, hsound.sublist⟩

theorem rxQueue_set_self {s s' : Net.State κ} {i : ℕ} {ndev ndev' : Netdev}
    (hi : s.ndevDb[i]? = some ndev) (hdb : s'.ndevDb = s.ndevDb.set i ndev') :
    rxQueue s' i = ndev'.rxQ.getD [] := by
  have hlt : i < s.ndevDb.length := (List.getElem?_eq_some_iff.1 hi).1
  rw [rxQueue, hdb, List.getElem?_set_self hlt]
  rfl

theorem rxQueue_setRxQ {s : Net.State κ} {i : ℕ} {ndev : Netdev}
    (hi : s.ndevDb[i]? = some ndev) (rxQ : List EspPbuf) :
    rxQueue (setRxQ s i ndev rxQ) i = rxQ := by
  have hdb : (setRxQ s i ndev rxQ).ndevDb = s.ndevDb.set i { ndev with rxQ := some rxQ } := rfl
  exact rxQueue_set_self hi hdb

theorem rxQueue_set_of_ne {s s' : Net.State κ} {i j : ℕ} {ndev' : Netdev} (hij : i ≠ j)
    (hdb : s'.ndevDb = s.ndevDb.set i ndev') : rxQueue s' j = rxQueue s j := by
  rw [rxQueue, hdb, List.getElem?_set_ne hij]
  rfl

/-- Opening and closing reset a queue or leave it. -/
def Resets (s s' : Net.State κ) : Prop :=
  ∀ j, rxQueue s' j = rxQueue s j ∨ rxQueue s' j = []

theorem Resets.set {s s' : Net.State κ} {i : ℕ} {ndev ndev' : Netdev}
    (hi : s.ndevDb[i]? = some ndev) (hdb : s'.ndevDb = s.ndevDb.set i ndev')
    (hrxQ : ndev'.rxQ = ndev.rxQ ∨ ndev'.rxQ.getD [] = []) : Resets s s' := by
  intro j
  by_cases hij : i = j
  · subst hij
    rw [rxQueue_set_self hi hdb]
    rcases hrxQ with hsame | hempty
    · refine Or.inl ?_
      rw [hsame, rxQueue, hi]
      rfl
    · exact Or.inr hempty
  · exact Or.inl (rxQueue_set_of_ne hij hdb)

theorem rxQ_netdevOpen (ndev : Netdev) (queueCreate : Bool) :
    (netdevOpen ndev queueCreate).2.rxQ = ndev.rxQ ∨
      (netdevOpen ndev queueCreate).2.rxQ.getD [] = [] := by
  simp only [netdevOpen]
  split
  · exact Or.inr rfl
  · split
    · exact Or.inr rfl
    · exact Or.inl rfl

theorem Resets.networkOpen (s : Net.State κ) (ifName : Option (List Char))
    (netRxCallback : Option κ) (queueCreate : Bool) :
    Resets s (Net.networkOpen s ifName netRxCallback queueCreate).2 := by
  simp only [Net.networkOpen]
  split
  · exact fun _ => Or.inl rfl
  · split
    · exact fun _ => Or.inl rfl
    · split
      · exact fun _ => Or.inl rfl
      · rename_i ndev hi
        have hrxQ := rxQ_netdevOpen ndev queueCreate
        split
        · rename_i ndev' hopen
          rw [hopen] at hrxQ
          exact Resets.set hi rfl hrxQ
        · rename_i ndev' hopen
          rw [hopen] at hrxQ
          exact Resets.set hi rfl hrxQ

theorem Resets.networkClose {s s' : Net.State κ} {netHandle : ℕ}
    (h : Net.networkClose s netHandle = some s') : Resets s s' := by
  simp only [Net.networkClose] at h
  split at h
  · cases h
  · split at h
    · cases h
    · rename_i ndev hi
      cases h
      refine Resets.set hi rfl (Or.inr ?_)
      change (ndev.rxQ.map fun _ => ([] : List EspPbuf)).getD [] = []
      cases ndev.rxQ with
      | none => rfl
      | some rxQ => rfl

namespace Delivers

theorem resets {s : State κ ι} (h : Delivers s) {net : Net.State κ} (hnet : Resets s.net net) :
    Delivers { s with net := net } := by
  intro i
  obtain ⟨packets, hreturned, hsound⟩ := h i
  refine ⟨packets, hreturned, ?_⟩
  change Sound (s.enqueued i) packets (rxQueue net i)
  rcases hnet i with hsame | hempty
  · rw [hsame]
    exact hsound
  · rw [hempty]
    exact hsound.reset

/-- A packet joins the queue and the log of its device. -/
theorem netdevRx {s : State κ ι} (h : Delivers s) {i : ℕ} {ndev : Netdev}
    {rxQ : List EspPbuf} (hi : s.net.ndevDb[i]? = some ndev) (hrxQ : ndev.rxQ = some rxQ)
    (netBuf : EspPbuf) :
    Delivers
      { s with
        net := setRxQ s.net i ndev (rxQ ++ [netBuf])
        enqueued := Function.update s.enqueued i (s.enqueued i ++ [netBuf]) } := by
  intro j
  obtain ⟨packets, hreturned, hsound⟩ := h j
  refine ⟨packets, hreturned, ?_⟩
  by_cases hij : i = j
  · subst hij
    have hqueue : rxQueue s.net i = rxQ := by
      rw [rxQueue, hi, Option.bind_some, hrxQ, Option.getD_some]
    rw [hqueue] at hsound
    simp only [Function.update_self, rxQueue_setRxQ hi]
    exact hsound.send netBuf
  · have hnew : rxQueue (setRxQ s.net i ndev (rxQ ++ [netBuf])) j = rxQueue s.net j :=
      rxQueue_set_of_ne hij rfl
    simp only [Function.update_of_ne (Ne.symm hij), hnew]
    exact hsound

/-- The packet at the head of the queue is the one returned. -/
theorem xQueueReceive {s : State κ ι} (h : Delivers s) {i : ℕ} {ndev : Netdev}
    {netBuf : EspPbuf} {rxQ : List EspPbuf} (hi : s.net.ndevDb[i]? = some ndev)
    (hrxQ : ndev.rxQ = some (netBuf :: rxQ)) (reading : ι → Option ℕ) :
    Delivers
      { s with
        net := setRxQ s.net i ndev rxQ
        reading := reading
        returned := Function.update s.returned i (s.returned i ++ [some netBuf]) } := by
  intro j
  obtain ⟨packets, hreturned, hsound⟩ := h j
  by_cases hij : i = j
  · subst hij
    have hqueue : rxQueue s.net i = netBuf :: rxQ := by
      rw [rxQueue, hi, Option.bind_some, hrxQ, Option.getD_some]
    rw [hqueue] at hsound
    refine ⟨packets ++ [netBuf], ?_, ?_⟩
    · simp only [Function.update_self, hreturned, List.map_append, List.map_cons, List.map_nil]
    · simp only [rxQueue_setRxQ hi]
      exact hsound.receive
  · have hnew : rxQueue (setRxQ s.net i ndev rxQ) j = rxQueue s.net j :=
      rxQueue_set_of_ne hij rfl
    refine ⟨packets, ?_, ?_⟩
    · simp only [Function.update_of_ne (Ne.symm hij), hreturned]
    · simp only [hnew]
      exact hsound

variable [DecidableEq ι]

theorem keep {s s' : State κ ι} {a : Action κ ι} (h : Delivers s)
    (ha : a.isTimeout = false) (hs : step s a = some s') : Delivers s' := by
  cases a with
  | networkOpen ifName netRxCallback queueCreate =>
      cases hs
      exact h.resets (Resets.networkOpen s.net ifName netRxCallback queueCreate)
  | networkClose netHandle =>
      obtain ⟨net, hnet, heq⟩ := Option.map_eq_some_iff.1 hs
      cases heq
      exact h.resets (Resets.networkClose hnet)
  | netdevRx i netBuf =>
      simp only [step] at hs
      split at hs
      · cases hs
      · rename_i ndev hi
        split at hs
        · cases hs
          exact h
        · cases hs
        · rename_i rxQ hstate hrxQ
          split at hs
          · cases hs
            exact h.netdevRx hi hrxQ netBuf
          · cases hs
  | networkRead t netHandle =>
      simp only [step] at hs
      split at hs
      · cases hs
        exact h
      · cases hs
  | xQueueReceive t =>
      simp only [step] at hs
      split at hs
      · cases hs
      · split at hs
        · cases hs
        · rename_i ndev hi
          split at hs
          · rename_i hrxQ
            cases hs
            exact h.xQueueReceive hi hrxQ _
          · cases hs
  | timeout t => cases ha

end Delivers

variable [DecidableEq ι]

/-- A read that times out returns a packet nobody wrote. -/
theorem not_faithful_of_timeout {s s' : State κ ι} {t : ι}
    (hs : step s (.timeout t) = some s') : ¬ Faithful s' := by
  intro h
  simp only [step] at hs
  split at hs
  · cases hs
  · rename_i i hreading
    split at hs
    · cases hs
      obtain ⟨packets, hreturned, -⟩ := h i
      simp only [Function.update_self] at hreturned
      have hmem : none ∈ packets.map some := by
        rw [← hreturned]
        exact List.mem_append_right _ (List.mem_singleton_self none)
      obtain ⟨packet, -, hpacket⟩ := List.mem_map.1 hmem
      cases hpacket
    · cases hs

/-- The packets read are those enqueued, in order and each at most once, in a run exactly
when no read of it times out. -/
theorem reads_faithful_iff (interfaces : List (List Char × EspPrivate))
    {as : List (Action κ ι)} {t : State κ ι}
    (hrun : run step (init interfaces) as = some t) :
    Always step Faithful (init interfaces) as ↔ ∀ a ∈ as, a.isTimeout = false := by
  rw [always_iff_along_of_core step (K := Delivers) (P := fun _ a => a.isTimeout = false)
    (fun s h => h.faithful) (fun s a s' h ha hs => h.keep ha hs) ?_ (.init interfaces) hrun]
  · exact along_iff_forall_mem step hrun
  · intro s a s' h hs hfaithful
    cases a with
    | timeout t => exact absurd hfaithful (not_faithful_of_timeout hs)
    | _ => rfl

end Read

/-- The station is opened and read before a packet came, and the read gives up. -/
def earlyReadSchedule : List (Action Unit Unit) :=
  [.networkOpen (some staInterface) (some ()) true, .networkRead () 0, .timeout ()]

theorem early_read_returns_unwritten :
    (∃ s, run step (init hostInterfaces) earlyReadSchedule = some s) ∧
      ¬ Always step Faithful (init hostInterfaces) earlyReadSchedule := by
  constructor
  · exact ⟨_, rfl⟩
  · intro h
    have hopened : Always step Faithful _ _ := h.2 _ rfl
    have hreading : Always step Faithful _ _ := hopened.2 _ rfl
    have hgone : Faithful _ := hreading.2 _ rfl
    obtain ⟨packets, hreturned, -⟩ := hgone 0
    cases packets with
    | nil => cases hreturned
    | cons packet packets => cases hreturned

/-- Two packets come, and both are read. -/
def readSchedule : List (Action Unit Unit) :=
  [ .networkOpen (some staInterface) (some ()) true,
    .netdevRx 0 { len := 1, payload := some (Spi.WBuffer.single 7) },
    .netdevRx 0 { len := 2, payload := some ⟨[8, 9], by decide⟩ }, .networkRead () 0,
    .xQueueReceive (), .networkRead () 0, .xQueueReceive () ]

theorem reads_faithful_two_packets :
    Always step Faithful (init hostInterfaces) readSchedule := by
  have hrun : run step (init hostInterfaces) readSchedule = some _ := rfl
  exact (reads_faithful_iff hostInterfaces hrun).2 (by decide)

end Read

end Net

end EspHosted
