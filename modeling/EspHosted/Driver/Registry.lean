import EspHosted.Driver.NetLifeCycle

/-!
# The device registry

`netdev_register` writes a device into the next of two slots, and nothing takes it out
again: `netdev_unregister` and `netdev_free` leave `ndev_db` alone. `init_netdev` allocates
and registers the two devices of the driver, and `deinit_netdev` frees those that are in
`esp_priv`.

Devices are numbered; a number whose device was freed holds none. The private block of a
device goes by the number of the device.
-/

namespace EspHosted

namespace Net

namespace Registry

open Machine

/-- `MAX_INTERFACE` -/
def maxInterface : ℕ := 2

/-- `MAX_NETWORK_INTERFACES` -/
def maxNetworkInterfaces : ℕ := 2

/-- `struct netdev`, as far as the registry goes. Only `network_open` and `netdev_open` set
`net_handle` and `rx_q`. -/
structure Device where
  name : List Char
  netOps : Option NetdevOps
  state : NetdevState
  priv : Option ℕ

/-- `struct esp_private` -/
structure PrivBlock where
  netdev : ℕ
  ifType : UInt8
  ifNum : UInt8

/-- The statics of the two files and the blocks. A private block that was allocated and not
yet written is `some none`. -/
structure State where
  ndevDb : List (Option ℕ)
  ndevIndex : UInt8
  espPriv : List (Option ℕ)
  devices : ℕ → Option Device
  privs : ℕ → Option (Option PrivBlock)
  next : ℕ

def init : State where
  ndevDb := List.replicate maxInterface none
  ndevIndex := 0
  espPriv := List.replicate maxNetworkInterfaces none
  devices := fun _ => none
  privs := fun _ => none
  next := 0

/-- `strncmp(a, b, MAX_IF_NAME_SIZE) == 0` -/
def sameName (a b : List Char) : Bool := a.take maxIfNameSize = b.take maxIfNameSize

/-- `netdev_get`; a pointer to a freed device, which it must not follow, finds none. -/
def netdevGet (s : State) (ifName : Option (List Char)) : Option ℕ :=
  match ifName with
  | none => none
  | some ifName =>
      s.ndevDb.findSome? fun ndev =>
        match ndev with
        | none => none
        | some p =>
            match s.devices p with
            | none => none
            | some d => if sameName ifName d.name then some p else none

/-- A new device of that name. -/
def newDevice (s : State) (name : List Char) : Device where
  name := name.take maxIfNameSize
  netOps := none
  state := .DOWN
  priv := some s.next

/-- `netdev_alloc`, with the outcomes of its two calls of `malloc`. `none` is a failed
assertion; with `NDEBUG` there are none. -/
def netdevAlloc (ndebug : Bool) (s : State) (name : Option (List Char))
    (mallocNdev mallocPriv : Bool) : Option (State × Option ℕ) :=
  match name with
  | none => some (s, none)
  | some name =>
      if mallocNdev then
        if mallocPriv then
          some
            ( { s with
                devices := Function.update s.devices s.next (some (newDevice s name))
                privs := Function.update s.privs s.next (some none)
                next := s.next + 1 },
              some s.next )
        else if ndebug then
          -- The device is freed again.
          some
            ( { s with
                devices := Function.update
                  (Function.update s.devices s.next (some (newDevice s name))) s.next none
                next := s.next + 1 },
              none )
        else
          none
      else if ndebug then
        some (s, none)
      else
        none

/-- `netdev_get_priv` on a live device -/
def netdevGetPriv (s : State) (dev : ℕ) : Option ℕ := (s.devices dev).bind Device.priv

/-- `netdev_register` on a live device -/
def netdevRegister (s : State) (dev : Option (ℕ × Device)) (ops : Option NetdevOps) :
    StmRet × State :=
  match dev, ops with
  | some (p, d), some ops =>
      (.STM_OK,
        { s with
          devices := Function.update s.devices p (some { d with netOps := some ops })
          ndevDb := s.ndevDb.set (s.ndevIndex.toNat % maxInterface) (some p)
          ndevIndex := s.ndevIndex + 1 })
  | _, _ => (.STM_FAIL, s)

/-- `netdev_unregister` on a live device -/
def netdevUnregister (s : State) (dev : Option (ℕ × Device)) : StmRet × State :=
  match dev with
  | some (p, d) =>
      (.STM_OK,
        { s with
          devices := Function.update s.devices p (some { d with netOps := none, state := .DOWN }) })
  | none => (.STM_FAIL, s)

/-- `netdev_free` on a live device -/
def netdevFree (s : State) (dev : Option (ℕ × Device)) : State :=
  match dev with
  | none => s
  | some (p, d) =>
      { s with
        devices := Function.update s.devices p none
        privs :=
          match d.priv with
          | none => s.privs
          | some priv => Function.update s.privs priv none }

/-- The device of a pointer that is not `NULL`. -/
def deref (s : State) (p : ℕ) : Option (ℕ × Device) := (s.devices p).map fun d => (p, d)

/-- One turn of the loop of `deinit_netdev` -/
def deinitEntry (s : State) (i : ℕ) : State :=
  match s.espPriv[i]? with
  | some (some priv) =>
      let s :=
        match s.privs priv with
        | some (some block) =>
            let s := (netdevUnregister s (deref s block.netdev)).2
            netdevFree s (deref s block.netdev)
        | _ => s
      { s with espPriv := s.espPriv.set i none }
  | _ => s

/-- `deinit_netdev` -/
def deinitNetdev (s : State) : State := (List.range maxNetworkInterfaces).foldl deinitEntry s

/-- `esp_net_ops` -/
def espNetOps : NetdevOps where
  netdevXmit := true

/-- The loop of `init_netdev` with `n` turns to go; `malloc` are the outcomes of the two
allocations of each turn. -/
def initLoop (ndebug : Bool) (malloc : ℕ → Bool × Bool) :
    (n i : ℕ) → (ifName : List Char) → (ifType : UInt8) → State → Option (StmRet × State)
  | 0, _, _, _, s => some (.STM_OK, s)
  | n + 1, i, ifName, ifType, s =>
      match netdevAlloc ndebug s (some ifName) (malloc i).1 (malloc i).2 with
      | none => none
      | some (s, none) => some (.STM_FAIL, deinitNetdev s)
      | some (s, some ndev) =>
          match netdevGetPriv s ndev with
          | none => some (.STM_FAIL, deinitNetdev s)
          | some priv =>
              let s :=
                { s with
                  privs := Function.update s.privs priv
                    (some (some { netdev := ndev, ifType := ifType, ifNum := 0 })) }
              match netdevRegister s (deref s ndev) (some espNetOps) with
              | (.STM_FAIL, s) => some (.STM_FAIL, deinitNetdev s)
              | (.STM_OK, s) =>
                  initLoop ndebug malloc n (i + 1) softapInterface espApIf
                    { s with espPriv := s.espPriv.set i (some priv) }

/-- `init_netdev` -/
def initNetdev (ndebug : Bool) (s : State) (malloc : ℕ → Bool × Bool) :
    Option (StmRet × State) :=
  initLoop ndebug malloc maxNetworkInterfaces 0 staInterface espStaIf s

/-- A call, with live devices or `NULL`, and the outcomes of its allocations. -/
inductive Action where
  | netdevAlloc (name : Option (List Char)) (mallocNdev mallocPriv : Bool)
  | netdevRegister (dev : Option ℕ) (ops : Option NetdevOps)
  | netdevUnregister (dev : Option ℕ)
  | netdevFree (dev : Option ℕ)
  | initNetdev (malloc : ℕ → Bool × Bool)

/-- A device argument of a call, `none` when it is neither live nor `NULL`. -/
def argument (s : State) (dev : Option ℕ) : Option (Option (ℕ × Device)) :=
  match dev with
  | none => some none
  | some p => (deref s p).map some

/-- A call that returns. -/
def step (ndebug : Bool) (s : State) : Action → Option State
  | .netdevAlloc name mallocNdev mallocPriv =>
      (netdevAlloc ndebug s name mallocNdev mallocPriv).map Prod.fst
  | .netdevRegister dev ops =>
      (argument s dev).map fun dev => (netdevRegister s dev ops).2
  | .netdevUnregister dev => (argument s dev).map fun dev => (netdevUnregister s dev).2
  | .netdevFree dev => (argument s dev).map fun dev => netdevFree s dev
  | .initNetdev malloc => (initNetdev ndebug s malloc).map Prod.snd

/-- The device was registered and not unregistered or freed since. -/
def Registered (devices : ℕ → Option Device) (p : ℕ) : Prop :=
  ((devices p).bind Device.netOps).isSome = true

instance (devices : ℕ → Option Device) : DecidablePred (Registered devices) := fun _ =>
  inferInstanceAs (Decidable (_ = true))

def HasName (s : State) (p : ℕ) (name : List Char) : Prop :=
  ∃ d, s.devices p = some d ∧ sameName name d.name = true

/-- `ndev_db` contains registered devices only, and `netdev_get` finds a device of a name
exactly when one is registered. -/
structure Consistent (s : State) : Prop where
  only : ∀ p, some p ∈ s.ndevDb → Registered s.devices p
  sound : ∀ name p, netdevGet s (some name) = some p →
    Registered s.devices p ∧ HasName s p name
  found : ∀ name p, Registered s.devices p → HasName s p name →
    (netdevGet s (some name)).isSome

/-- A device that stays registered keeps a place in `ndev_db`. -/
def NoEviction (s s' : State) : Prop :=
  ∀ p, some p ∈ s.ndevDb → Registered s'.devices p → some p ∈ s'.ndevDb

/-- The registry, `esp_priv` and the blocks are as before. -/
structure Restored (s s' : State) : Prop where
  ndevDb : s'.ndevDb = s.ndevDb
  ndevIndex : s'.ndevIndex = s.ndevIndex
  espPriv : s'.espPriv = s.espPriv
  devices : s'.devices = s.devices
  privs : s'.privs = s.privs

/-- A call leaves the registry consistent and evicts no device, and an `init_netdev` that
fails leaves no trace. -/
def Served (ndebug : Bool) (s : State) (a : Action) : Prop :=
  (∀ s', step ndebug s a = some s' → Consistent s' ∧ NoEviction s s') ∧
    ∀ malloc, a = .initNetdev malloc →
      ∀ s', initNetdev ndebug s malloc = some (.STM_FAIL, s') → Restored s s'

/-- Both allocations of a turn succeed. -/
def allocated (malloc : ℕ → Bool × Bool) (i : ℕ) : Bool := (malloc i).1 && (malloc i).2

/-- The device in slot `i`, if there is one, is `p` or has another slot. -/
def Takes (l : List (Option ℕ)) (i p : ℕ) : Prop :=
  ∀ q ∈ l[i]?.join, q = p ∨ some q ∈ l.eraseIdx i

/-- A device is registered into a slot that no other device needs; it is not unregistered or
freed while it is registered. `init_netdev` finds both slots free, or fails in its first turn
with nothing in `esp_priv`. -/
def Permitted (s : State) : Action → Prop
  | .netdevAlloc _ _ _ => True
  | .netdevRegister dev ops =>
      ∀ p ∈ dev, ops.isSome → Takes s.ndevDb (s.ndevIndex.toNat % maxInterface) p
  | .netdevUnregister dev => ∀ p ∈ dev, ¬ Registered s.devices p
  | .netdevFree dev => ∀ p ∈ dev, ¬ Registered s.devices p
  | .initNetdev malloc =>
      if allocated malloc 0 then
        allocated malloc 1 = true ∧ s.ndevDb = List.replicate maxInterface none
      else
        s.espPriv = List.replicate maxNetworkInterfaces none

instance (l : List (Option ℕ)) (i p : ℕ) : Decidable (Takes l i p) :=
  inferInstanceAs (Decidable (∀ q ∈ l[i]?.join, q = p ∨ some q ∈ l.eraseIdx i))

instance (s : State) : DecidablePred (Permitted s)
  | .netdevAlloc _ _ _ => isTrue trivial
  | .netdevRegister dev ops =>
      inferInstanceAs (Decidable (∀ p ∈ dev, ops.isSome →
        Takes s.ndevDb (s.ndevIndex.toNat % maxInterface) p))
  | .netdevUnregister dev =>
      inferInstanceAs (Decidable (∀ p ∈ dev, ¬ Registered s.devices p))
  | .netdevFree dev => inferInstanceAs (Decidable (∀ p ∈ dev, ¬ Registered s.devices p))
  | .initNetdev malloc =>
      inferInstanceAs (Decidable (if allocated malloc 0 then
        allocated malloc 1 = true ∧ s.ndevDb = List.replicate maxInterface none
      else
        s.espPriv = List.replicate maxNetworkInterfaces none))

/-- What permitted calls keep: the registered devices are those in `ndev_db`, and `esp_priv`
points to private blocks of registered devices. -/
structure Core (s : State) : Prop where
  ndevDb : s.ndevDb.length = maxInterface
  espPriv : s.espPriv.length = maxNetworkInterfaces
  registered : ∀ p, Registered s.devices p ↔ some p ∈ s.ndevDb
  fresh : ∀ p, s.next ≤ p → s.devices p = none
  owner : ∀ p d, s.devices p = some d → d.priv = some p
  privs : ∀ p, some p ∈ s.espPriv → Registered s.devices p ∧
    ∃ block, s.privs p = some (some block) ∧ block.netdev = p

theorem registered_iff {devices : ℕ → Option Device} {p : ℕ} :
    Registered devices p ↔ ∃ d, devices p = some d ∧ d.netOps.isSome = true := by
  rw [Registered]
  cases devices p with
  | none => simp
  | some d => simp

theorem registered_update_self {devices : ℕ → Option Device} {p : ℕ} {d : Device} :
    Registered (Function.update devices p (some d)) p ↔ d.netOps.isSome = true := by
  rw [Registered, Function.update_self, Option.bind_some]

theorem registered_update_of_ne {devices : ℕ → Option Device} {p q : ℕ} (h : q ≠ p)
    (d : Option Device) :
    Registered (Function.update devices p d) q ↔ Registered devices q := by
  rw [Registered, Registered, Function.update_of_ne h]

/-- A device that is not registered may change or go. -/
theorem registered_update {devices : ℕ → Option Device} {p : ℕ} {d : Option Device}
    (h : ¬ Registered devices p) (hd : (d.bind Device.netOps).isSome = false) (q : ℕ) :
    Registered (Function.update devices p d) q ↔ Registered devices q := by
  by_cases hq : q = p
  · subst hq
    refine iff_of_false ?_ h
    rw [Registered, Function.update_self, hd]
    exact Bool.false_ne_true
  · exact registered_update_of_ne hq d

/-- A slot that no other device needs takes a device. -/
theorem mem_set_iff {l : List (Option ℕ)} {i p : ℕ} (hlt : i < l.length) (hslot : Takes l i p)
    (q : ℕ) : some q ∈ l.set i (some p) ↔ q = p ∨ some q ∈ l := by
  constructor
  · intro hq
    rcases List.mem_or_eq_of_mem_set hq with hq | hq
    · exact Or.inr hq
    · exact Or.inl (Option.some.inj hq)
  · intro hq
    rcases hq with hq | hq
    · rw [hq]
      exact List.mem_set hlt (some p)
    · by_cases hqp : q = p
      · rw [hqp]
        exact List.mem_set hlt (some p)
      · obtain ⟨j, hj⟩ := List.mem_iff_getElem?.1 hq
        have hother : ∃ k, k ≠ i ∧ l[k]? = some (some q) := by
          by_cases hij : j = i
          · subst hij
            have herase := (hslot q (Option.join_eq_some_iff.2 hj)).resolve_left hqp
            exact List.mem_eraseIdx_iff_getElem?.1 herase
          · exact ⟨j, hij, hj⟩
        obtain ⟨k, hki, hk⟩ := hother
        rw [List.mem_iff_getElem?]
        exact ⟨k, by rw [List.getElem?_set_ne (Ne.symm hki), hk]⟩

/-- A free slot takes every device. -/
theorem takes_of_free {l : List (Option ℕ)} {i : ℕ} (h : l[i]? = some none) (p : ℕ) :
    Takes l i p := by
  intro q hq
  rw [h] at hq
  cases hq

namespace Core

variable {s : State}

theorem init : Core Registry.init := by
  constructor
  · rfl
  · rfl
  · intro p
    refine iff_of_false Bool.false_ne_true ?_
    simp [Registry.init]
  · intro p _
    rfl
  · intro p d hd
    cases hd
  · intro p hp
    simp [Registry.init] at hp

/-- A registered device is found, and no other. -/
theorem consistent (h : Core s) : Consistent s := by
  have hget : ∀ name p, netdevGet s (some name) = some p →
      some p ∈ s.ndevDb ∧ HasName s p name := by
    intro name p hp
    obtain ⟨ndev, hmem, hfound⟩ := List.exists_of_findSome?_eq_some hp
    cases ndev with
    | none => cases hfound
    | some q =>
        cases hd : s.devices q with
        | none =>
            simp only [hd] at hfound
            cases hfound
        | some d =>
            simp only [hd] at hfound
            split at hfound
            · rename_i hname
              cases hfound
              exact ⟨hmem, d, hd, hname⟩
            · cases hfound
  constructor
  · exact fun p hp => (h.registered p).2 hp
  · intro name p hp
    obtain ⟨hmem, hname⟩ := hget name p hp
    exact ⟨(h.registered p).2 hmem, hname⟩
  · intro name p hp hname
    obtain ⟨d, hd, hsame⟩ := hname
    rw [netdevGet, List.findSome?_isSome_iff]
    refine ⟨some p, (h.registered p).1 hp, ?_⟩
    simp only [hd, hsame, if_true]
    rfl

theorem lt_next (h : Core s) {p : ℕ} {d : Device} (hd : s.devices p = some d) : p < s.next := by
  by_contra hle
  rw [h.fresh p (Nat.not_lt.1 hle)] at hd
  cases hd

theorem not_registered_next (h : Core s) : ¬ Registered s.devices s.next := by
  rw [Registered, h.fresh s.next (Nat.le_refl _)]
  exact Bool.false_ne_true

/-- The private block of a registered device does not change with one that is not. -/
theorem privs_update (h : Core s) {p : ℕ} (hp : ¬ Registered s.devices p)
    (block : Option (Option PrivBlock)) {q : ℕ} (hq : some q ∈ s.espPriv) :
    ∃ b, Function.update s.privs p block q = some (some b) ∧ b.netdev = q := by
  obtain ⟨hregistered, hblock⟩ := h.privs q hq
  have hne : q ≠ p := by
    intro heq
    exact hp (heq ▸ hregistered)
  rw [Function.update_of_ne hne]
  exact hblock

/-- A device that is not registered changes or goes, or a new one comes. -/
theorem update (h : Core s) {p next : ℕ} {d : Option Device} (hp : ¬ Registered s.devices p)
    (hd : (d.bind Device.netOps).isSome = false) (howner : ∀ d' ∈ d, d'.priv = some p)
    (hnext : s.next ≤ next) (hlt : p < next) (block : Option (Option PrivBlock)) :
    Core
      { s with
        devices := Function.update s.devices p d
        privs := Function.update s.privs p block
        next := next } := by
  constructor
  · exact h.ndevDb
  · exact h.espPriv
  · intro q
    rw [← h.registered q]
    exact registered_update hp hd q
  · intro q hq
    have hne : q ≠ p := (Nat.lt_of_lt_of_le hlt hq).ne'
    exact (Function.update_of_ne hne _ _).trans (h.fresh q (Nat.le_trans hnext hq))
  · intro q d' hd'
    change Function.update s.devices p d q = some d' at hd'
    by_cases hq : q = p
    · subst hq
      rw [Function.update_self] at hd'
      exact howner d' hd'
    · rw [Function.update_of_ne hq] at hd'
      exact h.owner q d' hd'
  · intro q hq
    exact ⟨(registered_update hp hd q).2 (h.privs q hq).1, h.privs_update hp block hq⟩

/-- The same without a change of the private block. -/
theorem update_device (h : Core s) {p next : ℕ} {d : Option Device}
    (hp : ¬ Registered s.devices p) (hd : (d.bind Device.netOps).isSome = false)
    (howner : ∀ d' ∈ d, d'.priv = some p) (hnext : s.next ≤ next) (hlt : p < next) :
    Core { s with devices := Function.update s.devices p d, next := next } := by
  have hsame := h.update hp hd howner hnext hlt (s.privs p)
  rw [Function.update_eq_self] at hsame
  exact hsame

/-- A call of `netdev_alloc` leaves everything but the new blocks as it was. -/
theorem netdevAlloc {ndebug : Bool} {name : Option (List Char)} {mallocNdev mallocPriv : Bool}
    {r : State × Option ℕ} (h : Core s)
    (hr : Registry.netdevAlloc ndebug s name mallocNdev mallocPriv = some r) :
    Core r.1 ∧ r.1.ndevDb = s.ndevDb := by
  have hlt : s.next < s.next + 1 := Nat.lt_succ_self _
  unfold Registry.netdevAlloc at hr
  cases name with
  | none =>
      cases hr
      exact ⟨h, rfl⟩
  | some name =>
      simp only at hr
      split at hr
      · split at hr
        · cases hr
          refine ⟨h.update h.not_registered_next rfl ?_ (Nat.le_succ _) hlt _, rfl⟩
          intro d hd
          cases hd
          rfl
        · split at hr
          · cases hr
            refine ⟨?_, rfl⟩
            rw [Function.update_idem]
            refine h.update_device h.not_registered_next rfl ?_ (Nat.le_succ _) hlt
            intro d hd
            cases hd
          · cases hr
      · split at hr
        · cases hr
          exact ⟨h, rfl⟩
        · cases hr

/-- The slot of the next registration. -/
theorem slot_lt (h : Core s) : s.ndevIndex.toNat % maxInterface < s.ndevDb.length := by
  rw [h.ndevDb]
  exact Nat.mod_lt _ (by decide)

/-- A device is registered into a slot that no other device needs. -/
theorem netdevRegister (h : Core s) {p : ℕ} {d : Device} (hd : s.devices p = some d)
    (ops : NetdevOps) (hslot : Takes s.ndevDb (s.ndevIndex.toNat % maxInterface) p) :
    Core (Registry.netdevRegister s (some (p, d)) (some ops)).2 ∧
      NoEviction s (Registry.netdevRegister s (some (p, d)) (some ops)).2 := by
  have hmem := mem_set_iff h.slot_lt hslot
  constructor
  · constructor
    · exact (List.length_set ..).trans h.ndevDb
    · exact h.espPriv
    · intro q
      refine Iff.trans ?_ (hmem q).symm
      by_cases hq : q = p
      · subst hq
        exact iff_of_true (registered_update_self.2 rfl) (Or.inl rfl)
      · rw [← h.registered q, or_iff_right hq]
        exact registered_update_of_ne hq _
    · intro q hq
      have hne : q ≠ p := (Nat.lt_of_lt_of_le (h.lt_next hd) hq).ne'
      exact (Function.update_of_ne hne _ _).trans (h.fresh q hq)
    · intro q d' hd'
      change Function.update s.devices p (some { d with netOps := some ops }) q = some d' at hd'
      by_cases hq : q = p
      · subst hq
        rw [Function.update_self] at hd'
        cases hd'
        exact h.owner q d hd
      · rw [Function.update_of_ne hq] at hd'
        exact h.owner q d' hd'
    · intro q hq
      refine ⟨?_, (h.privs q hq).2⟩
      by_cases hqp : q = p
      · subst hqp
        exact registered_update_self.2 rfl
      · exact (registered_update_of_ne hqp _).2 (h.privs q hq).1
  · intro q hq _
    exact (hmem q).2 (Or.inr hq)

theorem netdevUnregister (h : Core s) {p : ℕ} {d : Device} (hd : s.devices p = some d)
    (hp : ¬ Registered s.devices p) :
    Core (Registry.netdevUnregister s (some (p, d))).2 := by
  refine h.update_device hp rfl ?_ (Nat.le_refl _) (h.lt_next hd)
  intro d' hd'
  cases hd'
  exact h.owner p d hd

theorem netdevFree (h : Core s) {p : ℕ} {d : Device} (hd : s.devices p = some d)
    (hp : ¬ Registered s.devices p) : Core (Registry.netdevFree s (some (p, d))) := by
  have hpriv := h.owner p d hd
  simp only [Registry.netdevFree, hpriv]
  refine h.update hp rfl ?_ (Nat.le_refl _) (h.lt_next hd) none
  intro d' hd'
  cases hd'

end Core

section Init

variable {ndebug : Bool} {malloc : ℕ → Bool × Bool} {s : State}

/-- The state after a turn of `init_netdev` that went well. -/
def enlist (s : State) (i : ℕ) (ifName : List Char) (ifType : UInt8) : State where
  ndevDb := s.ndevDb.set (s.ndevIndex.toNat % maxInterface) (some s.next)
  ndevIndex := s.ndevIndex + 1
  espPriv := s.espPriv.set i (some s.next)
  devices := Function.update s.devices s.next
    (some { newDevice s ifName with netOps := some espNetOps })
  privs := Function.update s.privs s.next
    (some (some { netdev := s.next, ifType := ifType, ifNum := 0 }))
  next := s.next + 1

theorem initLoop_of_allocated {i : ℕ} (h : allocated malloc i = true) (n : ℕ)
    (ifName : List Char) (ifType : UInt8) :
    initLoop ndebug malloc (n + 1) i ifName ifType s =
      initLoop ndebug malloc n (i + 1) softapInterface espApIf (enlist s i ifName ifType) := by
  have hboth : (malloc i).1 = true ∧ (malloc i).2 = true := by
    rw [allocated, Bool.and_eq_true] at h
    exact h
  rw [initLoop, netdevAlloc, hboth.1, hboth.2]
  simp only [if_true, netdevGetPriv, newDevice, Function.update_self, Option.bind_some, deref,
    Option.map_some, netdevRegister, Function.update_idem]
  rfl

/-- An allocation fails: nothing is left of the turn. -/
theorem initLoop_of_not_allocated {i : ℕ} (h : allocated malloc i = false) {n : ℕ}
    {ifName : List Char} {ifType : UInt8} {r : StmRet × State}
    (hfresh : s.devices s.next = none)
    (hr : initLoop ndebug malloc (n + 1) i ifName ifType s = some r) :
    ∃ next, s.next ≤ next ∧ r = (.STM_FAIL, deinitNetdev { s with next := next }) := by
  have hsame : ∀ d : Option Device, Function.update (Function.update s.devices s.next d) s.next
      none = s.devices := by
    intro d
    rw [Function.update_idem, ← hfresh, Function.update_eq_self]
  rw [initLoop, netdevAlloc] at hr
  rw [allocated, Bool.and_eq_false_iff] at h
  cases hndev : (malloc i).1 with
  | true =>
      have hpriv : (malloc i).2 = false := by
        rw [hndev] at h
        exact h.resolve_left (fun hf => nomatch hf)
      cases ndebug with
      | true =>
          simp only [hndev, hpriv, if_true, Bool.false_eq_true, if_false, hsame] at hr
          cases hr
          exact ⟨_, Nat.le_succ _, rfl⟩
      | false =>
          simp only [hndev, hpriv, if_true, Bool.false_eq_true, if_false] at hr
          cases hr
  | false =>
      cases ndebug with
      | true =>
          simp only [hndev, if_true, Bool.false_eq_true, if_false] at hr
          cases hr
          exact ⟨_, Nat.le_refl _, rfl⟩
      | false =>
          simp only [hndev, Bool.false_eq_true, if_false] at hr
          cases hr

/-- A device as the calls of `Net` see it, that open and close it. -/
def Device.netdev (s : State) (d : Device) : Netdev where
  name := d.name
  netOps := d.netOps
  state := d.state
  netHandle := none
  rxQ := none
  priv := (d.priv.bind s.privs).join.map fun block =>
    { ifType := block.ifType, ifNum := block.ifNum }

/-- The devices of `ndev_db`, in the order of the slots. -/
def netdevs (s : State) : List Netdev :=
  (s.ndevDb.filterMap id).filterMap fun p => (s.devices p).map (Device.netdev s)

/-- An `init_netdev` at the start that gets its memory leaves the interfaces with which their
life cycle begins. -/
theorem netdevs_initNetdev {κ : Type} (h0 : allocated malloc 0 = true)
    (h1 : allocated malloc 1 = true) :
    ∃ t, initNetdev ndebug Registry.init malloc = some (.STM_OK, t) ∧
      netdevs t = (Net.init hostInterfaces : Net.State κ).ndevDb := by
  refine ⟨enlist (enlist Registry.init 0 staInterface espStaIf) 1 softapInterface espApIf,
    ?_, rfl⟩
  rw [initNetdev, maxNetworkInterfaces, initLoop_of_allocated h0, initLoop_of_allocated h1]
  rfl

@[simp] theorem ndevDb_netdevUnregister (dev : Option (ℕ × Device)) :
    (netdevUnregister s dev).2.ndevDb = s.ndevDb := by
  cases dev with
  | none => rfl
  | some pd => rfl

@[simp] theorem ndevDb_netdevFree (dev : Option (ℕ × Device)) :
    (netdevFree s dev).ndevDb = s.ndevDb := by
  cases dev with
  | none => rfl
  | some pd => rfl

theorem ndevDb_deinitEntry (s : State) (i : ℕ) : (deinitEntry s i).ndevDb = s.ndevDb := by
  unfold deinitEntry
  split
  · split
    · simp
    · rfl
  · rfl

theorem ndevDb_deinitNetdev (s : State) : (deinitNetdev s).ndevDb = s.ndevDb := by
  change (deinitEntry (deinitEntry s 0) 1).ndevDb = s.ndevDb
  rw [ndevDb_deinitEntry, ndevDb_deinitEntry]

theorem devices_netdevUnregister {p : ℕ} (hp : s.devices p = none) (q : ℕ) :
    (netdevUnregister s (deref s q)).2.devices p = none := by
  cases hq : s.devices q with
  | none =>
      rw [deref, hq]
      exact hp
  | some d =>
      have hne : p ≠ q := by
        intro heq
        rw [heq, hq] at hp
        cases hp
      rw [deref, hq]
      exact (Function.update_of_ne hne _ _).trans hp

theorem devices_netdevFree {p q : ℕ} (hp : p = q ∨ s.devices p = none) :
    (netdevFree s (deref s q)).devices p = none := by
  by_cases hpq : p = q
  · subst hpq
    cases hd : s.devices p with
    | none =>
        rw [deref, hd]
        exact hd
    | some d =>
        rw [deref, hd]
        exact Function.update_self _ _ _
  · have hnone := hp.resolve_left hpq
    cases hq : s.devices q with
    | none =>
        rw [deref, hq]
        exact hnone
    | some d =>
        rw [deref, hq]
        exact (Function.update_of_ne hpq _ _).trans hnone

/-- A freed device stays freed, and the device of the entry goes. -/
theorem devices_deinitEntry {i p : ℕ}
    (hp : s.devices p = none ∨ ∃ priv block, s.espPriv[i]? = some (some priv) ∧
      s.privs priv = some (some block) ∧ block.netdev = p) :
    (deinitEntry s i).devices p = none := by
  rcases hp with hp | ⟨priv, block, hentry, hblock, hnetdev⟩
  · unfold deinitEntry
    split
    · split
      · exact devices_netdevFree (Or.inr (devices_netdevUnregister hp _))
      · exact hp
    · exact hp
  · simp only [deinitEntry, hentry, hblock]
    exact devices_netdevFree (Or.inl hnetdev.symm)

/-- `deinit_netdev` frees the device of the first entry. -/
theorem devices_deinitNetdev {p : ℕ} {priv : ℕ} {block : PrivBlock}
    (hentry : s.espPriv[0]? = some (some priv)) (hblock : s.privs priv = some (some block))
    (hnetdev : block.netdev = p) : (deinitNetdev s).devices p = none :=
  devices_deinitEntry (Or.inl (devices_deinitEntry (Or.inr ⟨priv, block, hentry, hblock, hnetdev⟩)))

/-- With nothing in `esp_priv`, `deinit_netdev` does nothing. -/
theorem deinitNetdev_of_empty (h : s.espPriv = List.replicate maxNetworkInterfaces none) :
    deinitNetdev s = s := by
  have hentry : ∀ i, deinitEntry s i = s := by
    intro i
    unfold deinitEntry
    split
    · rename_i priv hpriv
      rw [h, List.getElem?_replicate] at hpriv
      split at hpriv
      · cases hpriv
      · cases hpriv
    · rfl
  change deinitEntry (deinitEntry s 0) 1 = s
  rw [hentry, hentry]

/-- Another entry stays as it is, with its private block. -/
theorem deinitEntry_of_ne (h : Core s) {p q : ℕ} {i j : ℕ} (hij : i ≠ j) (hpq : p ≠ q)
    (hq : s.espPriv[i]? = some (some q)) :
    (deinitEntry s i).espPriv[j]? = s.espPriv[j]? ∧ (deinitEntry s i).privs p = s.privs p := by
  obtain ⟨hregistered, block, hblock, hnetdev⟩ := h.privs q (List.mem_of_getElem? hq)
  obtain ⟨d, hd, -⟩ := registered_iff.1 hregistered
  have hpriv := h.owner q d hd
  simp only [deinitEntry, hq, hblock, hnetdev, deref, hd, Option.map_some, netdevUnregister,
    Function.update_self, netdevFree, hpriv]
  exact ⟨List.getElem?_set_ne hij, Function.update_of_ne hpq _ _⟩

/-- Otherwise it frees a device. -/
theorem freed_of_entry (h : Core s) {p : ℕ} (hp : some p ∈ s.espPriv) :
    (deinitNetdev s).devices p = none := by
  obtain ⟨hregistered, block, hblock, hnetdev⟩ := h.privs p hp
  obtain ⟨i, hi⟩ := List.mem_iff_getElem?.1 hp
  have hlt : i < maxNetworkInterfaces := by
    rw [← h.espPriv]
    exact (List.getElem?_eq_some_iff.1 hi).1
  match i, hlt with
  | 0, _ => exact devices_deinitNetdev hi hblock hnetdev
  | 1, _ =>
      apply devices_deinitEntry
      by_cases hfirst : ∃ q, s.espPriv[0]? = some (some q)
      · obtain ⟨q, hq⟩ := hfirst
        by_cases hpq : p = q
        · subst hpq
          exact Or.inl (devices_deinitEntry (Or.inr ⟨p, block, hq, hblock, hnetdev⟩))
        · obtain ⟨hentry, hpriv⟩ := deinitEntry_of_ne h Nat.zero_ne_one hpq hq
          exact Or.inr ⟨p, block, hentry.trans hi, hpriv.trans hblock, hnetdev⟩
      · have hsame : deinitEntry s 0 = s := by
          unfold deinitEntry
          split
          · rename_i q hq
            exact absurd ⟨q, hq⟩ hfirst
          · rfl
        rw [hsame]
        exact Or.inr ⟨p, block, hi, hblock, hnetdev⟩

/-- `init_netdev` registers both devices, or fails in its second turn or in its first. -/
theorem initNetdev_cases {r : StmRet × State} (h : Core s)
    (hr : initNetdev ndebug s malloc = some r) :
    (allocated malloc 0 = true ∧ allocated malloc 1 = true ∧
        r = (.STM_OK,
          enlist (enlist s 0 staInterface espStaIf) 1 softapInterface espApIf)) ∨
      (allocated malloc 0 = true ∧ allocated malloc 1 = false ∧
        ∃ next, r = (.STM_FAIL,
          deinitNetdev { enlist s 0 staInterface espStaIf with next := next })) ∨
      (allocated malloc 0 = false ∧
        ∃ next, s.next ≤ next ∧ r = (.STM_FAIL, deinitNetdev { s with next := next })) := by
  rw [initNetdev, maxNetworkInterfaces] at hr
  cases h0 : allocated malloc 0 with
  | true =>
      rw [initLoop_of_allocated h0] at hr
      cases h1 : allocated malloc 1 with
      | true =>
          rw [initLoop_of_allocated h1] at hr
          cases hr
          exact Or.inl ⟨rfl, rfl, rfl⟩
      | false =>
          have hfresh : (enlist s 0 staInterface espStaIf).devices (s.next + 1) = none :=
            (Function.update_of_ne (Nat.succ_ne_self _) _ _).trans
              (h.fresh _ (Nat.le_succ _))
          obtain ⟨next, -, hr⟩ := initLoop_of_not_allocated h1 hfresh hr
          exact Or.inr (Or.inl ⟨rfl, rfl, next, hr⟩)
  | false =>
      obtain ⟨next, hnext, hr⟩ :=
        initLoop_of_not_allocated h0 (h.fresh _ (Nat.le_refl _)) hr
      exact Or.inr (Or.inr ⟨rfl, next, hnext, hr⟩)

/-- The next slot is the other one. -/
theorem slot_succ (i : UInt8) : (i + 1).toNat % maxInterface ≠ i.toNat % maxInterface := by
  rw [UInt8.toNat_add, maxInterface]
  have hone : (1 : UInt8).toNat = 1 := rfl
  omega

namespace Core

theorem setNext (h : Core s) {next : ℕ} (hnext : s.next ≤ next) :
    Core { s with next := next } :=
  ⟨h.ndevDb, h.espPriv, h.registered, fun p hp => h.fresh p (Nat.le_trans hnext hp), h.owner,
    h.privs⟩

/-- A registered device is stored in `esp_priv`. -/
theorem setEspPriv (h : Core s) (i : ℕ) {p : ℕ} (hp : Registered s.devices p)
    {block : PrivBlock} (hblock : s.privs p = some (some block)) (hnetdev : block.netdev = p) :
    Core { s with espPriv := s.espPriv.set i (some p) } := by
  refine ⟨h.ndevDb, (List.length_set ..).trans h.espPriv, h.registered, h.fresh, h.owner, ?_⟩
  intro q hq
  rcases List.mem_or_eq_of_mem_set hq with hq | hq
  · exact h.privs q hq
  · cases hq
    exact ⟨hp, block, hblock, hnetdev⟩

/-- A turn of `init_netdev` that finds its slot free. -/
theorem enlist (h : Core s)
    (hslot : s.ndevDb[s.ndevIndex.toNat % maxInterface]? = some none) (i : ℕ)
    (ifName : List Char) (ifType : UInt8) : Core (enlist s i ifName ifType) := by
  have hnew := h.update (d := some (newDevice s ifName)) h.not_registered_next rfl
    (by intro d hd; cases hd; rfl) (Nat.le_succ _) (Nat.lt_succ_self _)
    (some (some { netdev := s.next, ifType := ifType, ifNum := 0 }))
  have hregister := (hnew.netdevRegister (Function.update_self _ _ _) espNetOps
    (takes_of_free hslot _)).1
  simp only [Registry.netdevRegister, Function.update_idem] at hregister
  exact hregister.setEspPriv i (registered_update_self.2 rfl) (Function.update_self _ _ _) rfl

/-- Both turns of `init_netdev` with both slots free. -/
theorem enlist_enlist (h : Core s) (hdb : s.ndevDb = List.replicate maxInterface none) :
    Core (Registry.enlist (Registry.enlist s 0 staInterface espStaIf) 1 softapInterface
      espApIf) := by
  have hfree : ∀ i, i < maxInterface → s.ndevDb[i]? = some none := by
    intro i hi
    rw [hdb, List.getElem?_replicate, if_pos hi]
  have hlt : ∀ i : UInt8, i.toNat % maxInterface < maxInterface :=
    fun i => Nat.mod_lt _ (by decide)
  have hfirst := h.enlist (hfree _ (hlt _)) 0 staInterface espStaIf
  refine hfirst.enlist ?_ 1 softapInterface espApIf
  change (s.ndevDb.set _ _)[(s.ndevIndex + 1).toNat % maxInterface]? = some none
  rw [List.getElem?_set_ne (slot_succ s.ndevIndex).symm]
  exact hfree _ (hlt _)

end Core

end Init

section Step

variable {ndebug : Bool} {s s' : State}

theorem argument_eq_some {dev : Option ℕ} {dev' : Option (ℕ × Device)}
    (h : argument s dev = some dev') :
    dev = none ∧ dev' = none ∨ ∃ p d, dev = some p ∧ s.devices p = some d ∧
      dev' = some (p, d) := by
  cases dev with
  | none =>
      cases h
      exact Or.inl ⟨rfl, rfl⟩
  | some p =>
      refine Or.inr ?_
      cases hd : s.devices p with
      | none =>
          rw [argument, deref, hd] at h
          cases h
      | some d =>
          rw [argument, deref, hd] at h
          cases h
          exact ⟨p, d, rfl, hd, rfl⟩

/-- An `init_netdev` that fails in its first turn with nothing in `esp_priv`. -/
theorem initNetdev_first {malloc : ℕ → Bool × Bool} {r : StmRet × State} (h : Core s)
    (h0 : allocated malloc 0 = false)
    (hempty : s.espPriv = List.replicate maxNetworkInterfaces none)
    (hr : initNetdev ndebug s malloc = some r) :
    ∃ next, s.next ≤ next ∧ r = (.STM_FAIL, { s with next := next }) := by
  rcases initNetdev_cases h hr with ⟨hall, -⟩ | ⟨hall, -⟩ | ⟨-, next, hnext, hr⟩
  · rw [h0] at hall
    cases hall
  · rw [h0] at hall
    cases hall
  · rw [deinitNetdev_of_empty (s := { s with next := next }) hempty] at hr
    exact ⟨next, hnext, hr⟩

/-- A permitted `init_netdev` registers both devices or leaves no trace. -/
theorem initNetdev_of_permitted {malloc : ℕ → Bool × Bool} {r : StmRet × State} (h : Core s)
    (hp : Permitted s (.initNetdev malloc)) (hr : initNetdev ndebug s malloc = some r) :
    Core r.2 ∧ NoEviction s r.2 ∧ (r.1 = .STM_FAIL → Restored s r.2) := by
  rw [Permitted] at hp
  cases h0 : allocated malloc 0 with
  | true =>
      rw [if_pos h0] at hp
      obtain ⟨h1, hdb⟩ := hp
      rcases initNetdev_cases h hr with ⟨-, -, hr⟩ | ⟨-, hfail, -⟩ | ⟨hfail, -⟩
      · rw [hr]
        refine ⟨h.enlist_enlist hdb, ?_, fun hf => nomatch hf⟩
        intro p hmem _
        rw [hdb] at hmem
        cases List.eq_of_mem_replicate hmem
      · rw [h1] at hfail
        cases hfail
      · rw [h0] at hfail
        cases hfail
  | false =>
      rw [h0, if_neg Bool.false_ne_true] at hp
      obtain ⟨next, hnext, hr⟩ := initNetdev_first h h0 hp hr
      rw [hr]
      exact ⟨h.setNext hnext, fun p hmem _ => hmem, fun _ => ⟨rfl, rfl, rfl, rfl, rfl⟩⟩

/-- A permitted call keeps the core and evicts nothing. -/
theorem core_of_permitted {a : Action} (h : Core s) (hp : Permitted s a)
    (hstep : step ndebug s a = some s') : Core s' ∧ NoEviction s s' := by
  have hsame : Core s ∧ NoEviction s s := ⟨h, fun p hmem _ => hmem⟩
  cases a with
  | netdevAlloc name mallocNdev mallocPriv =>
      obtain ⟨r, hr, rfl⟩ := Option.map_eq_some_iff.1 hstep
      obtain ⟨hcore, hdb⟩ := h.netdevAlloc hr
      refine ⟨hcore, fun p hmem _ => ?_⟩
      rw [hdb]
      exact hmem
  | netdevRegister dev ops =>
      obtain ⟨dev', hdev, rfl⟩ := Option.map_eq_some_iff.1 hstep
      rcases argument_eq_some hdev with ⟨-, rfl⟩ | ⟨p, d, rfl, hd, rfl⟩
      · exact hsame
      · cases ops with
        | none => exact hsame
        | some ops => exact h.netdevRegister hd ops (hp p rfl rfl)
  | netdevUnregister dev =>
      obtain ⟨dev', hdev, rfl⟩ := Option.map_eq_some_iff.1 hstep
      rcases argument_eq_some hdev with ⟨-, rfl⟩ | ⟨p, d, rfl, hd, rfl⟩
      · exact hsame
      · exact ⟨h.netdevUnregister hd (hp p rfl), fun q hmem _ => hmem⟩
  | netdevFree dev =>
      obtain ⟨dev', hdev, rfl⟩ := Option.map_eq_some_iff.1 hstep
      rcases argument_eq_some hdev with ⟨-, rfl⟩ | ⟨p, d, rfl, hd, rfl⟩
      · exact hsame
      · exact ⟨h.netdevFree hd (hp p rfl), fun q hmem _ => hmem⟩
  | initNetdev malloc =>
      obtain ⟨r, hr, rfl⟩ := Option.map_eq_some_iff.1 hstep
      obtain ⟨hcore, hkept, -⟩ := initNetdev_of_permitted h hp hr
      exact ⟨hcore, hkept⟩

/-- A device registered into the next slot evicts no other. -/
theorem takes_of_noEviction {p : ℕ} {d : Device} {ops : NetdevOps} (h : Core s)
    (hkept : NoEviction s (netdevRegister s (some (p, d)) (some ops)).2) :
    Takes s.ndevDb (s.ndevIndex.toNat % maxInterface) p := by
  intro q hq
  have hentry := Option.join_eq_some_iff.1 hq
  have hmem : some q ∈ s.ndevDb := List.mem_of_getElem? hentry
  by_cases hqp : q = p
  · exact Or.inl hqp
  · right
    have hregistered := (registered_update_of_ne hqp (some { d with netOps := some ops })).2
      ((h.registered q).2 hmem)
    obtain ⟨j, hj⟩ := List.mem_iff_getElem?.1 (hkept q hmem hregistered)
    change (s.ndevDb.set _ (some p))[j]? = some (some q) at hj
    refine List.mem_eraseIdx_iff_getElem?.2 ⟨j, ?_, ?_⟩
    · rintro rfl
      rw [List.getElem?_set_self h.slot_lt] at hj
      exact hqp (Option.some.inj (Option.some.inj hj)).symm
    · have hne : s.ndevIndex.toNat % maxInterface ≠ j := by
        rintro rfl
        rw [List.getElem?_set_self h.slot_lt] at hj
        exact hqp (Option.some.inj (Option.some.inj hj)).symm
      rw [List.getElem?_set_ne hne] at hj
      exact hj

/-- After both turns of `init_netdev` the two new devices hold the two slots. -/
theorem ndevDb_enlist_enlist (h : Core s) {q : ℕ}
    (hq : some q ∈ (enlist (enlist s 0 staInterface espStaIf) 1 softapInterface espApIf).ndevDb) :
    s.next ≤ q := by
  obtain ⟨j, hj⟩ := List.mem_iff_getElem?.1 hq
  change ((s.ndevDb.set (s.ndevIndex.toNat % maxInterface) (some s.next)).set
    ((s.ndevIndex + 1).toNat % maxInterface) (some (s.next + 1)))[j]? = some (some q) at hj
  have hlen := h.ndevDb
  have hne := slot_succ s.ndevIndex
  have hfirst : s.ndevIndex.toNat % maxInterface < maxInterface := Nat.mod_lt _ (by decide)
  have hsecond : (s.ndevIndex + 1).toNat % maxInterface < maxInterface := Nat.mod_lt _ (by decide)
  have hjlt : j < maxInterface := by
    have hlt := (List.getElem?_eq_some_iff.1 hj).1
    rw [List.length_set, List.length_set, hlen] at hlt
    exact hlt
  by_cases hj2 : (s.ndevIndex + 1).toNat % maxInterface = j
  · rw [hj2, List.getElem?_set_self (by rw [List.length_set, hlen]; exact hjlt)] at hj
    cases hj
    exact Nat.le_succ _
  · have hj1 : s.ndevIndex.toNat % maxInterface = j := by
      rw [maxInterface] at *
      omega
    rw [List.getElem?_set_ne hj2, hj1, List.getElem?_set_self (by rw [hlen]; exact hjlt)] at hj
    cases hj
    exact Nat.le_refl _

/-- An `init_netdev` that serves is permitted. -/
theorem permitted_of_initNetdev {malloc : ℕ → Bool × Bool} {r : StmRet × State} (h : Core s)
    (hr : initNetdev ndebug s malloc = some r) (hconsistent : Consistent r.2)
    (hkept : NoEviction s r.2) : Permitted s (.initNetdev malloc) := by
  rw [Permitted]
  rcases initNetdev_cases h hr with ⟨h0, h1, rfl⟩ | ⟨h0, h1, next, rfl⟩ | ⟨h0, next, hnext, rfl⟩
  · rw [if_pos h0]
    refine ⟨h1, ?_⟩
    -- A device in a slot would stay registered and lose it.
    refine List.eq_replicate_iff.2 ⟨h.ndevDb, ?_⟩
    intro x hx
    cases x with
    | none => rfl
    | some q =>
        have hregistered := (h.registered q).2 hx
        obtain ⟨d, hd, -⟩ := registered_iff.1 hregistered
        have hlt := h.lt_next hd
        have hstays : Registered (enlist (enlist s 0 staInterface espStaIf) 1 softapInterface
            espApIf).devices q :=
          (registered_update_of_ne (Nat.lt_succ_of_lt hlt).ne _).2
            ((registered_update_of_ne hlt.ne _).2 hregistered)
        exact absurd (ndevDb_enlist_enlist h (hkept q hx hstays)) (Nat.not_le.2 hlt)
  · -- The device of the first turn is freed, and holds its slot.
    have hmem : some s.next ∈ (deinitNetdev
        { enlist s 0 staInterface espStaIf with next := next }).ndevDb := by
      rw [ndevDb_deinitNetdev]
      exact List.mem_set h.slot_lt _
    have hentry : (s.espPriv.set 0 (some s.next))[0]? = some (some s.next) :=
      List.getElem?_set_self (by rw [h.espPriv]; decide)
    have hfreed := devices_deinitNetdev
      (s := { enlist s 0 staInterface espStaIf with next := next }) hentry
      (Function.update_self _ _ _) rfl
    have hregistered := hconsistent.only s.next hmem
    rw [Registered, hfreed] at hregistered
    cases hregistered
  · rw [h0, if_neg Bool.false_ne_true]
    refine List.eq_replicate_iff.2 ⟨h.espPriv, ?_⟩
    intro x hx
    cases x with
    | none => rfl
    | some q =>
        have hmem : some q ∈ (deinitNetdev { s with next := next }).ndevDb := by
          rw [ndevDb_deinitNetdev]
          exact (h.registered q).1 (h.privs q hx).1
        have hfreed := freed_of_entry (h.setNext hnext) hx
        have hregistered := hconsistent.only q hmem
        rw [Registered, hfreed] at hregistered
        cases hregistered

/-- A call that serves is permitted. -/
theorem permitted_of_served {a : Action} (h : Core s) (hstep : step ndebug s a = some s')
    (hconsistent : Consistent s') (hkept : NoEviction s s') : Permitted s a := by
  have hdb : ∀ p, Registered s.devices p → some p ∈ s.ndevDb := fun p => (h.registered p).1
  cases a with
  | netdevAlloc name mallocNdev mallocPriv => trivial
  | netdevRegister dev ops =>
      obtain ⟨dev', hdev, rfl⟩ := Option.map_eq_some_iff.1 hstep
      rintro p rfl hops
      obtain ⟨ops', rfl⟩ := Option.isSome_iff_exists.1 hops
      rcases argument_eq_some hdev with ⟨hnone, -⟩ | ⟨q, d, hq, hd, rfl⟩
      · cases hnone
      · cases hq
        exact takes_of_noEviction h hkept
  | netdevUnregister dev =>
      obtain ⟨dev', hdev, rfl⟩ := Option.map_eq_some_iff.1 hstep
      rintro p rfl hregistered
      rcases argument_eq_some hdev with ⟨hnone, -⟩ | ⟨q, d, hq, hd, rfl⟩
      · cases hnone
      · cases hq
        exact Bool.false_ne_true
          (registered_update_self.1 (hconsistent.only p (hdb p hregistered)))
  | netdevFree dev =>
      obtain ⟨dev', hdev, rfl⟩ := Option.map_eq_some_iff.1 hstep
      rintro p rfl hregistered
      rcases argument_eq_some hdev with ⟨hnone, -⟩ | ⟨q, d, hq, hd, rfl⟩
      · cases hnone
      · cases hq
        have hstill := hconsistent.only p (hdb p hregistered)
        change Registered (Function.update s.devices p none) p at hstill
        rw [Registered, Function.update_self] at hstill
        cases hstill
  | initNetdev malloc =>
      obtain ⟨r, hr, rfl⟩ := Option.map_eq_some_iff.1 hstep
      exact permitted_of_initNetdev h hr hconsistent hkept

theorem served_iff {a : Action} (h : Core s) (hstep : step ndebug s a = some s') :
    Served ndebug s a ↔ Permitted s a := by
  constructor
  · rintro ⟨hserved, -⟩
    obtain ⟨hconsistent, hkept⟩ := hserved s' hstep
    exact permitted_of_served h hstep hconsistent hkept
  · intro hp
    refine ⟨?_, ?_⟩
    · intro t ht
      obtain ⟨hcore, hkept⟩ := core_of_permitted h hp ht
      exact ⟨hcore.consistent, hkept⟩
    · rintro malloc rfl t ht
      exact (initNetdev_of_permitted h hp ht).2.2 rfl

end Step

section Runs

variable {ndebug : Bool} {t : State} {as : List Action}

/-- In every run from the start, with or without assertions, each call leaves the registry
consistent, evicts no device, and rolls a failed `init_netdev` back, exactly when each call
is permitted. -/
theorem registry_iff (hrun : run (step ndebug) init as = some t) :
    Along (step ndebug) (Served ndebug) init as ↔ Along (step ndebug) Permitted init as :=
  along_iff_along_of_core (step ndebug)
    (fun _ _ _ h hp hstep => (core_of_permitted h hp hstep).1)
    (fun _ _ _ h hstep => served_iff h hstep) Core.init hrun

/-- With assertions, `init_netdev` registers both devices, and the first may be registered
again. -/
theorem registry_init_netdev :
    Along (step false) (Served false) init
      [.initNetdev fun _ => (true, true), .netdevAlloc (some ['p']) true true,
        .netdevRegister (some 0) (some espNetOps), .netdevUnregister (some 2),
        .netdevFree (some 2)] :=
  (registry_iff rfl).2 (by decide)

/-- A device that was unregistered is still found; a third registration evicts the first
device; an `init_netdev` that fails in its second turn frees its first device and leaves it
in `ndev_db`. -/
theorem unregistered_device_found :
    (∃ t, run (step false) init
        [.netdevAlloc (some ['a']) true true, .netdevRegister (some 0) (some espNetOps),
          .netdevUnregister (some 0)] = some t ∧
        netdevGet t (some ['a']) = some 0 ∧ ¬ Registered t.devices 0 ∧
      ¬ Along (step false) (Served false) init
        [.netdevAlloc (some ['a']) true true, .netdevRegister (some 0) (some espNetOps),
          .netdevUnregister (some 0)]) ∧
    (∃ t, run (step false) init
        [.initNetdev fun _ => (true, true), .netdevAlloc (some ['p']) true true,
          .netdevRegister (some 2) (some espNetOps)] = some t ∧
        Registered t.devices 0 ∧ some 0 ∉ t.ndevDb ∧ netdevGet t (some staInterface) = none) ∧
    ∃ t, initNetdev true init (fun i => (true, i = 0)) = some (.STM_FAIL, t) ∧
      some 0 ∈ t.ndevDb ∧ t.devices 0 = none ∧ t.ndevIndex = 1 := by
  refine ⟨⟨_, rfl, ?_, ?_, ?_⟩, ⟨_, rfl, ?_, ?_, ?_⟩, ⟨_, rfl, ?_, rfl, rfl⟩⟩
  · decide
  · decide
  · rintro ⟨-, h⟩
    have hlast := ((h _ rfl).2 _ rfl).1
    have hregistered := (hlast.1 _ rfl).1.only 0 (by decide)
    exact absurd hregistered (by decide)
  · decide
  · decide
  · decide
  · decide

end Runs

end Registry

end Net

end EspHosted
