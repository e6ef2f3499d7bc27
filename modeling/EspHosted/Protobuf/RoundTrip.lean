import EspHosted.Protobuf.Records

/-!
# A packed message is unpacked again

Storing the records of a message gives back its values. The struct fills up field by field:
after some fields of the table its members are those of the message where one of these
fields is set, and 0 elsewhere. The messages inside are unpacked by induction on the depth.
-/

namespace EspHosted

open EspHosted.Bytes

namespace Protobuf

variable {ι μ : Type}

/-- As many bytes as two for each member that the slabs hold. -/
def MAX_PACKED : ℕ := 2 * MAX_SCANNED_MEMBERS

theorem le_INT_MAX {n : ℕ} (h : n ≤ MAX_PACKED) : n ≤ INT_MAX := by
  have hpacked : MAX_PACKED = 268435424 := rfl
  have hmax : INT_MAX = 2147483647 := rfl
  omega

/-! ## Storing the records -/

section Store

variable {desc : MessageDescriptor ι} {text : List UInt8 → Prop} {sub : ι → μ → Prop}
  {subPack : μ → List UInt8} {subUnpack : ι → List UInt8 → Option μ} {f : FieldDescriptor ι}
  {v : Value μ}

theorem parseUint32_encode (n : ℕ) : parseUint32 (Varint.encode n) = UInt32.ofNat n := by
  rw [parseUint32_eq, Varint.value_encode]

theorem parseInt32_int32Pack (v : UInt32) : parseInt32 (int32Pack v.toInt32) = v := by
  rw [parseInt32, int32Pack_eq, parseUint32_encode]
  apply UInt32.toNat_inj.1
  have hword : (v.toInt32.toInt % 2 ^ 32).toNat = v.toNat :=
    (toNat_toUInt32_eq v.toInt32).symm
  rw [UInt32.toNat_ofNat', signExtended]
  omega

/-- The data behind the length. -/
theorem drop_prefixed (body : List UInt8)
    (h : (uint32Pack (UInt32.ofNat body.length) ++ body).length ≤ INT_MAX) :
    (uint32Pack (UInt32.ofNat body.length) ++ body).drop (Varint.encode body.length).length =
      body := by
  rw [(uint32Pack_length_append h).2, List.drop_left']
  rfl

/-- The record of a value is stored as the value. -/
theorem parseRequiredMember_scannedValue (htext : ∀ s, text s → 0 ∉ s)
    (hsub : ∀ d m, sub d m → (subPack m).length ≤ MAX_PACKED →
      subUnpack d (subPack m) = some m) (hv : v.Fits text sub f.type)
    (hsize : (payloadPack subPack f.type v).length ≤ MAX_PACKED) :
    parseRequiredMember subUnpack (scannedValue subPack f v) f = some v := by
  obtain ⟨id, label, type, quantified, offset, oneof⟩ := f
  simp only at hv hsize
  cases hv with
  | int32 v =>
      have hval := parseInt32_int32Pack v
      simp [parseRequiredMember, scannedValue, FieldType.wireType, payloadPack, hval]
  | enum v =>
      have hval := parseInt32_int32Pack v
      simp [parseRequiredMember, scannedValue, FieldType.wireType, payloadPack, hval]
  | uint32 v =>
      have hval : parseUint32 (uint32Pack v) = v := by
        rw [uint32Pack_eq, parseUint32_encode, UInt32.ofNat_toNat]
      simp [parseRequiredMember, scannedValue, FieldType.wireType, payloadPack, hval]
  | bool v => cases v <;> rfl
  | string hs =>
      rename_i s
      have hdrop := drop_prefixed (cstr s) (le_INT_MAX hsize)
      rw [cstr_of_text (htext s hs)] at hdrop
      have hpack : payloadPack subPack (.string : FieldType ι) (.string (some s)) =
          uint32Pack (UInt32.ofNat s.length) ++ s := by
        simp only [payloadPack, stringPack, strlen, cstr_of_text (htext s hs)]
      simp [parseRequiredMember, scannedValue, FieldType.wireType, hpack, prefixLen,
        cstr_of_text (htext s hs), hdrop]
  | bytes data =>
      have hdrop := drop_prefixed data (le_INT_MAX hsize)
      simp [parseRequiredMember, scannedValue, FieldType.wireType, payloadPack, binaryDataPack,
        prefixLen, hdrop]
  | message hm =>
      rename_i d m
      have hdrop := drop_prefixed (subPack m) (le_INT_MAX hsize)
      have hinside : (subPack m).length ≤ MAX_PACKED := by
        simp only [payloadPack, prefixedMessagePack, List.length_append] at hsize
        omega
      simp [parseRequiredMember, scannedValue, FieldType.wireType, payloadPack,
        prefixedMessagePack, prefixLen, hdrop, hsub d m hm hinside]

/-- One record of a known field. -/
theorem parseMember_scannedValue {message : Message ι μ} {member member' : Member μ}
    (hmember : message.members[f.offset]? = some member)
    (hparse : parseKnownMember subUnpack desc (scannedValue subPack f v) f member =
      some member') :
    parseMember subUnpack desc message (scannedValue subPack f v) =
      some { message with members := message.members.set f.offset member' } := by
  simp [parseMember, scannedValue, hmember]
  exact ⟨member', hparse, rfl⟩

variable (htext : ∀ s, text s → 0 ∉ s)
  (hsub : ∀ d m, sub d m → (subPack m).length ≤ MAX_PACKED →
      subUnpack d (subPack m) = some m)

include htext hsub

/-- The elements of an array are stored behind those that are there. -/
theorem foldlM_repeated {items acc : List (Value μ)} {message : Message ι μ}
    (hl : f.label = .repeated) (hitems : ∀ v ∈ items, v.Fits text sub f.type)
    (hsize : ∀ v ∈ items, (payloadPack subPack f.type v).length ≤ MAX_PACKED)
    (hmember : message.members[f.offset]? = some (.repeated acc)) :
    (items.map (scannedValue subPack f)).foldlM (parseMember subUnpack desc) message =
      some { message with
        members := message.members.set f.offset (.repeated (acc ++ items)) } := by
  induction items generalizing acc message with
  | nil =>
      have hself : message.members.set f.offset (.repeated (acc ++ [])) = message.members := by
        rw [List.append_nil]
        obtain ⟨hlt, hget⟩ := List.getElem?_eq_some_iff.1 hmember
        rw [← hget, List.set_getElem_self]
      rw [hself]
      rfl
  | cons v items ih =>
      have hlt := (List.getElem?_eq_some_iff.1 hmember).1
      have hv := parseRequiredMember_scannedValue htext hsub (hitems v List.mem_cons_self)
        (hsize v List.mem_cons_self)
      have hparse : parseKnownMember subUnpack desc (scannedValue subPack f v) f
          (.repeated acc) = some (.repeated (acc ++ [v])) := by
        rw [parseKnownMember, if_pos hl, parseRepeatedMember, hv]
        rfl
      have hstep := parseMember_scannedValue hmember hparse
      rw [List.map_cons, List.foldlM_cons, hstep]
      simp only [Option.bind_eq_bind, Option.bind_some]
      have hset : (message.members.set f.offset (.repeated (acc ++ [v])))[f.offset]? =
          some (.repeated (acc ++ [v])) := List.getElem?_set_self hlt
      rw [ih (fun w hw => hitems w (List.mem_cons_of_mem v hw))
        (fun w hw => hsize w (List.mem_cons_of_mem v hw)) hset]
      simp only [List.set_set, List.append_assoc, List.singleton_append]

variable [DecidableEq ι]

/-- The records of a field set its member from 0 to what is packed. -/
theorem foldlM_member (h : desc.WellFormed) (hf : f ∈ desc.fields) {member : Member μ}
    (hm : member.Valid text sub desc f) (hpacked : f.packed member ≠ [])
    (hsize : ∀ v ∈ f.packed member, (payloadPack subPack f.type v).length ≤ MAX_PACKED)
    {message : Message ι μ} (hzero : message.members[f.offset]? = some f.zero) :
    ((f.packed member).map (scannedValue subPack f)).foldlM (parseMember subUnpack desc) message =
      some { message with members := message.members.set f.offset member } := by
  have hfits := hm.fits_of_mem_packed h hf
  have hone : ∀ v, f.packed member = [v] →
      parseKnownMember subUnpack desc (scannedValue subPack f v) f f.zero = some member →
      ((f.packed member).map (scannedValue subPack f)).foldlM (parseMember subUnpack desc)
        message = some { message with members := message.members.set f.offset member } := by
    intro v hv hparse
    rw [hv, List.map_singleton, List.foldlM_cons, parseMember_scannedValue hzero hparse]
    rfl
  have hrequired : ∀ v ∈ f.packed member,
      parseRequiredMember subUnpack (scannedValue subPack f v) f = some v := fun v hv =>
    parseRequiredMember_scannedValue htext hsub (hfits v hv) (hsize v hv)
  cases hm with
  | absent hl ho => exact absurd (packed_absent hl ho) hpacked
  | @present v hl ho hv =>
      have hpv := packed_present (h.plain f hf) hl ho hv
      refine hone v hpv ?_
      rw [FieldDescriptor.zero, hl, ho, if_neg (by decide), parseKnownMember,
        if_pos ⟨hl, by rw [ho]; rfl⟩, parseOptionalMember,
        hrequired v (by rw [hpv]; exact List.mem_singleton_self v), Bool.false_or]
      rfl
  | notSet => exact absurd (packed_notSet (h.id_ne_zero hf)) hpacked
  | @set g v hl ho hg hgo hoffset hv =>
      by_cases hid : g.id = f.id
      · obtain rfl := h.eq_of_id hg hf hid
        have hpv := packed_set hl ho hv
        refine hone v hpv ?_
        rw [FieldDescriptor.zero, hl, if_pos ho, parseKnownMember, if_pos ⟨hl, ho⟩,
          parseOneofMember, if_neg (fun hcase => hcase.1 rfl),
          hrequired v (by rw [hpv]; exact List.mem_singleton_self v)]
        rfl
      · exact absurd (packed_other hid) hpacked
  | @repeated items hl hitems =>
      rw [packed_repeated hl] at hsize ⊢
      rw [FieldDescriptor.zero, hl] at hzero
      exact foldlM_repeated htext hsub hl hitems hsize hzero

end Store

/-! ## The struct fills up -/

section Fill

/-- The members after the fields `done`. -/
structure Filled (desc : MessageDescriptor ι) (m : Message ι μ)
    (done : List (FieldDescriptor ι)) (ms : List (Member μ)) : Prop where
  length : ms.length = desc.layout.length
  set : ∀ f ∈ done, m.packed f ≠ [] → ms[f.offset]? = m.members[f.offset]?
  clear : ∀ o, (∀ f ∈ done, f.offset = o → m.packed f = []) →
    ms[o]? = (desc.layout.map FieldDescriptor.zero)[o]?

theorem filled_init (desc : MessageDescriptor ι) (m : Message ι μ) :
    Filled desc m [] (desc.layout.map FieldDescriptor.zero) where
  length := List.length_map _
  set := fun _ hf => absurd hf List.not_mem_nil
  clear := fun _ _ => rfl

/-- Storing a member sets its field and leaves the others. -/
theorem Filled.store {desc : MessageDescriptor ι} {m : Message ι μ}
    {done : List (FieldDescriptor ι)} {ms : List (Member μ)} {f : FieldDescriptor ι}
    {member : Member μ} (hms : Filled desc m done ms) (hlt : f.offset < ms.length)
    (hmember : m.members[f.offset]? = some member) (hpacked : m.packed f ≠ [])
    (hother : ∀ g ∈ done, g.offset = f.offset → m.packed g = []) :
    Filled desc m (done ++ [f]) (ms.set f.offset member) where
  length := by
    rw [List.length_set]
    exact hms.length
  set := by
    intro g hg hpg
    rcases List.mem_append.1 hg with hg | hg
    · have hne : f.offset ≠ g.offset := fun heq => hpg (hother g hg heq.symm)
      rw [List.getElem?_set_ne hne]
      exact hms.set g hg hpg
    · rw [List.mem_singleton.1 hg, List.getElem?_set_self hlt, hmember]
  clear := by
    intro o ho
    have hne : f.offset ≠ o := fun heq =>
      hpacked (ho f (List.mem_append_right _ (List.mem_singleton_self f)) heq)
    rw [List.getElem?_set_ne hne]
    exact hms.clear o fun g hg => ho g (List.mem_append_left _ hg)

/-- A field that is not packed leaves the members alone. -/
theorem Filled.skip {desc : MessageDescriptor ι} {m : Message ι μ}
    {done : List (FieldDescriptor ι)} {ms : List (Member μ)} {f : FieldDescriptor ι}
    (hms : Filled desc m done ms) (hpacked : m.packed f = []) :
    Filled desc m (done ++ [f]) ms where
  length := hms.length
  set := by
    intro g hg hpg
    rcases List.mem_append.1 hg with hg | hg
    · exact hms.set g hg hpg
    · rw [List.mem_singleton.1 hg] at hpg
      exact absurd hpacked hpg
  clear := fun o ho => hms.clear o fun g hg => ho g (List.mem_append_left _ hg)

theorem foldlM_unknown {subUnpack : ι → List UInt8 → Option μ} (desc : MessageDescriptor ι)
    (us : List UnknownField)
    (start : Message ι μ) :
    (us.map scannedUnknown).foldlM (parseMember subUnpack desc) start =
      some { start with unknownFields := start.unknownFields ++ us } := by
  induction us generalizing start with
  | nil => simp
  | cons u us ih =>
      rw [List.map_cons, List.foldlM_cons]
      have hstep : parseMember subUnpack desc start (scannedUnknown u) =
          some { start with unknownFields := start.unknownFields ++ [u] } := rfl
      rw [hstep]
      simp only [Option.bind_eq_bind, Option.bind_some, ih, List.append_assoc,
        List.singleton_append]

variable [DecidableEq ι] {table : ι → MessageDescriptor ι} {text : List UInt8 → Prop}
  {tagOk : UInt32 → Prop} {sub : ι → μ → Prop} {subPack : μ → List UInt8}
  {subUnpack : ι → List UInt8 → Option μ} {m : Message ι μ}

/-- After all fields the members are those of the message. -/
theorem Filled.eq_members (h : (table m.descriptor).WellFormed)
    (hm : m.Valid text tagOk sub table) {ms : List (Member μ)}
    (hms : Filled (table m.descriptor) m (table m.descriptor).fields ms) : ms = m.members := by
  apply List.ext_getElem?
  intro o
  by_cases hset : ∃ g ∈ (table m.descriptor).fields, g.offset = o ∧ m.packed g ≠ []
  · obtain ⟨g, hg, rfl, hpg⟩ := hset
    exact hms.set g hg hpg
  · have hnone : ∀ g ∈ (table m.descriptor).fields, g.offset = o → m.packed g = [] := by
      intro g hg hgo
      by_contra hpg
      exact hset ⟨g, hg, hgo, hpg⟩
    rw [hms.clear o hnone]
    cases hlayout : (table m.descriptor).layout[o]? with
    | none =>
        have hge := List.getElem?_eq_none_iff.1 hlayout
        rw [List.getElem?_map, hlayout, List.getElem?_eq_none (by rw [hm.length]; exact hge)]
        rfl
    | some f =>
        obtain ⟨hf, rfl⟩ := MessageDescriptor.layout_spec _ hlayout
        obtain ⟨member, hmember, hvalid⟩ := hm.members f hf
        have hzero : member = f.zero := by
          refine hvalid.eq_zero h hf fun g hg hoffset => ?_
          have hpg := hnone g hg hoffset
          rw [Message.packed, hoffset, Option.mem_def.1 hmember] at hpg
          exact hpg
        rw [List.getElem?_map, hlayout, Option.mem_def.1 hmember, hzero]
        rfl

/-- Storing the records of the fields fills the members. -/
theorem foldlM_fields (htext : ∀ s, text s → 0 ∉ s)
    (hsub : ∀ d m, sub d m → (subPack m).length ≤ MAX_PACKED →
      subUnpack d (subPack m) = some m)
    (h : (table m.descriptor).WellFormed) (hm : m.Valid text tagOk sub table)
    (hsize : ∀ f ∈ (table m.descriptor).fields, ∀ v ∈ m.packed f,
      (payloadPack subPack f.type v).length ≤ MAX_PACKED)
    {done fs : List (FieldDescriptor ι)} (hfields : (table m.descriptor).fields = done ++ fs)
    {start : Message ι μ} (hstart : Filled (table m.descriptor) m done start.members) :
    ∃ ms, Filled (table m.descriptor) m (table m.descriptor).fields ms ∧
      (fs.flatMap fun f => (m.packed f).map (scannedValue subPack f)).foldlM
        (parseMember subUnpack (table m.descriptor)) start = some { start with members := ms } := by
  induction fs generalizing done start with
  | nil =>
      rw [List.append_nil] at hfields
      exact ⟨start.members, hfields ▸ hstart, rfl⟩
  | cons f fs ih =>
      have hf : f ∈ (table m.descriptor).fields := by
        rw [hfields]
        exact List.mem_append_right _ List.mem_cons_self
      have hfields' : (table m.descriptor).fields = (done ++ [f]) ++ fs := by
        rw [hfields, List.append_assoc]
        rfl
      obtain ⟨member, hmember, hvalid⟩ := hm.members f hf
      have hpacked : ∀ g : FieldDescriptor ι, g.offset = f.offset →
          m.packed g = g.packed member := by
        intro g hg
        rw [Message.packed, hg, Option.mem_def.1 hmember]
        rfl
      rw [List.flatMap_cons, List.foldlM_append]
      by_cases hempty : m.packed f = []
      · obtain ⟨ms, hms, hfold⟩ := ih hfields' (hstart.skip hempty)
        refine ⟨ms, hms, ?_⟩
        rw [hempty]
        exact hfold
      · -- no other field of the member has been packed before
        have hother : ∀ g ∈ done, g.offset = f.offset → m.packed g = [] := by
          intro g hg hoffset
          have hgmem : g ∈ (table m.descriptor).fields := by
            rw [hfields]
            exact List.mem_append_left _ hg
          by_contra hpg
          have hfg : f = g := by
            refine hvalid.packed_unique h hf hgmem hoffset.symm ?_ ?_
            · rw [← hpacked f rfl]
              exact hempty
            · rw [← hpacked g hoffset]
              exact hpg
          have hnodup := h.nodup
          rw [hfields, List.nodup_append] at hnodup
          exact hnodup.2.2 g hg f List.mem_cons_self hfg.symm
        have hzero : start.members[f.offset]? = some f.zero := by
          rw [hstart.clear f.offset hother]
          exact h.init_getElem? hf
        have hlt := (List.getElem?_eq_some_iff.1 hzero).1
        have hone := foldlM_member htext hsub h hf hvalid
          (by rw [← hpacked f rfl]; exact hempty)
          (by rw [← hpacked f rfl]; exact hsize f hf) hzero
        have hstored : Filled (table m.descriptor) m (done ++ [f])
            ({ start with members := start.members.set f.offset member } :
              Message ι μ).members := hstart.store hlt hmember hempty hother
        obtain ⟨ms, hms, hfold⟩ := ih hfields' hstored
        refine ⟨ms, hms, ?_⟩
        rw [hpacked f rfl, hone]
        exact hfold

/-! ## The whole message -/

/-- The scan of a packed message finds its records. -/
theorem scanMembers_messagePack (h : (table m.descriptor).WellFormed)
    (hm : m.Valid text (fun tag => tag ≠ 0) sub table)
    (hsize : (messagePack subPack table m).length ≤ MAX_PACKED) :
    scanMembers (table m.descriptor) (messagePack subPack table m) =
      some (m.records subPack table) := by
  have hread : ∀ s ∈ m.records subPack table, ∀ last,
      (table m.descriptor).HasLast last → ∀ rest,
        ∃ last', (table m.descriptor).HasLast last' ∧
          scanMember (table m.descriptor) last (s.text ++ rest) = some (s, last', rest) := by
    intro s hs last hlast rest
    have hlen := length_text_le hs
    rcases List.mem_append.1 hs with hs | hs
    · obtain ⟨f, hf, hs⟩ := List.mem_flatMap.1 hs
      obtain ⟨v, hv, rfl⟩ := List.mem_map.1 hs
      obtain ⟨member, hmember, hvalid⟩ := hm.members f hf
      have hfits : v.Fits text sub f.type := by
        rw [Message.packed, Option.mem_def.1 hmember] at hv
        exact hvalid.fits_of_mem_packed h hf v hv
      exact scanMember_text h hlast (h.lookup_id hf).symm (h.id_ne_zero hf) (wireType_lt f.type)
        rest (scanData_payloadPack hfits (le_INT_MAX (hlen.trans hsize)) rest)
    · obtain ⟨u, hu, rfl⟩ := List.mem_map.1 hs
      have hvalid := hm.unknown u hu
      obtain ⟨p, hp⟩ := hvalid.data
      refine scanMember_text h hlast hvalid.unknown.symm hvalid.tag hvalid.wireType rest ?_
      have happend := scanData_append hp rest
      rw [List.take_length] at happend
      simp only [scannedUnknown, hp, Option.map_some, Option.getD_some]
      exact happend
  have hall := Items.readAll_flatMap (scanMember_takes_one (table m.descriptor)) hread
    (MessageDescriptor.hasLast_head (table m.descriptor))
  rw [← messagePack_eq] at hall
  have hcount := Items.length_le_of_readAll (scanMember_takes (table m.descriptor)) hall
  have hpacked : MAX_PACKED = 2 * MAX_SCANNED_MEMBERS := rfl
  rw [scanMembers, hall, Option.bind_some, if_neg (by omega)]

/-- One level of the round trip. -/
theorem messageUnpack_messagePack (htext : ∀ s, text s → 0 ∉ s)
    (hsub : ∀ d m, sub d m → (subPack m).length ≤ MAX_PACKED →
      subUnpack d (subPack m) = some m)
    (h : (table m.descriptor).WellFormed) (hm : m.Valid text (fun tag => tag ≠ 0) sub table)
    (hsize : (messagePack subPack table m).length ≤ MAX_PACKED) :
    messageUnpack subUnpack table m.descriptor (messagePack subPack table m) = some m := by
  have hvalue : ∀ f ∈ (table m.descriptor).fields, ∀ v ∈ m.packed f,
      (payloadPack subPack f.type v).length ≤ MAX_PACKED := fun f hf v hv =>
    (length_text_le (mem_records hf hv)).trans hsize
  have hinit : Filled (table m.descriptor) m []
      (messageInit table m.descriptor : Message ι μ).members := filled_init (table m.descriptor) m
  obtain ⟨ms, hms, hfold⟩ :=
    foldlM_fields htext hsub h hm hvalue (List.nil_append _).symm hinit
  rw [messageUnpack, scanMembers_messagePack h hm hsize, Option.bind_some, Message.records,
    List.foldlM_append, hfold]
  simp only [Option.bind_eq_bind, Option.bind_some]
  rw [foldlM_unknown, hms.eq_members h hm]
  rfl

end Fill

/-- Every message of a table, with strings that end where C strings do, is unpacked from its
packed text as it was. -/
theorem Msg.unpack_pack [DecidableEq ι] {table : ι → MessageDescriptor ι}
    (htable : ∀ d, (table d).WellFormed) {n : ℕ} {d : ι} {m : Msg ι n}
    (hm : Msg.Valid (fun s => 0 ∉ s) (fun tag => tag ≠ 0) table n d m)
    (hsize : (Msg.pack table n m).length ≤ MAX_PACKED) :
    Msg.unpack table n d (Msg.pack table n m) = some m := by
  induction n generalizing d with
  | zero => cases m
  | succ n ih =>
      obtain ⟨rfl, hvalid⟩ := hm
      exact messageUnpack_messagePack (fun _ hs => hs) (fun d m hm hsize => ih hm hsize)
        (htable _) hvalid hsize

end Protobuf

end EspHosted
