import EspHosted.Protobuf.Records

/-!
# What unpacking accepts

Whatever the data, a message that comes out of `protobuf_c_message_unpack` is valid for its
table: every step of the second pass keeps it so. What the arrays and the unknown fields hold
after some of the members is what the first pass counts in these.
-/

namespace EspHosted

namespace Protobuf

variable {ι μ : Type} [DecidableEq ι]

/-! ## What the scan hands on -/

/-- The field is that of the number, and the data is of the wire type. -/
structure ScannedMember.Sound (desc : MessageDescriptor ι) (s : ScannedMember ι) : Prop where
  field : s.field = desc.lookup s.tag
  wireType : s.wireType.toNat < 8
  data : scanData s.wireType s.data = some (s.data.length, s.lengthPrefixLen)

theorem scanMember_sound {desc : MessageDescriptor ι} (h : desc.WellFormed)
    {last last' : Option (FieldDescriptor ι)} {input rest : List UInt8} {s : ScannedMember ι}
    (hlast : desc.HasLast last) (hs : scanMember desc last input = some (s, last', rest)) :
    s.Sound desc ∧ desc.HasLast last' := by
  rw [h.scanMember_eq hlast] at hs
  obtain ⟨head, hhead, hs⟩ := Option.bind_eq_some_iff.1 hs
  obtain ⟨⟨n, p⟩, hr, hs⟩ := Option.map_eq_some_iff.1 hs
  cases hs
  have happend := scanData_append hr []
  rw [List.append_nil] at happend
  have hlen : ((input.drop head.used).take n).length = n := by
    have := (scanData_bounds hr).2.1
    rw [List.length_take]
    omega
  refine ⟨⟨rfl, (parseTagAndWiretype_bounds hhead).2.2, ?_⟩, hlast.or_lookup h head.tag⟩
  simp only [hlen]
  exact happend

theorem scanMembers_sound {desc : MessageDescriptor ι} (h : desc.WellFormed)
    {data : List UInt8} {members : List (ScannedMember ι)}
    (hs : scanMembers desc data = some members) : ∀ s ∈ members, s.Sound desc := by
  obtain ⟨ms, hms, hif⟩ := Option.bind_eq_some_iff.1 hs
  split at hif
  · cases hif
  · cases hif
    exact Items.forall_of_readAll
      (fun _ _ _ _ _ hlast hs => scanMember_sound h hlast hs) desc.hasLast_head hms

/-! ## A stored member -/

section Step

variable {desc : MessageDescriptor ι} {sub : ι → μ → Prop}
  {subUnpack : ι → List UInt8 → Option μ} {s : ScannedMember ι} {f : FieldDescriptor ι}
  (hsub : ∀ d data m, subUnpack d data = some m → sub d m)

include hsub

omit [DecidableEq ι] in
/-- What is stored is of the type of its field. -/
theorem parseRequiredMember_fits {v : Value μ}
    (hv : parseRequiredMember subUnpack s f = some v) :
    v.Fits (fun _ => True) sub f.type := by
  rw [parseRequiredMember] at hv
  cases htype : f.type with
  | bool =>
      rw [htype] at hv
      cases hv
      exact .bool _
  | message d =>
      rw [htype] at hv
      simp only at hv
      split at hv
      · cases hv
      · obtain ⟨m, hm, rfl⟩ := Option.map_eq_some_iff.1 hv
        exact .message (hsub d _ m hm)
  | _ =>
      rw [htype] at hv
      simp only at hv
      split at hv
      · cases hv
      · cases hv
        constructor
        try trivial

/-- The member a field is stored in stays valid, for every field it belongs to. -/
theorem parseKnownMember_valid (h : desc.WellFormed) (hf : f ∈ desc.fields)
    (hid : f.id = s.tag) {member member' : Member μ}
    (hm : member.Valid (fun _ => True) sub desc f)
    (hparse : parseKnownMember subUnpack desc s f member = some member')
    {g : FieldDescriptor ι} (hg : g ∈ desc.fields) (hoffset : g.offset = f.offset) :
    member'.Valid (fun _ => True) sub desc g := by
  have hsame : f.oneof = false → g = f := by
    intro ho
    by_contra hne
    have hboth := h.oneof_of_offset hg hf hoffset hne
    rw [ho] at hboth
    cases hboth.2
  cases member with
  | optional has value =>
      rw [parseKnownMember] at hparse
      split at hparse
      · rename_i hkind
        have ho : f.oneof = false := by simpa using hkind.2
        obtain rfl := hsame ho
        obtain ⟨v, hv, rfl⟩ := Option.map_eq_some_iff.1 hparse
        have hhas : (has || g.quantified) = g.quantified := by
          cases hm with
          | absent => rfl
          | present => rw [Bool.or_self]
        rw [hhas]
        exact .present hkind.1 ho (parseRequiredMember_fits hsub hv)
      · cases hparse
  | oneof oneofCase value =>
      rw [parseKnownMember] at hparse
      split at hparse
      · rename_i hkind
        rw [parseOneofMember] at hparse
        split at hparse
        · cases hparse
        · obtain ⟨v, hv, rfl⟩ := Option.map_eq_some_iff.1 hparse
          have hgo : g.oneof = true ∧ g.label = .optional := by
            by_cases hgf : g = f
            · rw [hgf]
              exact ⟨hkind.2, hkind.1⟩
            · have ho := (h.oneof_of_offset hg hf hoffset hgf).1
              rcases (h.plain g hg).cases with ⟨hl, -⟩ | ⟨hl, -⟩ | ⟨-, ho', -⟩
              · exact ⟨ho, hl⟩
              · exact ⟨ho, hl⟩
              · rw [ho] at ho'
                cases ho'
          rw [← hid]
          exact .set hgo.2 hgo.1 hf hkind.2 hoffset.symm (parseRequiredMember_fits hsub hv)
      · cases hparse
  | repeated items =>
      rw [parseKnownMember] at hparse
      split at hparse
      · rename_i hl
        obtain ⟨v, hv, rfl⟩ := Option.map_eq_some_iff.1 hparse
        have ho : f.oneof = false := by
          rcases (h.plain f hf).cases with ⟨hl', -⟩ | ⟨hl', -⟩ | ⟨-, ho, -⟩
          · rw [hl] at hl'
            cases hl'
          · rw [hl] at hl'
            cases hl'
          · exact ho
        obtain rfl := hsame ho
        refine .repeated hl fun w hw => ?_
        rcases List.mem_append.1 hw with hw | hw
        · cases hm with
          | repeated _ hitems => exact hitems w hw
        · rw [List.mem_singleton.1 hw]
          exact parseRequiredMember_fits hsub hv
      · cases hparse

/-- One step of the second pass. -/
theorem parseMember_valid {table : ι → MessageDescriptor ι} {d : ι} (h : (table d).WellFormed)
    (hs : s.Sound (table d)) {message message' : Message ι μ} (hd : message.descriptor = d)
    (hm : message.Valid (fun _ => True) (fun _ => True) sub table)
    (hparse : parseMember subUnpack (table d) message s = some message') :
    message'.descriptor = d ∧
      message'.Valid (fun _ => True) (fun _ => True) sub table := by
  subst hd
  rw [parseMember] at hparse
  cases hfield : s.field with
  | none =>
      rw [hfield] at hparse
      cases hparse
      refine ⟨rfl, hm.length, hm.members, fun u hu => ?_⟩
      rcases List.mem_append.1 hu with hu | hu
      · exact hm.unknown u hu
      · rw [List.mem_singleton.1 hu]
        exact ⟨by rw [← hs.field, hfield], trivial, hs.wireType, _, hs.data⟩
  | some f =>
      rw [hfield] at hparse
      obtain ⟨member, hmember, hparse⟩ := Option.bind_eq_some_iff.1 hparse
      obtain ⟨member', hknown, rfl⟩ := Option.map_eq_some_iff.1 hparse
      obtain ⟨hf, hid⟩ := h.lookup_eq_some_iff.1 (hs.field.symm.trans hfield)
      obtain ⟨old, hold, hvalid⟩ := hm.members f hf
      obtain rfl : old = member := Option.some.inj ((Option.mem_def.1 hold).symm.trans hmember)
      have hlt := (List.getElem?_eq_some_iff.1 hmember).1
      refine ⟨rfl, ?_, fun g hg => ?_, hm.unknown⟩
      · simp only [List.length_set]
        exact hm.length
      · by_cases hoffset : g.offset = f.offset
        · refine ⟨member', ?_, parseKnownMember_valid hsub h hf hid hvalid hknown hg hoffset⟩
          simp only [hoffset, List.getElem?_set_self hlt, Option.mem_def]
        · obtain ⟨other, hother, hvalid'⟩ := hm.members g hg
          refine ⟨other, ?_, hvalid'⟩
          simp only [List.getElem?_set_ne (Ne.symm hoffset)]
          exact hother

omit hsub in
theorem messageInit_valid {table : ι → MessageDescriptor ι} {d : ι}
    (h : (table d).WellFormed) :
    (messageInit table d : Message ι μ).Valid (fun _ => True) (fun _ => True) sub table where
  length := List.length_map _
  members := by
    intro f hf
    refine ⟨f.zero, h.init_getElem? hf, ?_⟩
    have hplain := (h.plain f hf).cases
    rcases hplain with ⟨hl, ho, -⟩ | ⟨hl, ho, e, he⟩ | ⟨hl, -⟩
    · have hzero : (f.zero : Member μ) = .optional false f.type.zero := by
        rw [FieldDescriptor.zero, hl, ho]
        rfl
      rw [hzero]
      exact .absent hl ho
    · have hzero : (f.zero : Member μ) = .oneof 0 (.message none) := by
        rw [FieldDescriptor.zero, hl, ho, he]
        rfl
      rw [hzero]
      exact .notSet hl ho
    · have hzero : (f.zero : Member μ) = .repeated [] := by
        rw [FieldDescriptor.zero, hl]
      rw [hzero]
      exact .repeated hl (List.forall_mem_nil _)
  unknown := fun _ hu => absurd hu List.not_mem_nil

/-- All steps of the second pass. -/
theorem foldlM_valid {table : ι → MessageDescriptor ι} {d : ι} (h : (table d).WellFormed)
    {members : List (ScannedMember ι)} (hs : ∀ s ∈ members, s.Sound (table d))
    {message message' : Message ι μ} (hd : message.descriptor = d)
    (hm : message.Valid (fun _ => True) (fun _ => True) sub table)
    (hfold : members.foldlM (parseMember subUnpack (table d)) message = some message') :
    message'.descriptor = d ∧
      message'.Valid (fun _ => True) (fun _ => True) sub table := by
  induction members generalizing message with
  | nil =>
      cases hfold
      exact ⟨hd, hm⟩
  | cons s members ih =>
      rw [List.foldlM_cons] at hfold
      obtain ⟨next, hnext, hfold⟩ := Option.bind_eq_some_iff.1 hfold
      obtain ⟨hd', hm'⟩ := parseMember_valid hsub h (hs s List.mem_cons_self) hd hm hnext
      exact ih (fun s hs' => hs s (List.mem_cons_of_mem _ hs')) hd' hm' hfold

end Step

/-- What is unpacked is a message of the type that was asked for, all the way down: a oneof
whose case is not 0 holds a message of the type of that case, and every other pointer is set
where its quantifier says so. -/
theorem Msg.valid_of_unpack {table : ι → MessageDescriptor ι}
    (htable : ∀ d, (table d).WellFormed) {n : ℕ} {d : ι} {data : List UInt8} {m : Msg ι n}
    (hm : Msg.unpack table n d data = some m) :
    Msg.Valid (fun _ => True) (fun _ => True) table n d m := by
  induction n generalizing d data with
  | zero => cases m
  | succ n ih =>
      have hone : messageUnpack (Msg.unpack table n) table d data = some m := hm
      obtain ⟨members, hscan, hfold⟩ := Option.bind_eq_some_iff.1 hone
      have hsub : ∀ d data m, Msg.unpack table n d data = some m →
          Msg.Valid (fun _ => True) (fun _ => True) table n d m := fun _ _ _ h => ih h
      have hinit : (messageInit table d : Message ι (Msg ι n)).Valid (fun _ => True)
          (fun _ => True) (Msg.Valid (fun _ => True) (fun _ => True) table n) table :=
        messageInit_valid (htable d)
      have hbody : members.foldlM (parseMember (Msg.unpack table n) (table d))
          (messageInit table d) = some m.body := hfold
      exact foldlM_valid hsub (htable d) (scanMembers_sound (htable d) hscan) rfl hinit hbody

/-! ## The arrays -/

section Arrays

/-- What the first pass counts for the array of a field: the size it is allocated with. -/
def arraySize (members : List (ScannedMember ι)) (f : FieldDescriptor ι) : ℕ :=
  members.countP fun s => s.field = some f

/-- `n_unknown` -/
def nUnknown (members : List (ScannedMember ι)) : ℕ :=
  members.countP fun s => s.field.isNone

/-- How far the arrays are filled after some of the members. -/
structure Stored (desc : MessageDescriptor ι) (done : List (ScannedMember ι))
    (message : Message ι μ) : Prop where
  arrays : ∀ f ∈ desc.fields, f.label = .repeated →
    ∃ items, message.members[f.offset]? = some (.repeated items) ∧
      items.length = arraySize done f
  unknown : message.unknownFields.length = nUnknown done

variable {desc : MessageDescriptor ι} {subUnpack : ι → List UInt8 → Option μ}

/-- A member is stored in the array of its field, behind the others. -/
theorem Stored.step (h : desc.WellFormed) {done : List (ScannedMember ι)}
    {s : ScannedMember ι} (hs : s.Sound desc) {message message' : Message ι μ}
    (hm : Stored desc done message)
    (hparse : parseMember subUnpack desc message s = some message') :
    Stored desc (done ++ [s]) message' := by
  have hcount : ∀ f : FieldDescriptor ι,
      arraySize (done ++ [s]) f = arraySize done f + if s.field = some f then 1 else 0 := by
    intro f
    rw [arraySize, arraySize, List.countP_append, List.countP_singleton]
    simp only [decide_eq_true_eq]
  have hunknown : nUnknown (done ++ [s]) = nUnknown done + if s.field.isNone then 1 else 0 := by
    rw [nUnknown, nUnknown, List.countP_append, List.countP_singleton]
  rw [parseMember] at hparse
  cases hfield : s.field with
  | none =>
      rw [hfield] at hparse
      cases hparse
      refine ⟨fun f hf hl => ?_, ?_⟩
      · obtain ⟨items, hitems, hlen⟩ := hm.arrays f hf hl
        refine ⟨items, hitems, ?_⟩
        rw [hcount, hfield, if_neg (by simp), hlen, Nat.add_zero]
      · rw [hunknown, hfield, List.length_append, hm.unknown]
        rfl
  | some f =>
      rw [hfield] at hparse
      obtain ⟨member, hmember, hparse⟩ := Option.bind_eq_some_iff.1 hparse
      obtain ⟨member', hknown, rfl⟩ := Option.map_eq_some_iff.1 hparse
      have hf := (h.lookup_eq_some_iff.1 (hs.field.symm.trans hfield)).1
      have hlt := (List.getElem?_eq_some_iff.1 hmember).1
      refine ⟨fun g hg hl => ?_, ?_⟩
      · obtain ⟨items, hitems, hlen⟩ := hm.arrays g hg hl
        have hgo : g.oneof = false := by
          rcases (h.plain g hg).cases with ⟨hl', -⟩ | ⟨hl', -⟩ | ⟨-, ho, -⟩
          · rw [hl] at hl'
            cases hl'
          · rw [hl] at hl'
            cases hl'
          · exact ho
        by_cases hfg : f = g
        · subst hfg
          obtain rfl : member = .repeated items := Option.some.inj (hmember.symm.trans hitems)
          rw [parseKnownMember, if_pos hl] at hknown
          obtain ⟨v, -, rfl⟩ := Option.map_eq_some_iff.1 hknown
          refine ⟨items ++ [v], List.getElem?_set_self hlt, ?_⟩
          rw [hcount, hfield, if_pos rfl, List.length_append, hlen, List.length_singleton]
        · have hoffset : f.offset ≠ g.offset := by
            intro heq
            have hboth := h.oneof_of_offset hf hg heq hfg
            rw [hgo] at hboth
            cases hboth.2
          refine ⟨items, ?_, ?_⟩
          · simp only [List.getElem?_set_ne hoffset]
            exact hitems
          · rw [hcount, hfield, if_neg (fun heq => hfg (Option.some.inj heq)), hlen, Nat.add_zero]
      · rw [hunknown, hfield, if_neg (by simp)]
        exact hm.unknown

end Arrays

end Protobuf

end EspHosted
