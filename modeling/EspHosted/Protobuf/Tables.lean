import EspHosted.Protobuf.Unpack

/-!
# Generated tables, and the messages of one

`MessageDescriptor.WellFormed` is what the generator sees to, and is decided for a given
table: the blocks describe the numbers, and every field is of one of the three kinds and
names a member of its kind. The lookup of a number is then exact, so that `last_field`
only saves time.

`Msg.Valid` is a message whose struct the runtime could have built: every pointer is set
where its quantifier says so and to a message of the right type, and what is not set is 0.
-/

namespace EspHosted

namespace Protobuf

variable {ι μ : Type}

def FieldType.isMessage : FieldType ι → Bool
  | .message _ => true
  | _ => false

/-- The three kinds of field. -/
def FieldDescriptor.Plain [DecidableEq ι] (field : FieldDescriptor ι) : Prop :=
  if field.type.isMessage then
    field.label = .repeated ∧ field.oneof = false ∨ field.label = .optional ∧ field.oneof = true
  else
    field.label = .optional ∧ field.oneof = false ∧
      field.quantified = decide (field.type ≠ .string)

instance [DecidableEq ι] (field : FieldDescriptor ι) : Decidable field.Plain :=
  inferInstanceAs (Decidable (if field.type.isMessage then
      field.label = .repeated ∧ field.oneof = false ∨
        field.label = .optional ∧ field.oneof = true
    else
      field.label = .optional ∧ field.oneof = false ∧
        field.quantified = decide (field.type ≠ .string)))

/-- Only the fields of a oneof share a member. -/
def FieldDescriptor.SameMember (field first : FieldDescriptor ι) : Prop :=
  field = first ∨ field.oneof = true ∧ first.oneof = true

instance [DecidableEq ι] (field first : FieldDescriptor ι) :
    Decidable (field.SameMember first) :=
  inferInstanceAs (Decidable (_ ∨ _))

structure MessageDescriptor.WellFormed [DecidableEq ι] (desc : MessageDescriptor ι) : Prop where
  ranges : Describes desc.nFieldRanges desc.fieldRanges (desc.fields.map fun f => f.id.toNat)
  ids : ∀ f ∈ desc.fields, 0 < f.id.toNat ∧ f.id.toNat < 2 ^ 29
  plain : ∀ f ∈ desc.fields, f.Plain
  members : ∀ f ∈ desc.fields, ∃ g ∈ desc.layout[f.offset]?, f.SameMember g

instance [DecidableEq ι] (desc : MessageDescriptor ι) : Decidable desc.WellFormed :=
  decidable_of_iff
    (Describes desc.nFieldRanges desc.fieldRanges (desc.fields.map fun f => f.id.toNat) ∧
      (∀ f ∈ desc.fields, 0 < f.id.toNat ∧ f.id.toNat < 2 ^ 29) ∧
      (∀ f ∈ desc.fields, f.Plain) ∧
      ∀ f ∈ desc.fields, ∃ g ∈ desc.layout[f.offset]?, f.SameMember g)
    ⟨fun ⟨h₁, h₂, h₃, h₄⟩ => ⟨h₁, h₂, h₃, h₄⟩, fun ⟨h₁, h₂, h₃, h₄⟩ => ⟨h₁, h₂, h₃, h₄⟩⟩

/-! ## The lookup -/

section Lookup

variable {desc : MessageDescriptor ι}

/-- `last_field` is nothing or a field of the table. -/
def MessageDescriptor.HasLast (desc : MessageDescriptor ι)
    (lastField : Option (FieldDescriptor ι)) : Prop :=
  ∀ f ∈ lastField, f ∈ desc.fields

theorem MessageDescriptor.hasLast_head (desc : MessageDescriptor ι) :
    desc.HasLast desc.fields.head? := by
  intro f hf
  exact List.mem_of_mem_head? hf

/-- A number of 32 bits as an `int` is that of a field only when it is the same. -/
theorem toInt_toInt32_eq_iff {tag id : UInt32} (hid : id.toNat < 2 ^ 29) :
    (id.toNat : ℤ) = tag.toInt32.toInt ↔ id = tag := by
  have hlt := tag.toNat_lt
  have hint : tag.toInt32.toInt = (tag.toNat : ℤ).bmod (2 ^ 32) := by
    rw [← Int32.toInt_toBitVec, BitVec.toInt_eq_toNat_bmod]
    rfl
  have hbmod := Int.bmod_emod (x := (tag.toNat : ℤ)) (m := 2 ^ 32)
  rw [hint]
  constructor
  · intro h
    apply UInt32.toNat_inj.1
    rw [← h] at hbmod
    omega
  · rintro rfl
    exact (Int.bmod_eq_of_le (by omega) (by omega)).symm

variable [DecidableEq ι]

theorem MessageDescriptor.WellFormed.lookup_eq_some_iff (h : desc.WellFormed)
    {tag : UInt32} {f : FieldDescriptor ι} :
    desc.lookup tag = some f ↔ f ∈ desc.fields ∧ f.id = tag := by
  have hget : ∀ i f', desc.fields[i]? = some f' →
      ((desc.fields.map fun f => f.id.toNat).getD i 0) = f'.id.toNat := by
    intro i f' hi
    rw [List.getD_eq_getElem?_getD, List.getElem?_map, hi]
    rfl
  rw [MessageDescriptor.lookup, Option.bind_eq_some_iff]
  constructor
  · rintro ⟨i, hlookup, hi⟩
    obtain ⟨-, hid⟩ := (h.ranges.intRangeLookup_eq_some_iff i).1 hlookup
    have hmem := List.mem_of_getElem? hi
    rw [hget i f hi] at hid
    exact ⟨hmem, (toInt_toInt32_eq_iff (h.ids f hmem).2).1 hid⟩
  · rintro ⟨hmem, rfl⟩
    obtain ⟨i, hi⟩ := List.mem_iff_getElem?.1 hmem
    have hlt := (List.getElem?_eq_some_iff.1 hi).1
    refine ⟨i, (h.ranges.intRangeLookup_eq_some_iff i).2 ⟨by simpa using hlt, ?_⟩, hi⟩
    rw [hget i f hi]
    exact (toInt_toInt32_eq_iff (h.ids f hmem).2).2 rfl

theorem MessageDescriptor.WellFormed.lookup_id (h : desc.WellFormed) {f : FieldDescriptor ι}
    (hf : f ∈ desc.fields) : desc.lookup f.id = some f :=
  h.lookup_eq_some_iff.2 ⟨hf, rfl⟩

theorem MessageDescriptor.WellFormed.eq_of_id (h : desc.WellFormed) {f g : FieldDescriptor ι}
    (hf : f ∈ desc.fields) (hg : g ∈ desc.fields) (hid : f.id = g.id) : f = g := by
  have hfid := h.lookup_id hf
  rw [hid, h.lookup_id hg] at hfid
  exact (Option.some.inj hfid).symm

/-- The field that a turn of the scan takes is that of the lookup. -/
theorem MessageDescriptor.WellFormed.fieldOf_eq (h : desc.WellFormed)
    {lastField : Option (FieldDescriptor ι)} (hlast : desc.HasLast lastField) (tag : UInt32) :
    fieldOf desc lastField tag = desc.lookup tag := by
  cases lastField with
  | none => rfl
  | some last =>
      rw [fieldOf]
      by_cases hid : last.id = tag
      · subst hid
        rw [if_neg (not_not.2 rfl), h.lookup_id (hlast last rfl)]
      · rw [if_pos hid]

/-- Without the cache. -/
theorem MessageDescriptor.WellFormed.scanMember_eq (h : desc.WellFormed)
    {lastField : Option (FieldDescriptor ι)} (hlast : desc.HasLast lastField)
    (rest : List UInt8) :
    scanMember desc lastField rest =
      (parseTagAndWiretype rest).bind fun head =>
        (scanData head.wireType (rest.drop head.used)).map fun r =>
          ({ tag := head.tag, wireType := head.wireType, lengthPrefixLen := r.2
             field := desc.lookup head.tag, data := (rest.drop head.used).take r.1 },
           (desc.lookup head.tag).or lastField, (rest.drop head.used).drop r.1) := by
  simp only [scanMember, h.fieldOf_eq hlast]

theorem MessageDescriptor.HasLast.or_lookup (h : desc.WellFormed)
    {lastField : Option (FieldDescriptor ι)} (hlast : desc.HasLast lastField) (tag : UInt32) :
    desc.HasLast ((desc.lookup tag).or lastField) := by
  intro f hf
  cases hlookup : desc.lookup tag with
  | none =>
      rw [hlookup] at hf
      exact hlast f hf
  | some g =>
      rw [hlookup] at hf
      cases hf
      exact (h.lookup_eq_some_iff.1 hlookup).1

end Lookup

/-! ## The members of the struct -/

section Layout

variable {desc : MessageDescriptor ι}

/-- A member is that of a field of the table, at its place. -/
theorem MessageDescriptor.layout_spec (desc : MessageDescriptor ι) {o : ℕ}
    {f : FieldDescriptor ι} (h : desc.layout[o]? = some f) : f ∈ desc.fields ∧ f.offset = o := by
  have hfold : ∀ (fs l : List (FieldDescriptor ι)),
      (∀ o f, l[o]? = some f → f ∈ desc.fields ∧ f.offset = o) →
      (∀ f ∈ fs, f ∈ desc.fields) →
      ∀ o f, (fs.foldl (fun l f => if f.offset = l.length then l ++ [f] else l) l)[o]? = some f →
        f ∈ desc.fields ∧ f.offset = o := by
    intro fs
    induction fs with
    | nil => exact fun l hl _ => hl
    | cons g fs ih =>
        intro l hl hfs
        rw [List.foldl_cons]
        refine ih _ ?_ fun f hf => hfs f (List.mem_cons_of_mem g hf)
        intro o f hof
        split at hof
        · rename_i hoffset
          rcases Nat.lt_or_ge o l.length with hlt | hge
          · rw [List.getElem?_append_left hlt] at hof
            exact hl o f hof
          · rw [List.getElem?_append_right hge] at hof
            obtain ⟨hzero, rfl⟩ := List.getElem?_eq_some_iff.1 hof
            have ho : o = l.length := by
              simp only [List.length_singleton] at hzero
              omega
            simp only [List.getElem_singleton]
            exact ⟨hfs g List.mem_cons_self, by rw [hoffset, ho]⟩
        · exact hl o f hof
  exact hfold desc.fields [] (by simp) (fun f hf => hf) o f h

/-- The kinds of field, told by their members. -/
theorem FieldDescriptor.Plain.cases [DecidableEq ι] {f : FieldDescriptor ι} (h : f.Plain) :
    (f.label = .optional ∧ f.oneof = false ∧ f.type.isMessage = false ∧
      f.quantified = decide (f.type ≠ .string)) ∨
    (f.label = .optional ∧ f.oneof = true ∧ ∃ d, f.type = .message d) ∨
    (f.label = .repeated ∧ f.oneof = false ∧ ∃ d, f.type = .message d) := by
  have hmessage : f.type.isMessage = true → ∃ d, f.type = .message d := by
    intro hm
    cases htype : f.type with
    | message d => exact ⟨d, rfl⟩
    | _ =>
        rw [htype] at hm
        cases hm
  rw [FieldDescriptor.Plain] at h
  split at h
  · rename_i hm
    rcases h with ⟨hl, ho⟩ | ⟨hl, ho⟩
    · exact Or.inr (Or.inr ⟨hl, ho, hmessage hm⟩)
    · exact Or.inr (Or.inl ⟨hl, ho, hmessage hm⟩)
  · rename_i hm
    exact Or.inl ⟨h.1, h.2.1, by simpa using hm, h.2.2⟩

/-- The member of a field is cleared to its own kind of 0. -/
theorem MessageDescriptor.WellFormed.init_getElem? [DecidableEq ι] (h : desc.WellFormed)
    {f : FieldDescriptor ι} (hf : f ∈ desc.fields) :
    ((desc.layout.map FieldDescriptor.zero : List (Member μ))[f.offset]?) = some f.zero := by
  obtain ⟨g, hg, hsame⟩ := h.members f hf
  rw [List.getElem?_map, Option.mem_def.1 hg, Option.map_some]
  rcases hsame with rfl | ⟨hfo, hgo⟩
  · rfl
  · have hgmem := (desc.layout_spec hg).1
    have hzero : ∀ f ∈ desc.fields, f.oneof = true →
        (f.zero : Member μ) = .oneof 0 (.message none) := by
      intro f hf honeof
      rcases (h.plain f hf).cases with ⟨-, ho, -⟩ | ⟨hl, -, d, hd⟩ | ⟨-, ho, -⟩
      · rw [ho] at honeof
        cases honeof
      · rw [FieldDescriptor.zero, hl, honeof, hd]
        rfl
      · rw [ho] at honeof
        cases honeof
    rw [hzero f hf hfo, hzero g hgmem hgo]

/-- Two fields of one member are of one oneof. -/
theorem MessageDescriptor.WellFormed.oneof_of_offset [DecidableEq ι] (h : desc.WellFormed)
    {f g : FieldDescriptor ι} (hf : f ∈ desc.fields) (hg : g ∈ desc.fields)
    (hoffset : f.offset = g.offset) (hne : f ≠ g) : f.oneof = true ∧ g.oneof = true := by
  obtain ⟨a, ha, hfa⟩ := h.members f hf
  obtain ⟨b, hb, hgb⟩ := h.members g hg
  rw [hoffset] at ha
  obtain rfl : a = b := Option.some.inj (ha.symm.trans hb)
  rcases hfa with rfl | ⟨hfo, hao⟩
  · rcases hgb with rfl | ⟨hgo, hfo⟩
    · exact absurd rfl hne
    · exact ⟨hfo, hgo⟩
  · rcases hgb with rfl | ⟨hgo, -⟩
    · exact ⟨hfo, hao⟩
    · exact ⟨hfo, hgo⟩

end Layout

/-! ## Messages of a table -/

section Valid

variable (text : List UInt8 → Prop) (tagOk : UInt32 → Prop) (sub : ι → μ → Prop)

/-- A value of the type, with every pointer set. -/
inductive Value.Fits : FieldType ι → Value μ → Prop
  | int32 (v : UInt32) : Value.Fits .int32 (.word v)
  | enum (v : UInt32) : Value.Fits .enum (.word v)
  | uint32 (v : UInt32) : Value.Fits .uint32 (.word v)
  | bool (v : Bool) : Value.Fits .bool (.bool v)
  | string {s : List UInt8} (hs : text s) : Value.Fits .string (.string (some s))
  | bytes (data : List UInt8) : Value.Fits .bytes (.bytes data)
  | message {d : ι} {m : μ} (hm : sub d m) : Value.Fits (.message d) (.message (some m))

/-- The member of the field `f`: not set, and then 0; set; not set in a oneof, or set to a
message of one of its fields; an array. -/
inductive Member.Valid (desc : MessageDescriptor ι) (f : FieldDescriptor ι) : Member μ → Prop
  | absent (hl : f.label = .optional) (ho : f.oneof = false) :
      Member.Valid desc f (.optional false f.type.zero)
  | present {v : Value μ} (hl : f.label = .optional) (ho : f.oneof = false)
      (hv : v.Fits text sub f.type) : Member.Valid desc f (.optional f.quantified v)
  | notSet (hl : f.label = .optional) (ho : f.oneof = true) :
      Member.Valid desc f (.oneof 0 (.message none))
  | set {g : FieldDescriptor ι} {v : Value μ} (hl : f.label = .optional) (ho : f.oneof = true)
      (hg : g ∈ desc.fields) (hgo : g.oneof = true) (hoffset : g.offset = f.offset)
      (hv : v.Fits text sub g.type) : Member.Valid desc f (.oneof g.id v)
  | repeated {items : List (Value μ)} (hl : f.label = .repeated)
      (hitems : ∀ v ∈ items, v.Fits text sub f.type) : Member.Valid desc f (.repeated items)

/-- A field that is in no table, with data of its wire type. -/
structure UnknownField.Valid (desc : MessageDescriptor ι) (u : UnknownField) : Prop where
  unknown : desc.lookup u.tag = none
  tag : tagOk u.tag
  wireType : u.wireType.toNat < 8
  data : ∃ p, scanData u.wireType u.data = some (u.data.length, p)

structure Message.Valid (table : ι → MessageDescriptor ι) (m : Message ι μ) : Prop where
  length : m.members.length = (table m.descriptor).layout.length
  members : ∀ f ∈ (table m.descriptor).fields, ∃ member ∈ m.members[f.offset]?,
    member.Valid text sub (table m.descriptor) f
  unknown : ∀ u ∈ m.unknownFields, u.Valid tagOk (table m.descriptor)

end Valid

/-- A message of the type `d`, all the way down. `text` is what its strings satisfy,
`tagOk` the numbers of its unknown fields. -/
def Msg.Valid (text : List UInt8 → Prop) (tagOk : UInt32 → Prop)
    (table : ι → MessageDescriptor ι) : (n : ℕ) → ι → Msg ι n → Prop
  | 0, _, _ => False
  | n + 1, d, m => Message.descriptor m = d ∧
      Message.Valid text tagOk (Msg.Valid text tagOk table n) table m

end Protobuf

end EspHosted
