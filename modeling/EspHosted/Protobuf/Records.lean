import EspHosted.Protobuf.Tables
import Mathlib.Data.List.Nodup
import Mathlib.Tactic.ByContra

/-!
# The records of a packed message

The packed text of a message is a row of records, one for every value that is set. The scan
of a record gives back its number, its field and its data.
-/

namespace EspHosted

open EspHosted.Bytes

namespace Protobuf

variable {ι μ : Type}

/-! ## The records of a message -/

section Records

variable (subPack : μ → List UInt8)

/-- How many bytes the length in front of the data takes. -/
def prefixLen : FieldType ι → Value μ → ℕ
  | .string, .string (some s) => (Varint.encode (cstr s).length).length
  | .bytes, .bytes data => (Varint.encode data.length).length
  | .message _, .message (some m) => (Varint.encode (subPack m).length).length
  | _, _ => 0

/-- What the scan makes of a value of a field. -/
def scannedValue (f : FieldDescriptor ι) (v : Value μ) : ScannedMember ι where
  tag := f.id
  wireType := f.type.wireType
  lengthPrefixLen := prefixLen subPack f.type v
  field := some f
  data := payloadPack subPack f.type v

def scannedUnknown (u : UnknownField) : ScannedMember ι where
  tag := u.tag
  wireType := u.wireType
  lengthPrefixLen := ((scanData u.wireType u.data).map Prod.snd).getD 0
  field := none
  data := u.data

/-- The record of a scanned member. -/
def ScannedMember.text (s : ScannedMember ι) : List UInt8 :=
  orFirst s.wireType (tagPack s.tag) ++ s.data

/-- The values of a member that are packed for a field. -/
def FieldDescriptor.packed (f : FieldDescriptor ι) : Member μ → List (Value μ)
  | .oneof oneofCase value =>
      if f.label = .optional ∧ f.oneof then
        if oneofCase ≠ f.id then []
        else if f.type.isPointer && f.type.isNull value then []
        else [value]
      else []
  | .optional has value =>
      if f.label = .optional ∧ !f.oneof then
        if f.type.isPointer then
          if f.type.isNull value then [] else [value]
        else
          if !has then [] else [value]
      else []
  | .repeated items => if f.label = .repeated then items else []

/-- The values that are packed for a field of a message. -/
def Message.packed (m : Message ι μ) (f : FieldDescriptor ι) : List (Value μ) :=
  (m.members[f.offset]?).elim [] f.packed

/-- What the scan makes of the packed message. -/
def Message.records (table : ι → MessageDescriptor ι) (m : Message ι μ) :
    List (ScannedMember ι) :=
  ((table m.descriptor).fields.flatMap fun f => (m.packed f).map (scannedValue subPack f)) ++
    m.unknownFields.map scannedUnknown

theorem fieldPack_eq (f : FieldDescriptor ι) (member : Member μ) :
    fieldPack subPack f member = (f.packed member).flatMap (requiredFieldPack subPack f) := by
  cases member with
  | optional has value =>
      rw [fieldPack, optionalFieldPack, FieldDescriptor.packed]
      split_ifs <;> simp
  | oneof oneofCase value =>
      rw [fieldPack, oneofFieldPack, FieldDescriptor.packed]
      split_ifs <;> simp
  | repeated items =>
      rw [fieldPack, repeatedFieldPack, FieldDescriptor.packed]
      split_ifs <;> simp

theorem messagePack_eq (table : ι → MessageDescriptor ι) (m : Message ι μ) :
    messagePack subPack table m = (m.records subPack table).flatMap ScannedMember.text := by
  have hmember : ∀ f : FieldDescriptor ι,
      ((m.members[f.offset]?).elim [] (fieldPack subPack f)) =
        ((m.packed f).map (scannedValue subPack f)).flatMap ScannedMember.text := by
    intro f
    rw [Message.packed, List.flatMap_map]
    cases m.members[f.offset]? with
    | none => rfl
    | some member => exact fieldPack_eq subPack f member
  rw [messagePack, Message.records, List.flatMap_append, List.flatMap_assoc, List.flatMap_map]
  simp only [hmember]
  rfl

variable {subPack} {table : ι → MessageDescriptor ι} {m : Message ι μ}

/-- A record of the message is a part of it. -/
theorem length_text_le {s : ScannedMember ι} (hs : s ∈ m.records subPack table) :
    s.data.length ≤ (messagePack subPack table m).length := by
  have hpart : s.text.length ≤ (messagePack subPack table m).length := by
    rw [messagePack_eq]
    obtain ⟨l, r, hlr⟩ := List.append_of_mem hs
    rw [hlr, List.flatMap_append, List.flatMap_cons]
    simp only [List.length_append]
    omega
  rw [ScannedMember.text, List.length_append] at hpart
  omega

theorem mem_records {f : FieldDescriptor ι} (hf : f ∈ (table m.descriptor).fields)
    {v : Value μ} (hv : v ∈ m.packed f) :
    scannedValue subPack f v ∈ m.records subPack table :=
  List.mem_append_left _ (List.mem_flatMap.2 ⟨f, hf, List.mem_map_of_mem hv⟩)

end Records

/-! ## The scan of a record -/

section Scan

theorem wireType_lt (type : FieldType ι) : type.wireType.toNat < 8 := by
  have hvarint : WIRE_TYPE_VARINT.toNat < 8 := by decide
  have hprefixed : WIRE_TYPE_LENGTH_PREFIXED.toNat < 8 := by decide
  cases type <;> first | exact hvarint | exact hprefixed

/-- The data that has been found is found again in front of other input. -/
theorem scanData_append {wireType : UInt8} {data : List UInt8} {n p : ℕ}
    (h : scanData wireType data = some (n, p)) (rest : List UInt8) :
    scanData wireType (data.take n ++ rest) = some (n, p) := by
  rw [scanData] at h ⊢
  by_cases h0 : wireType = WIRE_TYPE_VARINT
  · rw [if_pos h0] at h ⊢
    obtain ⟨len, hlen, heq⟩ := Option.map_eq_some_iff.1 h
    cases heq
    rw [Varint.scan_take_append hlen (Nat.le_refl _)]
    rfl
  rw [if_neg h0] at h ⊢
  by_cases h1 : wireType = WIRE_TYPE_64BIT
  · rw [if_pos h1] at h ⊢
    split at h <;> cases h
    rw [if_neg (by simp only [List.length_append, List.length_take]; omega)]
  rw [if_neg h1] at h ⊢
  by_cases h2 : wireType = WIRE_TYPE_LENGTH_PREFIXED
  · rw [if_pos h2] at h ⊢
    obtain ⟨hscan, hn, hmax, hlen⟩ := scanLengthPrefixedData_eq_some_iff.1 h
    have hsame : (data.take n ++ rest).take p = data.take p := by
      rw [List.take_append_of_le_length (by rw [List.length_take]; omega), List.take_take,
        Nat.min_eq_left (by omega)]
    refine scanLengthPrefixedData_eq_some_iff.2
      ⟨Varint.scan_take_append hscan (by omega) rest, ?_, ?_, ?_⟩
    · rw [hsame]
      exact hn
    · rw [hsame]
      exact hmax
    · simp only [List.length_append, List.length_take]
      omega
  rw [if_neg h2] at h ⊢
  split at h
  · rename_i h5
    rw [if_pos h5]
    split at h <;> cases h
    rw [if_neg (by simp only [List.length_append, List.length_take]; omega)]
  · cases h

/-- Data takes at least a byte, and lies in the input. -/
theorem scanData_bounds {wireType : UInt8} {data : List UInt8} {n p : ℕ}
    (h : scanData wireType data = some (n, p)) : 0 < n ∧ n ≤ data.length ∧ p ≤ n := by
  rw [scanData] at h
  split at h
  · obtain ⟨len, hlen, heq⟩ := Option.map_eq_some_iff.1 h
    cases heq
    have := Varint.scan_bounds hlen
    omega
  split at h
  · split at h <;> cases h
    omega
  split at h
  · obtain ⟨hscan, hn, -, hlen⟩ := scanLengthPrefixedData_eq_some_iff.1 h
    have := Varint.scan_bounds hscan
    omega
  split at h
  · split at h <;> cases h
    omega
  · cases h

variable {subPack : μ → List UInt8} {text : List UInt8 → Prop} {sub : ι → μ → Prop}

/-- The text of data with its length in front. -/
theorem uint32Pack_length_append {body : List UInt8}
    (h : (uint32Pack (UInt32.ofNat body.length) ++ body).length ≤ INT_MAX) :
    body.length ≤ INT_MAX ∧
      uint32Pack (UInt32.ofNat body.length) ++ body = Varint.encode body.length ++ body := by
  have hmax : INT_MAX = 2147483647 := rfl
  rw [List.length_append] at h
  have hlen : (UInt32.ofNat body.length).toNat = body.length := by
    rw [UInt32.toNat_ofNat']
    omega
  rw [uint32Pack_eq, hlen]
  exact ⟨by omega, rfl⟩

theorem scanData_encode {n : ℕ} (h : n < 128 ^ 10) (rest : List UInt8) :
    scanData WIRE_TYPE_VARINT (Varint.encode n ++ rest) =
      some ((Varint.encode n).length, 0) := by
  rw [scanData, if_pos rfl,
    Varint.scan_encode_append ((Varint.length_encode_le_iff n 9).2 h) rest]
  rfl

theorem scanData_prefixed {body : List UInt8}
    (h : (uint32Pack (UInt32.ofNat body.length) ++ body).length ≤ INT_MAX)
    (rest : List UInt8) :
    scanData WIRE_TYPE_LENGTH_PREFIXED
        (uint32Pack (UInt32.ofNat body.length) ++ body ++ rest) =
      some ((uint32Pack (UInt32.ofNat body.length) ++ body).length,
        (Varint.encode body.length).length) := by
  obtain ⟨hbody, htext⟩ := uint32Pack_length_append h
  rw [htext, scanData, if_neg (by decide), if_neg (by decide), if_pos rfl,
    scanLengthPrefixedData_encode hbody, List.length_append]

/-- The data of a packed value is found whole. -/
theorem scanData_payloadPack {type : FieldType ι} {v : Value μ} (hv : v.Fits text sub type)
    (hsize : (payloadPack subPack type v).length ≤ INT_MAX) (rest : List UInt8) :
    scanData type.wireType (payloadPack subPack type v ++ rest) =
      some ((payloadPack subPack type v).length, prefixLen subPack type v) := by
  have hsigned : ∀ v : Int32, signExtended v < 128 ^ 10 := by
    intro v
    rw [signExtended]
    omega
  cases hv with
  | int32 v =>
      simp only [payloadPack, int32Pack_eq]
      exact scanData_encode (hsigned v.toInt32) rest
  | enum v =>
      simp only [payloadPack, int32Pack_eq]
      exact scanData_encode (hsigned v.toInt32) rest
  | uint32 v =>
      have hlt := v.toNat_lt
      simp only [payloadPack, uint32Pack_eq]
      exact scanData_encode (by omega) rest
  | bool v => cases v <;> rfl
  | string hs => exact scanData_prefixed hsize rest
  | bytes data => exact scanData_prefixed hsize rest
  | message hm => exact scanData_prefixed hsize rest

/-- A turn of the scan takes at least two bytes. -/
theorem scanMember_takes (desc : MessageDescriptor ι) : Items.Takes 2 (scanMember desc) := by
  intro last input s last' rest h
  rw [scanMember] at h
  obtain ⟨head, hhead, h⟩ := Option.bind_eq_some_iff.1 h
  obtain ⟨r, hr, h⟩ := Option.map_eq_some_iff.1 h
  cases h
  have hused := parseTagAndWiretype_bounds hhead
  have hdata := scanData_bounds hr
  simp only [List.length_drop] at hdata ⊢
  omega

theorem scanMember_takes_one (desc : MessageDescriptor ι) : Items.Takes 1 (scanMember desc) :=
  fun last input s last' rest h => by
    have := scanMember_takes desc last input s last' rest h
    omega

variable [DecidableEq ι] {desc : MessageDescriptor ι}

/-- The turn of the scan that meets the record of a member. -/
theorem scanMember_text (h : desc.WellFormed) {lastField : Option (FieldDescriptor ι)}
    (hlast : desc.HasLast lastField) {s : ScannedMember ι} (hfield : s.field = desc.lookup s.tag)
    (htag : s.tag ≠ 0) (hw : s.wireType.toNat < 8) (rest : List UInt8)
    (hdata : scanData s.wireType (s.data ++ rest) = some (s.data.length, s.lengthPrefixLen)) :
    ∃ last', desc.HasLast last' ∧
      scanMember desc lastField (s.text ++ rest) = some (s, last', rest) := by
  refine ⟨(desc.lookup s.tag).or lastField, hlast.or_lookup h s.tag, ?_⟩
  rw [h.scanMember_eq hlast, ScannedMember.text, List.append_assoc, orFirst_tagPack s.tag hw,
    parseTagAndWiretype_encode htag hw]
  simp only [Option.bind_some, List.drop_left', hdata, Option.map_some, List.take_left',
    ← hfield]

end Scan

/-! ## What is packed of a member -/

section Packed

variable {desc : MessageDescriptor ι} {text : List UInt8 → Prop} {sub : ι → μ → Prop}
  {f g : FieldDescriptor ι} {v : Value μ}

theorem Value.Fits.isNull_eq {type : FieldType ι} (hv : v.Fits text sub type) :
    type.isNull v = false := by
  cases hv <;> rfl

theorem packed_absent (hl : f.label = .optional) (ho : f.oneof = false) :
    f.packed (.optional false f.type.zero : Member μ) = [] := by
  have hnull : f.type.isPointer = true → f.type.isNull (f.type.zero : Value μ) = true := by
    intro hp
    cases htype : f.type <;> rw [htype] at hp <;> first | rfl | cases hp
  rw [FieldDescriptor.packed, if_pos ⟨hl, by rw [ho]; rfl⟩]
  split
  · rename_i hp
    rw [if_pos (hnull hp)]
  · rfl

theorem packed_notSet (hid : f.id ≠ 0) :
    f.packed (.oneof 0 (.message none) : Member μ) = [] := by
  rw [FieldDescriptor.packed]
  split
  · rw [if_pos hid.symm]
  · rfl

theorem packed_set (hl : f.label = .optional) (ho : f.oneof = true)
    (hv : v.Fits text sub f.type) : f.packed (.oneof f.id v) = [v] := by
  rw [FieldDescriptor.packed, if_pos ⟨hl, ho⟩, if_neg (not_not.2 rfl), hv.isNull_eq,
    Bool.and_false, if_neg (by decide)]

theorem packed_other (hid : g.id ≠ f.id) : f.packed (.oneof g.id v) = [] := by
  simp [FieldDescriptor.packed, hid]

theorem packed_repeated {items : List (Value μ)} (hl : f.label = .repeated) :
    f.packed (.repeated items) = items := by
  rw [FieldDescriptor.packed, if_pos hl]

variable [DecidableEq ι]

theorem packed_present (hplain : f.Plain) (hl : f.label = .optional) (ho : f.oneof = false)
    (hv : v.Fits text sub f.type) : f.packed (.optional f.quantified v) = [v] := by
  rw [FieldDescriptor.packed, if_pos ⟨hl, by rw [ho]; rfl⟩]
  split
  · rw [if_neg (by rw [hv.isNull_eq]; decide)]
  · rename_i hp
    have hquantified : f.quantified = true := by
      rcases hplain.cases with ⟨-, -, -, hq⟩ | ⟨-, ho', -⟩ | ⟨hl', -⟩
      · rw [hq]
        refine decide_eq_true fun hstring => hp ?_
        rw [hstring]
        rfl
      · rw [ho] at ho'
        cases ho'
      · rw [hl] at hl'
        cases hl'
    rw [if_neg (by rw [hquantified]; decide)]

theorem MessageDescriptor.WellFormed.id_ne_zero (h : desc.WellFormed) (hf : f ∈ desc.fields) :
    f.id ≠ 0 := by
  intro hzero
  have := (h.ids f hf).1
  rw [hzero] at this
  exact absurd this (by decide)

/-- What is packed for a field is of its type. -/
theorem Member.Valid.fits_of_mem_packed (h : desc.WellFormed) (hf : f ∈ desc.fields)
    {member : Member μ} (hm : member.Valid text sub desc f) :
    ∀ v ∈ f.packed member, v.Fits text sub f.type := by
  intro w hw
  cases hm with
  | absent hl ho =>
      rw [packed_absent hl ho] at hw
      cases hw
  | present hl ho hv =>
      rw [packed_present (h.plain f hf) hl ho hv] at hw
      rw [List.mem_singleton.1 hw]
      exact hv
  | notSet hl ho =>
      rw [packed_notSet (h.id_ne_zero hf)] at hw
      cases hw
  | @set g v hl ho hg hgo hoffset hv =>
      by_cases hid : g.id = f.id
      · obtain rfl := h.eq_of_id hg hf hid
        rw [packed_set hl ho hv] at hw
        rw [List.mem_singleton.1 hw]
        exact hv
      · rw [packed_other hid] at hw
        cases hw
  | repeated hl hitems =>
      rw [packed_repeated hl] at hw
      exact hitems w hw

/-- A member that is packed for none of its fields is 0. -/
theorem Member.Valid.eq_zero (h : desc.WellFormed) (hf : f ∈ desc.fields) {member : Member μ}
    (hm : member.Valid text sub desc f)
    (hnone : ∀ g ∈ desc.fields, g.offset = f.offset → g.packed member = []) :
    member = f.zero := by
  have hself := hnone f hf rfl
  cases hm with
  | absent hl ho =>
      rw [FieldDescriptor.zero, hl, ho]
      rfl
  | present hl ho hv =>
      rw [packed_present (h.plain f hf) hl ho hv] at hself
      cases hself
  | notSet hl ho =>
      rcases (h.plain f hf).cases with ⟨-, ho', -⟩ | ⟨-, -, d, hd⟩ | ⟨-, ho', -⟩
      · rw [ho] at ho'
        cases ho'
      · rw [FieldDescriptor.zero, hl, ho, hd]
        rfl
      · rw [ho] at ho'
        cases ho'
  | @set g v hl ho hg hgo hoffset hv =>
      have hgl : g.label = .optional := by
        rcases (h.plain g hg).cases with ⟨hgl, -⟩ | ⟨hgl, -⟩ | ⟨-, hgo', -⟩
        · exact hgl
        · exact hgl
        · rw [hgo] at hgo'
          cases hgo'
      have hset := hnone g hg hoffset
      rw [packed_set hgl hgo hv] at hset
      cases hset
  | repeated hl hitems =>
      rw [packed_repeated hl] at hself
      rw [hself, FieldDescriptor.zero, hl]

/-- Only one field of a oneof is packed. -/
theorem Member.Valid.packed_unique (h : desc.WellFormed) (hf : f ∈ desc.fields)
    (hg : g ∈ desc.fields) (hoffset : f.offset = g.offset) {member : Member μ}
    (hm : member.Valid text sub desc f) (hpf : f.packed member ≠ [])
    (hpg : g.packed member ≠ []) : f = g := by
  by_contra hne
  obtain ⟨hfo, hgo⟩ := h.oneof_of_offset hf hg hoffset hne
  cases hm with
  | absent hl ho =>
      rw [ho] at hfo
      cases hfo
  | present hl ho =>
      rw [ho] at hfo
      cases hfo
  | notSet => exact hpf (packed_notSet (h.id_ne_zero hf))
  | @set a v hl ho ha hao _ hv =>
      by_cases haf : a.id = f.id
      · by_cases hag : a.id = g.id
        · exact hne (h.eq_of_id hf hg (haf.symm.trans hag))
        · exact hpg (packed_other hag)
      · exact hpf (packed_other haf)
  | repeated hl =>
      rcases (h.plain f hf).cases with ⟨hl', -⟩ | ⟨hl', -⟩ | ⟨-, ho, -⟩
      · rw [hl] at hl'
        cases hl'
      · rw [hl] at hl'
        cases hl'
      · rw [ho] at hfo
        cases hfo

/-- A field is in the table once. -/
theorem MessageDescriptor.WellFormed.nodup (h : desc.WellFormed) : desc.fields.Nodup := by
  rw [List.nodup_iff_getElem?_ne_getElem?]
  intro i j hij hj heq
  have hget : ∀ k < desc.fields.length, intRangeLookup desc.nFieldRanges desc.fieldRanges
      (((desc.fields.map fun f => f.id.toNat).getD k 0 : ℕ) : ℤ) = some k := by
    intro k hk
    exact (h.ranges.intRangeLookup_eq_some_iff k).2 ⟨by simpa using hk, rfl⟩
  have hsame : (desc.fields.map fun f => f.id.toNat).getD i 0 =
      (desc.fields.map fun f => f.id.toNat).getD j 0 := by
    simp only [List.getD_eq_getElem?_getD, List.getElem?_map, heq]
  have hi := hget i (by omega)
  rw [hsame, hget j hj] at hi
  have := Option.some.inj hi
  omega

end Packed

end Protobuf

end EspHosted
