import EspHosted.Protobuf.Payload
import EspHosted.Protobuf.RoundTrip

/-!
# The codec of generated messages

What the users of `protobuf-c` rely on: the scan finds the fields that a look through the
table finds, what was packed is unpacked, the second pass stays inside of what the first one
counted, and the messages of a table without cycles are never unpacked deeper than the table.
-/

namespace EspHosted

namespace Protobuf

variable {ι μ ν : Type}

/-! ## The scan -/

/-- A turn of the scan that looks through all fields and remembers none. -/
def plainMember (desc : MessageDescriptor ι) (_ : Unit) (rest : List UInt8) :
    Option (ScannedMember ι × Unit × List UInt8) :=
  (parseTagAndWiretype rest).bind fun head =>
    let data := rest.drop head.used
    (scanData head.wireType data).map fun r =>
      ({ tag := head.tag, wireType := head.wireType, lengthPrefixLen := r.2
         field := desc.fields.find? fun f => f.id = head.tag
         data := data.take r.1 },
       (), data.drop r.1)

def plainScan (desc : MessageDescriptor ι) (data : List UInt8) :
    Option (List (ScannedMember ι)) :=
  (Items.readAll (plainMember desc) data.length () data).bind fun members =>
    if MAX_SCANNED_MEMBERS < members.length then none else some members

section Scan

variable [DecidableEq ι] {desc : MessageDescriptor ι}

theorem MessageDescriptor.WellFormed.lookup_eq_find? (h : desc.WellFormed) (tag : UInt32) :
    desc.lookup tag = desc.fields.find? fun f => f.id = tag := by
  cases hfind : desc.fields.find? fun f => decide (f.id = tag) with
  | some f =>
      have hid := List.find?_some hfind
      exact h.lookup_eq_some_iff.2 ⟨List.mem_of_find?_eq_some hfind, of_decide_eq_true hid⟩
  | none =>
      cases hlookup : desc.lookup tag with
      | none => rfl
      | some f =>
          obtain ⟨hmem, hid⟩ := h.lookup_eq_some_iff.1 hlookup
          exact absurd (decide_eq_true hid) (List.find?_eq_none.1 hfind f hmem)

/-- The binary search and `last_field` only save time: for every input the scan is the one
that looks through all fields. -/
theorem scanMembers_eq_plainScan (h : desc.WellFormed) (data : List UInt8) :
    scanMembers desc data = plainScan desc data := by
  have hread : Items.readAll (scanMember desc) data.length desc.fields.head? data =
      Items.readAll (plainMember desc) data.length () data := by
    refine Items.readAll_eq (R := fun last _ => desc.HasLast last) ?_ _ desc.hasLast_head data
    intro last _ rest hlast
    rw [h.scanMember_eq hlast, plainMember]
    cases hhead : parseTagAndWiretype rest with
    | none => exact Or.inl ⟨rfl, rfl⟩
    | some head =>
        simp only [Option.bind_some, h.lookup_eq_find?]
        cases hdata : scanData head.wireType (rest.drop head.used) with
        | none => exact Or.inl ⟨rfl, rfl⟩
        | some r =>
            refine Or.inr ⟨_, _, (), _, rfl, rfl, ?_⟩
            rw [← h.lookup_eq_find?]
            exact hlast.or_lookup h head.tag
  rw [scanMembers, plainScan, hread]

/-- The number of a response and a message of three bytes. -/
theorem scanMembers_eq_plainScan_payload :
    (plainScan (espTable .configPayload) [0x08, 19, 0xea, 0x01, 3, 0x08, 1, 0x12]).map
      List.length = some 2 := by
  rw [← scanMembers_eq_plainScan (espTable_wellFormed .configPayload)]
  decide +kernel

end Scan

/-! ## The round trip -/

section Map

variable (g : μ → ν)

def Value.map : Value μ → Value ν
  | .word v => .word v
  | .bool v => .bool v
  | .string str => .string str
  | .bytes data => .bytes data
  | .message ptr => .message (ptr.map g)

def Member.map : Member μ → Member ν
  | .optional has value => .optional has (value.map g)
  | .oneof oneofCase value => .oneof oneofCase (value.map g)
  | .repeated items => .repeated (items.map (Value.map g))

def Message.map (m : Message ι μ) : Message ι ν where
  descriptor := m.descriptor
  members := m.members.map (Member.map g)
  unknownFields := m.unknownFields

/-- A message with at most `n` messages inside of each other, where `k` more may be. -/
def Msg.lift (k : ℕ) : (n : ℕ) → Msg ι n → Msg ι (k + n)
  | 0, m => m.elim
  | n + 1, m => Message.map (Msg.lift k n) m

theorem FieldDescriptor.map_zero (f : FieldDescriptor ι) :
    (f.zero : Member μ).map g = f.zero := by
  have htype : (f.type.zero : Value μ).map g = f.type.zero := by
    cases f.type <;> rfl
  rw [FieldDescriptor.zero, FieldDescriptor.zero]
  cases f.label with
  | repeated => rfl
  | optional =>
      simp only
      split
      · rw [Member.map, htype]
      · rw [Member.map, htype]

theorem messageInit_map (table : ι → MessageDescriptor ι) (d : ι) :
    (messageInit table d : Message ι μ).map g = messageInit table d := by
  simp only [Message.map, messageInit, List.map_map]
  congr 1
  exact List.map_congr_left fun f _ => f.map_zero g

end Map

section Depth

variable {desc : MessageDescriptor ι} {g : μ → ν} {subUnpack : ι → List UInt8 → Option μ}
  {subUnpack' : ι → List UInt8 → Option ν} {s : ScannedMember ι} {f : FieldDescriptor ι}

/-- Only the messages that a field can hold are unpacked for it. -/
theorem parseRequiredMember_map
    (hsub : ∀ d, f.type = .message d → ∀ data, subUnpack' d data = (subUnpack d data).map g) :
    parseRequiredMember subUnpack' s f = (parseRequiredMember subUnpack s f).map (Value.map g) := by
  rw [parseRequiredMember, parseRequiredMember]
  cases htype : f.type with
  | bool => rfl
  | message d =>
      simp only
      split
      · rfl
      · rw [hsub d htype]
        cases subUnpack d (s.data.drop s.lengthPrefixLen) <;> rfl
  | _ =>
      simp only
      split <;> rfl

theorem parseKnownMember_map
    (hsub : ∀ d, f.type = .message d → ∀ data, subUnpack' d data = (subUnpack d data).map g)
    (member : Member μ) :
    parseKnownMember subUnpack' desc s f (member.map g) =
      (parseKnownMember subUnpack desc s f member).map (Member.map g) := by
  have hrequired := parseRequiredMember_map (s := s) hsub
  cases member with
  | optional has value =>
      rw [Member.map, parseKnownMember, parseKnownMember]
      split
      · rw [parseOptionalMember, parseOptionalMember, hrequired]
        cases parseRequiredMember subUnpack s f <;> rfl
      · rfl
  | oneof oneofCase value =>
      rw [Member.map, parseKnownMember, parseKnownMember]
      split
      · rw [parseOneofMember, parseOneofMember, hrequired]
        split
        · rfl
        · cases parseRequiredMember subUnpack s f <;> rfl
      · rfl
  | repeated items =>
      rw [Member.map, parseKnownMember, parseKnownMember]
      split
      · rw [parseRepeatedMember, parseRepeatedMember, hrequired]
        cases parseRequiredMember subUnpack s f with
        | none => rfl
        | some v =>
            simp only [Option.map_some, Member.map, List.map_append, List.map_singleton]
      · rfl

theorem parseMember_map
    (hsub : ∀ f, s.field = some f → ∀ d, f.type = .message d → ∀ data,
      subUnpack' d data = (subUnpack d data).map g) (message : Message ι μ) :
    parseMember subUnpack' desc (message.map g) s =
      (parseMember subUnpack desc message s).map (Message.map g) := by
  rw [parseMember, parseMember]
  cases hfield : s.field with
  | none => rfl
  | some f =>
      have hmember : (message.map g).members[f.offset]? =
          (message.members[f.offset]?).map (Member.map g) := List.getElem?_map
      simp only [hmember]
      cases message.members[f.offset]? with
      | none => rfl
      | some member =>
          simp only [Option.map_some, Option.bind_some, parseKnownMember_map (hsub f hfield)]
          cases parseKnownMember subUnpack desc s f member with
          | none => rfl
          | some member' =>
              simp only [Option.map_some, Message.map, List.map_set]

theorem foldlM_parseMember_map {members : List (ScannedMember ι)}
    (hsub : ∀ s ∈ members, ∀ f, s.field = some f → ∀ d, f.type = .message d → ∀ data,
      subUnpack' d data = (subUnpack d data).map g) (message : Message ι μ) :
    members.foldlM (parseMember subUnpack' desc) (message.map g) =
      (members.foldlM (parseMember subUnpack desc) message).map (Message.map g) := by
  induction members generalizing message with
  | nil => rfl
  | cons s members ih =>
      have hstep : parseMember subUnpack' desc (message.map g) s =
          (parseMember subUnpack desc message s).map (Message.map g) :=
        parseMember_map (hsub s List.mem_cons_self) message
      rw [List.foldlM_cons, List.foldlM_cons, hstep]
      cases parseMember subUnpack desc message s with
      | none => rfl
      | some message' => exact ih (fun s hs => hsub s (List.mem_cons_of_mem _ hs)) message'

variable [DecidableEq ι] {table : ι → MessageDescriptor ι}

theorem messageUnpack_map {d : ι} (h : (table d).WellFormed)
    (hsub : ∀ f ∈ (table d).fields, ∀ d', f.type = .message d' → ∀ data,
      subUnpack' d' data = (subUnpack d' data).map g) (data : List UInt8) :
    messageUnpack subUnpack' table d data =
      (messageUnpack subUnpack table d data).map (Message.map g) := by
  rw [messageUnpack, messageUnpack]
  cases hscan : scanMembers (table d) data with
  | none => rfl
  | some members =>
      rw [Option.bind_some, Option.bind_some, ← messageInit_map g]
      refine foldlM_parseMember_map (fun s hs f hfield => ?_) _
      have hlookup := (scanMembers_sound h hscan s hs).field.symm.trans hfield
      exact hsub f (h.lookup_eq_some_iff.1 hlookup).1

/-- The messages a member of the type can point to. -/
def FieldType.pointee : FieldType ι → Option ι
  | .message d => some d
  | _ => none

/-- A table whose messages point to messages of a smaller rank only. -/
def Ranked (table : ι → MessageDescriptor ι) (rank : ι → ℕ) : Prop :=
  ∀ d, ∀ f ∈ (table d).fields, ∀ d' ∈ f.type.pointee, rank d' < rank d

/-- No data makes the recursion go deeper than the rank of the message. -/
theorem Msg.unpack_lift (htable : ∀ d, (table d).WellFormed) {rank : ι → ℕ}
    (hrank : Ranked table rank) (k : ℕ) {n : ℕ} {d : ι} (hd : rank d < n) (data : List UInt8) :
    Msg.unpack table (k + n) d data = (Msg.unpack table n d data).map (Msg.lift k n) := by
  induction n generalizing d data with
  | zero => exact absurd hd (Nat.not_lt_zero _)
  | succ n ih =>
      refine messageUnpack_map (htable d) (fun f hf d' htype data => ?_) data
      have hlt : rank d' < rank d := hrank d f hf d' (by rw [htype]; rfl)
      exact ih (by omega) data

end Depth

/-- How deep messages lie in a message of the ESP. -/
def Descriptor.rank : Descriptor → ℕ
  | .configPayload => 2
  | .struct _ => 1
  | .scanResult => 0
  | .connectedSTAList => 0

theorem espTable_ranked : Ranked espTable Descriptor.rank := by
  intro d
  cases d with
  | struct t => cases t <;> decide
  | scanResult => decide
  | connectedSTAList => decide
  | configPayload => decide

/-- `esp_hosted_config_payload__unpack` calls `protobuf_c_message_unpack` for messages inside
of messages at most three deep, whatever the data: to allow for more depth changes neither
what is accepted nor what comes out. -/
theorem payload_unpack_depth (k : ℕ) (data : List UInt8) :
    Msg.unpack espTable (k + 3) .configPayload data =
      (Msg.unpack espTable 3 .configPayload data).map (Msg.lift k 3) :=
  Msg.unpack_lift espTable_wellFormed espTable_ranked k (Nat.lt_succ_self _) data

end Protobuf

end EspHosted
