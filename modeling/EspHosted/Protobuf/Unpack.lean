import EspHosted.Lib.Items
import EspHosted.Protobuf.Message

/-!
# Unpacking

`protobuf_c_message_unpack` goes over the data twice. The scan splits it into members, each
with the field that its number stands for, and counts the elements of the arrays; then the
arrays are allocated, and every member is stored in the order of the data. What is stored
for a message inside comes from the same function.
-/

namespace EspHosted

namespace Protobuf

variable {ι μ : Type}

/-- `ScannedMember`; `data` are its `len` bytes. -/
structure ScannedMember (ι : Type) where
  tag : UInt32
  wireType : UInt8
  lengthPrefixLen : ℕ
  field : Option (FieldDescriptor ι)
  data : List UInt8

/-! ## The scan -/

/-- The number of a field as the `int` that `int_range_lookup` takes. -/
def MessageDescriptor.lookup (desc : MessageDescriptor ι) (tag : UInt32) :
    Option (FieldDescriptor ι) :=
  (intRangeLookup desc.nFieldRanges desc.fieldRanges tag.toInt32.toInt).bind fun fieldIndex =>
    desc.fields[fieldIndex]?

/-- How long the data of a wire type is, and its `length_prefix_len`. -/
def scanData (wireType : UInt8) (rest : List UInt8) : Option (ℕ × ℕ) :=
  if wireType = WIRE_TYPE_VARINT then
    (Varint.scan 10 rest).map fun len => (len, 0)
  else if wireType = WIRE_TYPE_64BIT then
    if rest.length < 8 then none else some (8, 0)
  else if wireType = WIRE_TYPE_LENGTH_PREFIXED then
    scanLengthPrefixedData rest
  else if wireType = WIRE_TYPE_32BIT then
    if rest.length < 4 then none else some (4, 0)
  else
    none

/-- `last_field` saves the lookup of a number that comes again. -/
def fieldOf (desc : MessageDescriptor ι) (lastField : Option (FieldDescriptor ι))
    (tag : UInt32) : Option (FieldDescriptor ι) :=
  match lastField with
  | none => desc.lookup tag
  | some last => if last.id ≠ tag then desc.lookup tag else some last

/-- One turn of the scan. The state is `last_field`. -/
def scanMember (desc : MessageDescriptor ι) (lastField : Option (FieldDescriptor ι))
    (rest : List UInt8) :
    Option (ScannedMember ι × Option (FieldDescriptor ι) × List UInt8) :=
  (parseTagAndWiretype rest).bind fun head =>
    let field := fieldOf desc lastField head.tag
    let data := rest.drop head.used
    (scanData head.wireType data).map fun r =>
      ({ tag := head.tag, wireType := head.wireType, lengthPrefixLen := r.2, field := field
         data := data.take r.1 },
       field.or lastField, data.drop r.1)

/-- The members that the slabs hold: 16 in the first, twice as many in each of the 22
others. -/
def MAX_SCANNED_MEMBERS : ℕ := 16 * (2 ^ 23 - 1)

def scanMembers (desc : MessageDescriptor ι) (data : List UInt8) :
    Option (List (ScannedMember ι)) :=
  (Items.readAll (scanMember desc) data.length desc.fields.head? data).bind fun members =>
    if MAX_SCANNED_MEMBERS < members.length then none else some members

/-! ## The members -/

section Parse

variable (subUnpack : ι → List UInt8 → Option μ)

/-- What the member is set to. For a message, `member` is empty before: no field of the
tables merges two messages. -/
def parseRequiredMember (scanned : ScannedMember ι) (field : FieldDescriptor ι) :
    Option (Value μ) :=
  match field.type with
  | .enum =>
      if scanned.wireType ≠ WIRE_TYPE_VARINT then none
      else some (.word (parseInt32 scanned.data))
  | .int32 =>
      if scanned.wireType ≠ WIRE_TYPE_VARINT then none
      else some (.word (parseInt32 scanned.data))
  | .uint32 =>
      if scanned.wireType ≠ WIRE_TYPE_VARINT then none
      else some (.word (parseUint32 scanned.data))
  -- the wire type of a boolean is not looked at
  | .bool => some (.bool (parseBoolean scanned.data))
  | .string =>
      if scanned.wireType ≠ WIRE_TYPE_LENGTH_PREFIXED then none
      else some (.string (some (scanned.data.drop scanned.lengthPrefixLen)))
  | .bytes =>
      if scanned.wireType ≠ WIRE_TYPE_LENGTH_PREFIXED then none
      else some (.bytes (scanned.data.drop scanned.lengthPrefixLen))
  | .message descriptor =>
      if scanned.wireType ≠ WIRE_TYPE_LENGTH_PREFIXED then none
      else (subUnpack descriptor (scanned.data.drop scanned.lengthPrefixLen)).map fun subm =>
        .message (some subm)

/-- The member of the oneof that is there already is released and cleared first. -/
def parseOneofMember (desc : MessageDescriptor ι) (scanned : ScannedMember ι)
    (field : FieldDescriptor ι) (oneofCase : UInt32) : Option (Member μ) :=
  if oneofCase ≠ 0 ∧ (desc.lookup oneofCase).isNone then none
  else (parseRequiredMember subUnpack scanned field).map fun value =>
    .oneof scanned.tag value

def parseOptionalMember (scanned : ScannedMember ι) (field : FieldDescriptor ι) (has : Bool) :
    Option (Member μ) :=
  (parseRequiredMember subUnpack scanned field).map fun value =>
    .optional (has || field.quantified) value

/-- The element behind the last one that is set; `items.length` is `*p_n`. -/
def parseRepeatedMember (scanned : ScannedMember ι) (field : FieldDescriptor ι)
    (items : List (Value μ)) : Option (Member μ) :=
  (parseRequiredMember subUnpack scanned field).map fun value => .repeated (items ++ [value])

/-- The case of a known field by its label and its flag. -/
def parseKnownMember (desc : MessageDescriptor ι) (scanned : ScannedMember ι)
    (field : FieldDescriptor ι) : Member μ → Option (Member μ)
  | .oneof oneofCase _ =>
      if field.label = .optional ∧ field.oneof then
        parseOneofMember subUnpack desc scanned field oneofCase
      else none
  | .optional has _ =>
      if field.label = .optional ∧ !field.oneof then
        parseOptionalMember subUnpack scanned field has
      else none
  | .repeated items =>
      if field.label = .repeated then parseRepeatedMember subUnpack scanned field items else none

def parseMember (desc : MessageDescriptor ι) (message : Message ι μ)
    (scanned : ScannedMember ι) : Option (Message ι μ) :=
  match scanned.field with
  | none =>
      some { message with
        unknownFields := message.unknownFields ++
          [{ tag := scanned.tag, wireType := scanned.wireType, data := scanned.data }] }
  | some field =>
      (message.members[field.offset]?).bind fun member =>
        (parseKnownMember subUnpack desc scanned field member).map fun member' =>
          { message with members := message.members.set field.offset member' }

def messageUnpack (table : ι → MessageDescriptor ι) (d : ι) (data : List UInt8) :
    Option (Message ι μ) :=
  (scanMembers (table d) data).bind fun members =>
    members.foldlM (parseMember subUnpack (table d)) (messageInit table d)

end Parse

/-- `protobuf_c_message_unpack` -/
def Msg.unpack (table : ι → MessageDescriptor ι) :
    (n : ℕ) → ι → List UInt8 → Option (Msg ι n)
  | 0, _, _ => none
  | n + 1, d, data => messageUnpack (Msg.unpack table n) table d data

end Protobuf

end EspHosted
