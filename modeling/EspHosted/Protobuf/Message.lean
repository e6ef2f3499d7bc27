import EspHosted.Lib.CString
import EspHosted.Protobuf.RangeLookup
import EspHosted.Protobuf.Wire

/-!
# Messages, and their packing

The runtime reads and writes the struct of a message through the table of its
descriptor. A field of the table names a member of the struct and says how it is packed.
The fields here are those that the generated tables have: an optional scalar, a member of
a oneof that points to a message, and an array of messages; no default value and no
packed array.

`Msg ι n` are the messages in which messages lie at most `n` deep. The functions on
messages are written for one level, with the function for the messages inside as an
argument, and then for every depth.
-/

namespace EspHosted

open EspHosted.Bytes

namespace Protobuf

variable {ι μ : Type}

/-- `ProtobufCType` -/
inductive FieldType (ι : Type) where
  | int32
  | enum
  | uint32
  | bool
  | string
  | bytes
  | message (descriptor : ι)
  deriving DecidableEq, Repr

/-- `ProtobufCLabel` -/
inductive Label where
  | optional
  | repeated
  deriving DecidableEq, Repr

/-- `ProtobufCFieldDescriptor`. `offset` counts the members of the struct, `quantified` is
`quantifier_offset != 0`, and `oneof` is `PROTOBUF_C_FIELD_FLAG_ONEOF`. -/
structure FieldDescriptor (ι : Type) where
  id : UInt32
  label : Label
  type : FieldType ι
  quantified : Bool
  offset : ℕ
  oneof : Bool
  deriving DecidableEq, Repr

/-- `ProtobufCMessageDescriptor` -/
structure MessageDescriptor (ι : Type) where
  fields : List (FieldDescriptor ι)
  nFieldRanges : ℕ
  fieldRanges : List IntRange

/-- What a member holds. A string is the characters in front of the last 0 of its block;
`none` is `NULL`. -/
inductive Value (μ : Type) where
  | word (v : UInt32)
  | bool (v : Bool)
  | string (str : Option (List UInt8))
  | bytes (data : List UInt8)
  | message (ptr : Option μ)

/-- A member of the struct, with its quantifier: the flag `has_…`, the case of the oneof or
the count. -/
inductive Member (μ : Type) where
  | optional (has : Bool) (value : Value μ)
  | oneof (oneofCase : UInt32) (value : Value μ)
  | repeated (items : List (Value μ))

/-- `ProtobufCMessageUnknownField` -/
structure UnknownField where
  tag : UInt32
  wireType : UInt8
  data : List UInt8
  deriving DecidableEq, Repr

/-- The struct of a message; `μ` are the messages it can point to. -/
structure Message (ι μ : Type) where
  descriptor : ι
  members : List (Member μ)
  unknownFields : List UnknownField

/-- The messages with messages at most `n` deep. -/
def Msg (ι : Type) : ℕ → Type
  | 0 => Empty
  | n + 1 => Message ι (Msg ι n)

/-- The struct of a message. -/
abbrev Msg.body {n : ℕ} (m : Msg ι (n + 1)) : Message ι (Msg ι n) := m

/-! ## Initial values -/

def FieldType.zero : FieldType ι → Value μ
  | int32 => .word 0
  | enum => .word 0
  | uint32 => .word 0
  | bool => .bool false
  | string => .string none
  | bytes => .bytes []
  | message _ => .message none

def FieldDescriptor.zero (field : FieldDescriptor ι) : Member μ :=
  match field.label with
  | .repeated => .repeated []
  | .optional => if field.oneof then .oneof 0 field.type.zero else .optional false field.type.zero

/-- The first field of each member of the struct. -/
def MessageDescriptor.layout (desc : MessageDescriptor ι) : List (FieldDescriptor ι) :=
  desc.fields.foldl (fun l f => if f.offset = l.length then l ++ [f] else l) []

/-- `message_init`: the generated initial values are 0 and `NULL`. -/
def messageInit (table : ι → MessageDescriptor ι) (d : ι) : Message ι μ where
  descriptor := d
  members := (table d).layout.map FieldDescriptor.zero
  unknownFields := []

/-! ## The packed size -/

section Size

variable (subSize : μ → ℕ)

/-- What `required_field_get_packed_size` adds to the size of the tag. -/
def payloadSize : FieldType ι → Value μ → ℕ
  | .int32, .word v => int32Size v.toInt32
  | .enum, .word v => int32Size v.toInt32
  | .uint32, .word v => uint32Size v
  | .bool, .bool _ => 1
  | .string, .string str =>
      let len := (str.map strlen).getD 0
      uint32Size (UInt32.ofNat len) + len
  | .bytes, .bytes data => uint32Size (UInt32.ofNat data.length) + data.length
  | .message _, .message ptr =>
      let subrv := (ptr.map subSize).getD 0
      uint32Size (UInt32.ofNat subrv) + subrv
  | _, _ => 0

def requiredFieldGetPackedSize (field : FieldDescriptor ι) (member : Value μ) : ℕ :=
  getTagSize field.id + payloadSize subSize field.type member

/-- `NULL` in a member that is a pointer. -/
def FieldType.isNull : FieldType ι → Value μ → Bool
  | .message _, .message ptr => ptr.isNone
  | .string, .string str => str.isNone
  | _, _ => false

def FieldType.isPointer : FieldType ι → Bool
  | .message _ => true
  | .string => true
  | _ => false

def oneofFieldGetPackedSize (field : FieldDescriptor ι) (oneofCase : UInt32)
    (member : Value μ) : ℕ :=
  if oneofCase ≠ field.id then 0
  else if field.type.isPointer && field.type.isNull member then 0
  else requiredFieldGetPackedSize subSize field member

def optionalFieldGetPackedSize (field : FieldDescriptor ι) (has : Bool)
    (member : Value μ) : ℕ :=
  if field.type.isPointer then
    if field.type.isNull member then 0 else requiredFieldGetPackedSize subSize field member
  else
    if !has then 0 else requiredFieldGetPackedSize subSize field member

def repeatedFieldGetPackedSize (field : FieldDescriptor ι) (array : List (Value μ)) : ℕ :=
  if array.length = 0 then 0
  else
    let headerSize := getTagSize field.id * array.length
    let rv := (array.map (payloadSize subSize field.type)).sum
    headerSize + rv

def unknownFieldGetPackedSize (field : UnknownField) : ℕ :=
  getTagSize field.tag + field.data.length

/-- The case of a field by its label and its flag. -/
def fieldGetPackedSize (field : FieldDescriptor ι) : Member μ → ℕ
  | .oneof oneofCase value =>
      if field.label = .optional ∧ field.oneof then
        oneofFieldGetPackedSize subSize field oneofCase value
      else 0
  | .optional has value =>
      if field.label = .optional ∧ !field.oneof then
        optionalFieldGetPackedSize subSize field has value
      else 0
  | .repeated items =>
      if field.label = .repeated then repeatedFieldGetPackedSize subSize field items else 0

def messageGetPackedSize (table : ι → MessageDescriptor ι) (message : Message ι μ) : ℕ :=
  ((table message.descriptor).fields.map fun field =>
      (message.members[field.offset]?).elim 0 (fieldGetPackedSize subSize field)).sum +
    (message.unknownFields.map unknownFieldGetPackedSize).sum

end Size

/-! ## Packing -/

def booleanPack (value : Bool) : List UInt8 := [if value then 1 else 0]

def stringPack : (str : Option (List UInt8)) → List UInt8
  | none => [0]
  | some str => uint32Pack (UInt32.ofNat (strlen str)) ++ cstr str

def binaryDataPack (data : List UInt8) : List UInt8 :=
  uint32Pack (UInt32.ofNat data.length) ++ data

section Pack

variable (subPack : μ → List UInt8)

-- the message is packed behind one byte and moved when its length takes more
def prefixedMessagePack : (message : Option μ) → List UInt8
  | none => [0]
  | some message => uint32Pack (UInt32.ofNat (subPack message).length) ++ subPack message

def FieldType.wireType : FieldType ι → UInt8
  | .int32 => WIRE_TYPE_VARINT
  | .enum => WIRE_TYPE_VARINT
  | .uint32 => WIRE_TYPE_VARINT
  | .bool => WIRE_TYPE_VARINT
  | .string => WIRE_TYPE_LENGTH_PREFIXED
  | .bytes => WIRE_TYPE_LENGTH_PREFIXED
  | .message _ => WIRE_TYPE_LENGTH_PREFIXED

/-- What `required_field_pack` writes behind the tag. -/
def payloadPack : FieldType ι → Value μ → List UInt8
  | .int32, .word v => int32Pack v.toInt32
  | .enum, .word v => int32Pack v.toInt32
  | .uint32, .word v => uint32Pack v
  | .bool, .bool v => booleanPack v
  | .string, .string str => stringPack str
  | .bytes, .bytes data => binaryDataPack data
  | .message _, .message ptr => prefixedMessagePack subPack ptr
  | _, _ => []

def requiredFieldPack (field : FieldDescriptor ι) (member : Value μ) : List UInt8 :=
  orFirst field.type.wireType (tagPack field.id) ++ payloadPack subPack field.type member

def oneofFieldPack (field : FieldDescriptor ι) (oneofCase : UInt32) (member : Value μ) :
    List UInt8 :=
  if oneofCase ≠ field.id then []
  else if field.type.isPointer && field.type.isNull member then []
  else requiredFieldPack subPack field member

def optionalFieldPack (field : FieldDescriptor ι) (has : Bool) (member : Value μ) :
    List UInt8 :=
  if field.type.isPointer then
    if field.type.isNull member then [] else requiredFieldPack subPack field member
  else
    if !has then [] else requiredFieldPack subPack field member

def repeatedFieldPack (field : FieldDescriptor ι) (array : List (Value μ)) : List UInt8 :=
  array.flatMap (requiredFieldPack subPack field)

def unknownFieldPack (field : UnknownField) : List UInt8 :=
  orFirst field.wireType (tagPack field.tag) ++ field.data

def fieldPack (field : FieldDescriptor ι) : Member μ → List UInt8
  | .oneof oneofCase value =>
      if field.label = .optional ∧ field.oneof then
        oneofFieldPack subPack field oneofCase value
      else []
  | .optional has value =>
      if field.label = .optional ∧ !field.oneof then
        optionalFieldPack subPack field has value
      else []
  | .repeated items =>
      if field.label = .repeated then repeatedFieldPack subPack field items else []

def messagePack (table : ι → MessageDescriptor ι) (message : Message ι μ) : List UInt8 :=
  ((table message.descriptor).fields.flatMap fun field =>
      (message.members[field.offset]?).elim [] (fieldPack subPack field)) ++
    message.unknownFields.flatMap unknownFieldPack

end Pack

/-- `protobuf_c_message_get_packed_size` -/
def Msg.getPackedSize (table : ι → MessageDescriptor ι) : (n : ℕ) → Msg ι n → ℕ
  | 0, _ => 0
  | n + 1, message => messageGetPackedSize (Msg.getPackedSize table n) table message

/-- `protobuf_c_message_pack` -/
def Msg.pack (table : ι → MessageDescriptor ι) : (n : ℕ) → Msg ι n → List UInt8
  | 0, _ => []
  | n + 1, message => messagePack (Msg.pack table n) table message

/-! ## The size is the number of bytes written -/

section Length

variable {subSize : μ → ℕ} {subPack : μ → List UInt8}
  (hsub : ∀ m, (subPack m).length = subSize m)

include hsub

theorem length_payloadPack (type : FieldType ι) (value : Value μ) :
    (payloadPack subPack type value).length = payloadSize subSize type value := by
  cases type <;> cases value <;>
    try simp only [payloadPack, payloadSize, length_int32Pack, length_uint32Pack, List.length_nil]
  case bool.bool v => rfl
  case string.string str =>
    cases str with
    | none => rfl
    | some str =>
        simp only [stringPack, List.length_append, length_uint32Pack, Option.map_some,
          Option.getD_some, strlen]
  case bytes.bytes data =>
    simp only [binaryDataPack, List.length_append, length_uint32Pack]
  case message.message d ptr =>
    cases ptr with
    | none => rfl
    | some m =>
        simp only [prefixedMessagePack, List.length_append, length_uint32Pack, hsub,
          Option.map_some, Option.getD_some]

theorem length_requiredFieldPack (field : FieldDescriptor ι) (value : Value μ) :
    (requiredFieldPack subPack field value).length =
      requiredFieldGetPackedSize subSize field value := by
  rw [requiredFieldPack, List.length_append, length_orFirst, length_tagPack,
    length_payloadPack hsub, requiredFieldGetPackedSize]

theorem length_repeatedFieldPack (field : FieldDescriptor ι) (array : List (Value μ)) :
    (repeatedFieldPack subPack field array).length =
      repeatedFieldGetPackedSize subSize field array := by
  have hsum : (repeatedFieldPack subPack field array).length =
      getTagSize field.id * array.length +
        (array.map (payloadSize subSize field.type)).sum := by
    rw [repeatedFieldPack]
    induction array with
    | nil => rfl
    | cons v array ih =>
        rw [List.flatMap_cons, List.length_append, ih, length_requiredFieldPack hsub,
          requiredFieldGetPackedSize, List.map_cons, List.sum_cons, List.length_cons]
        ring
  rw [hsum, repeatedFieldGetPackedSize]
  split
  · rename_i hzero
    rw [List.length_eq_zero_iff.1 hzero]
    rfl
  · rfl

theorem length_fieldPack (field : FieldDescriptor ι) (member : Member μ) :
    (fieldPack subPack field member).length = fieldGetPackedSize subSize field member := by
  cases member with
  | optional has value =>
      rw [fieldPack, fieldGetPackedSize, optionalFieldPack, optionalFieldGetPackedSize]
      split_ifs <;> first | rfl | exact length_requiredFieldPack hsub field value
  | oneof oneofCase value =>
      rw [fieldPack, fieldGetPackedSize, oneofFieldPack, oneofFieldGetPackedSize]
      split_ifs <;> first | rfl | exact length_requiredFieldPack hsub field value
  | repeated items =>
      rw [fieldPack, fieldGetPackedSize]
      split
      · exact length_repeatedFieldPack hsub field items
      · rfl

theorem length_messagePack (table : ι → MessageDescriptor ι) (message : Message ι μ) :
    (messagePack subPack table message).length = messageGetPackedSize subSize table message := by
  have hmember : ∀ field : FieldDescriptor ι,
      ((message.members[field.offset]?).elim [] (fieldPack subPack field)).length =
        (message.members[field.offset]?).elim 0 (fieldGetPackedSize subSize field) := by
    intro field
    cases message.members[field.offset]? with
    | none => rfl
    | some member => exact length_fieldPack hsub field member
  have hunknown : ∀ u : UnknownField,
      (unknownFieldPack u).length = unknownFieldGetPackedSize u := by
    intro u
    rw [unknownFieldPack, List.length_append, length_orFirst, length_tagPack,
      unknownFieldGetPackedSize]
  rw [messagePack, messageGetPackedSize, List.length_append, List.length_flatMap,
    List.length_flatMap]
  simp only [hmember, hunknown]

end Length

/-- `protobuf_c_message_pack` fills the buffer of `protobuf_c_message_get_packed_size` bytes
exactly, whatever the message. -/
theorem Msg.length_pack (table : ι → MessageDescriptor ι) (n : ℕ) (message : Msg ι n) :
    (Msg.pack table n message).length = Msg.getPackedSize table n message := by
  induction n with
  | zero => cases message
  | succ n ih => exact length_messagePack ih table message

end Protobuf

end EspHosted
