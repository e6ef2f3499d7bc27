import EspHosted.Lib.Slice

/-!
# The TLV format of the control path

A control message is an endpoint entry and a data entry, each with a type byte
and a little-endian length: `01 07 00 "control" 02 lo hi data`. `composeTlv`
writes one into a buffer, `parseTlv` reads the 13 bytes before the data.
-/

namespace EspHosted

open EspHosted.Bytes

namespace Control

/-- `PROTO_PSER_TLV_T_EPNAME` -/
def protoPserTlvTEpname : UInt8 := 0x01

/-- `PROTO_PSER_TLV_T_DATA` -/
def protoPserTlvTData : UInt8 := 0x02

/-- The characters of `"control"`. -/
def epName : List UInt8 := [99, 111, 110, 116, 114, 111, 108]

/-- `SIZE_OF_TYPE` -/
def sizeOfType : ℕ := 1

/-- `SIZE_OF_LENGTH` -/
def sizeOfLength : ℕ := 2

/-- The bytes before the data: both types, both lengths and the endpoint name. -/
def tlvHeaderLength : ℕ :=
  sizeOfType + sizeOfLength + epName.length + sizeOfType + sizeOfLength

/-- `compose_tlv` into `buf`, with the `count` it returns. `count` is a
`uint16_t`. -/
def composeTlv (buf : Block) (data : List UInt8) (dataLength : UInt16) : Block × UInt16 :=
  let count : UInt16 := 0
  let buf := buf.store count.toNat [protoPserTlvTEpname]
  let count := count + 1
  let epLength := UInt16.ofNat epName.length
  let buf := buf.store count.toNat [lowByte epLength]
  let count := count + 1
  let buf := buf.store count.toNat [highByte epLength]
  let count := count + 1
  let buf := buf.store count.toNat epName
  let count := count + epLength
  let buf := buf.store count.toNat [protoPserTlvTData]
  let count := count + 1
  let buf := buf.store count.toNat [lowByte dataLength]
  let count := count + 1
  let buf := buf.store count.toNat [highByte dataLength]
  let count := count + 1
  let buf := buf.store count.toNat (data.take dataLength.toNat)
  let count := count + dataLength
  (buf, count)

/-- The `val_len` that `parse_tlv` stores through `pro_len` on `SUCCESS`, `none` on
`FAILURE`, and whether it reads behind `data`. -/
structure ParseResult where
  proLen : Option UInt16
  overread : Bool

/-- `parse_tlv` -/
def parseTlv (data : List UInt8) : ParseResult :=
  let failure : ParseResult := { proLen := none, overread := false }
  let len := 0
  if data.getD len 0 = protoPserTlvTEpname then
    let len := len + 1
    let valLen := le16 (data.getD len 0) (data.getD (len + 1) 0)
    let len := len + 2
    if valLen.toNat = epName.length then
      if (data.drop len).take epName.length = epName then
        let len := len + epName.length
        if data.getD len 0 = protoPserTlvTData then
          let len := len + 1
          { proLen := some (le16 (data.getD len 0) (data.getD (len + 1) 0)), overread := false }
        else
          failure
      else
        -- the name is printed with `%s`, which reads on to the next 0
        { proLen := none, overread := decide (0 ∉ data.drop len) }
    else
      failure
  else
    failure

/-- The bytes `compose_tlv` writes before the data. -/
def tlvHeader (dataLength : UInt16) : List UInt8 :=
  [protoPserTlvTEpname, lowByte (UInt16.ofNat epName.length),
    highByte (UInt16.ofNat epName.length)] ++ epName ++
  [protoPserTlvTData, lowByte dataLength, highByte dataLength]

@[simp] theorem length_tlvHeader (dataLength : UInt16) :
    (tlvHeader dataLength).length = tlvHeaderLength := rfl

/-- `compose_tlv` writes the header and the data behind each other, into whatever buffer
it gets. -/
theorem composeTlv_eq (buf : Block) (data : List UInt8) (dataLength : UInt16) :
    composeTlv buf data dataLength =
      (buf.store 0 (tlvHeader dataLength ++ data.take dataLength.toNat),
        UInt16.ofNat tlvHeaderLength + dataLength) := by
  rw [composeTlv, Prod.mk.injEq]
  constructor
  · -- Each store starts where the one before has ended.
    have hnext : ∀ (off : ℕ) (l src : List UInt8), off = l.length →
        (buf.store 0 l).store off src = buf.store 0 (l ++ src) := by
      intro off l src hoff
      rw [hoff, Block.store_store]
    change (((((((buf.store 0 [protoPserTlvTEpname]).store 1
      [lowByte (UInt16.ofNat epName.length)]).store 2
      [highByte (UInt16.ofNat epName.length)]).store 3 epName).store 10
      [protoPserTlvTData]).store 11 [lowByte dataLength]).store 12
      [highByte dataLength]).store 13 (data.take dataLength.toNat) = _
    rw [hnext 1, hnext 2, hnext 3, hnext 10, hnext 11, hnext 12, hnext 13] <;> rfl
  · rfl

/-- The message `compose_tlv` makes of `v` in a buffer of the right size. -/
def tlvOf (v : List UInt8) : List UInt8 :=
  (composeTlv (.calloc (tlvHeaderLength + v.length)) v (UInt16.ofNat v.length)).1.bytes

theorem tlvOf_eq {v : List UInt8} (h : v.length < 65536) :
    tlvOf v = tlvHeader (UInt16.ofNat v.length) ++ v := by
  have hlen : (UInt16.ofNat v.length).toNat = v.length := by
    rw [UInt16.toNat_ofNat']
    omega
  rw [tlvOf, composeTlv_eq, hlen, List.take_length, Block.calloc_store_of_le]
  · simp
  · simp

/-- The tests of `parse_tlv`, one after the other. -/
theorem parseTlv_cons (b0 b1 b2 b3 b4 b5 b6 b7 b8 b9 b10 b11 b12 : UInt8) (rest : List UInt8) :
    parseTlv (b0 :: b1 :: b2 :: b3 :: b4 :: b5 :: b6 :: b7 :: b8 :: b9 :: b10 :: b11 :: b12 ::
        rest) =
      if b0 = protoPserTlvTEpname then
        if (le16 b1 b2).toNat = epName.length then
          if [b3, b4, b5, b6, b7, b8, b9] = epName then
            if b10 = protoPserTlvTData then
              { proLen := some (le16 b11 b12), overread := false }
            else { proLen := none, overread := false }
          else
            { proLen := none
              overread := decide (0 ∉ b3 :: b4 :: b5 :: b6 :: b7 :: b8 :: b9 :: b10 :: b11 ::
                b12 :: rest) }
        else { proLen := none, overread := false }
      else { proLen := none, overread := false } := rfl

theorem le16_eq_epName_length_iff (lo hi : UInt8) : (le16 lo hi).toNat = epName.length ↔
    lo = lowByte (UInt16.ofNat epName.length) ∧ hi = highByte (UInt16.ofNat epName.length) := by
  rw [← le16_eq_iff, ← UInt16.toNat_inj]
  rfl

/-- `parse_tlv` succeeds exactly on the headers `compose_tlv` writes. -/
theorem parseTlv_eq_some_iff {data : List UInt8} (h : tlvHeaderLength ≤ data.length)
    (valLen : UInt16) :
    (parseTlv data).proLen = some valLen ↔
      data.take tlvHeaderLength = tlvHeader valLen := by
  match data, h with
  | b0 :: b1 :: b2 :: b3 :: b4 :: b5 :: b6 :: b7 :: b8 :: b9 :: b10 :: b11 :: b12 :: rest, _ =>
    have htake : (b0 :: b1 :: b2 :: b3 :: b4 :: b5 :: b6 :: b7 :: b8 :: b9 :: b10 :: b11 ::
        b12 :: rest).take tlvHeaderLength =
          [b0, b1, b2] ++ [b3, b4, b5, b6, b7, b8, b9] ++ [b10, b11, b12] := rfl
    have hsplit : [b0, b1, b2] ++ [b3, b4, b5, b6, b7, b8, b9] ++ [b10, b11, b12] =
        tlvHeader valLen ↔
          b0 = protoPserTlvTEpname ∧ (le16 b1 b2).toNat = epName.length ∧
            [b3, b4, b5, b6, b7, b8, b9] = epName ∧ b10 = protoPserTlvTData ∧
            le16 b11 b12 = valLen := by
      rw [le16_eq_epName_length_iff, le16_eq_iff]
      simp only [tlvHeader, epName, List.cons_append, List.nil_append, List.cons.injEq,
        and_true, and_assoc]
    rw [htake, hsplit, parseTlv_cons]
    split_ifs with h0 h1 h2 h3
    · simp only [h0, h1, h2, h3, true_and, Option.some.injEq]
    · simp only [h3, false_and, and_false]
    · simp only [h2, false_and, and_false]
    · simp only [h1, false_and, and_false]
    · simp only [h0, false_and]

/-- `parse_tlv` reads behind the data exactly when it prints a name that is not the own one
and no 0 comes in or behind it. -/
theorem overread_parseTlv_iff {data : List UInt8} (h : tlvHeaderLength ≤ data.length) :
    (parseTlv data).overread = true ↔
      data.take 3 = (tlvHeader 0).take 3 ∧ (data.drop 3).take epName.length ≠ epName ∧
        0 ∉ data.drop 3 := by
  match data, h with
  | b0 :: b1 :: b2 :: b3 :: b4 :: b5 :: b6 :: b7 :: b8 :: b9 :: b10 :: b11 :: b12 :: rest, _ =>
    have hstart : (b0 :: b1 :: b2 :: b3 :: b4 :: b5 :: b6 :: b7 :: b8 :: b9 :: b10 :: b11 ::
        b12 :: rest).take 3 = (tlvHeader 0).take 3 ↔
          b0 = protoPserTlvTEpname ∧ (le16 b1 b2).toNat = epName.length := by
      rw [le16_eq_epName_length_iff]
      simp [tlvHeader]
    have hname : ((b0 :: b1 :: b2 :: b3 :: b4 :: b5 :: b6 :: b7 :: b8 :: b9 :: b10 :: b11 ::
        b12 :: rest).drop 3).take epName.length = [b3, b4, b5, b6, b7, b8, b9] := rfl
    rw [hstart, hname, parseTlv_cons]
    split_ifs with h0 h1 h2 h3
    · simp only [h2, ne_eq, not_true_eq_false, false_and, and_false]
    · simp only [h2, ne_eq, not_true_eq_false, false_and, and_false]
    · simp only [h0, h1, ne_eq, h2, not_false_eq_true, true_and, decide_eq_true_eq,
        List.drop_succ_cons, List.drop_zero]
    · simp only [h1, and_false, false_and]
    · simp only [h0, false_and]

end Control

end EspHosted
