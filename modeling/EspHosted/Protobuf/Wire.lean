import EspHosted.Lib.Varint
import EspHosted.Lib.Word
import Mathlib.Tactic.NormNum.Pow
import Mathlib.Tactic.Ring

/-!
# Numbers on the wire

The functions of the protobuf runtime that write one number, that say how many bytes it
takes, and that read it back. They shift and mask machine words; each is one of the
general operations on numbers in base 128.
-/

namespace EspHosted

open EspHosted.Bytes

namespace Protobuf

def WIRE_TYPE_VARINT : UInt8 := 0
def WIRE_TYPE_64BIT : UInt8 := 1
def WIRE_TYPE_LENGTH_PREFIXED : UInt8 := 2
def WIRE_TYPE_32BIT : UInt8 := 5

def INT_MAX : ℕ := 2147483647

/-! ## Sizes -/

def getTagSize (number : UInt32) : ℕ :=
  if number.toNat < 2 ^ 4 then 1
  else if number.toNat < 2 ^ 11 then 2
  else if number.toNat < 2 ^ 18 then 3
  else if number.toNat < 2 ^ 25 then 4
  else 5

def uint32Size (v : UInt32) : ℕ :=
  if v.toNat < 2 ^ 7 then 1
  else if v.toNat < 2 ^ 14 then 2
  else if v.toNat < 2 ^ 21 then 3
  else if v.toNat < 2 ^ 28 then 4
  else 5

def int32Size (v : Int32) : ℕ :=
  if v.toInt < 0 then 10
  else if v.toInt < 2 ^ 7 then 1
  else if v.toInt < 2 ^ 14 then 2
  else if v.toInt < 2 ^ 21 then 3
  else if v.toInt < 2 ^ 28 then 4
  else 5

/-! ## Writing -/

/-- Bytes with the top bit set while the value needs them, `more` of them at most, and the
rest of the value. -/
def packLoop : (more : ℕ) → UInt32 → List UInt8
  | 0, value => [value.toUInt8]
  | more + 1, value =>
      if 0x80 ≤ value then
        (value ||| 0x80).toUInt8 :: packLoop more (value >>> 7)
      else
        [value.toUInt8]

-- four nested tests
def uint32Pack (value : UInt32) : List UInt8 := packLoop 4 value

/-- A negative number is written as one of 64 bits. -/
def int32Pack (value : Int32) : List UInt8 :=
  if value.toInt < 0 then
    [(value ||| 0x80).toUInt32.toUInt8,
     (value >>> 7 ||| 0x80).toUInt32.toUInt8,
     (value >>> 14 ||| 0x80).toUInt32.toUInt8,
     (value >>> 21 ||| 0x80).toUInt32.toUInt8,
     (value >>> 28 ||| 0x80).toUInt32.toUInt8,
     0xff, 0xff, 0xff, 0xff, 0x01]
  else
    uint32Pack value.toUInt32

def uint64Pack (value : UInt64) : List UInt8 :=
  let hi := (value >>> 32).toUInt32
  let lo := value.toUInt32
  if hi = 0 then
    uint32Pack lo
  else
    let out := [(lo ||| 0x80).toUInt8, (lo >>> 7 ||| 0x80).toUInt8, (lo >>> 14 ||| 0x80).toUInt8,
      (lo >>> 21 ||| 0x80).toUInt8]
    if hi < 8 then
      out ++ [(hi <<< 4 ||| lo >>> 28).toUInt8]
    else
      -- a `while` over 29 bits, four turns at most
      out ++ ((hi &&& 7) <<< 4 ||| lo >>> 28 ||| 0x80).toUInt8 :: packLoop 4 (hi >>> 3)

def tagPack (id : UInt32) : List UInt8 :=
  if id.toNat < 2 ^ (32 - 3) then
    uint32Pack (id <<< 3)
  else
    uint64Pack (id.toUInt64 <<< 3)

/-- `out[0] |= wireType` -/
def orFirst (wireType : UInt8) : List UInt8 → List UInt8
  | [] => []
  | b :: out => (b ||| wireType) :: out

/-! ## Reading -/

/-- The bytes behind the first one of a tag, `left` of them at most, and how many bytes the
tag has. -/
def parseTagLoop (tag shift : UInt32) (rv : ℕ) : (left : ℕ) → List UInt8 → Option (UInt32 × ℕ)
  | 0, _ => none
  | _ + 1, [] => none
  | left + 1, b :: data =>
      if b &&& 0x80 ≠ 0 then
        parseTagLoop (tag ||| (b &&& 0x7f).toUInt32 <<< shift) (shift + 7) (rv + 1) left data
      else
        some (tag ||| b.toUInt32 <<< shift, rv + 1)

structure TagAndWiretype where
  used : ℕ
  tag : UInt32
  wireType : UInt8
  deriving DecidableEq, Repr

/-- `none` where the source returns 0. -/
def parseTagAndWiretype : (data : List UInt8) → Option TagAndWiretype
  | [] => none
  | b :: data =>
      let tag := ((b &&& 0x7f) >>> 3).toUInt32
      if b &&& 0xf8 = 0 then
        none
      else if b &&& 0x80 = 0 then
        some { used := 1, tag := tag, wireType := b &&& 7 }
      else
        (parseTagLoop tag 4 1 4 data).map fun r =>
          { used := r.2, tag := r.1, wireType := b &&& 7 }

/-- The length in front of the data, of `left` bytes at most, and how many bytes it has. -/
def prefixLoop (val shift : UInt32) (i : ℕ) : (left : ℕ) → List UInt8 → Option (UInt32 × ℕ)
  | 0, _ => none
  | _ + 1, [] => none
  | left + 1, b :: data =>
      let val := val ||| (b.toUInt32 &&& 0x7f) <<< shift
      if b &&& 0x80 = 0 then
        some (val, i + 1)
      else
        prefixLoop val (shift + 7) (i + 1) left data

/-- How far the data reaches, its length in front included, and how many bytes that length
has. -/
def scanLengthPrefixedData (data : List UInt8) : Option (ℕ × ℕ) :=
  (prefixLoop 0 0 0 5 data).bind fun r =>
    if INT_MAX < r.1.toNat then none
    else if data.length < r.2 + r.1.toNat then none
    else some (r.2 + r.1.toNat, r.2)

def parseUint32 (data : List UInt8) : UInt32 :=
  let len := data.length
  let rv := (data.getD 0 0 &&& 0x7f).toUInt32
  if len > 1 then
    let rv := rv ||| (data.getD 1 0 &&& 0x7f).toUInt32 <<< 7
    if len > 2 then
      let rv := rv ||| (data.getD 2 0 &&& 0x7f).toUInt32 <<< 14
      if len > 3 then
        let rv := rv ||| (data.getD 3 0 &&& 0x7f).toUInt32 <<< 21
        if len > 4 then
          rv ||| (data.getD 4 0).toUInt32 <<< 28
        else rv
      else rv
    else rv
  else rv

def parseInt32 (data : List UInt8) : UInt32 := parseUint32 data

def parseBoolean (data : List UInt8) : Bool := data.any fun b => b &&& 0x7f ≠ 0

/-! ## Bits of a byte -/

section Masks

/-- What holds of the 256 bytes holds of every byte. -/
theorem forall_byte {P : UInt8 → Prop} (h : ∀ i : Fin 256, P (UInt8.ofFin i)) (b : UInt8) :
    P b := h b.toFin

theorem and_0x80_eq_zero_iff (b : UInt8) : b &&& 0x80 = 0 ↔ b.toNat < 128 :=
  forall_byte (P := fun b => b &&& 0x80 = 0 ↔ b.toNat < 128) (by decide +kernel) b

theorem and_0xf8_eq_zero_iff (b : UInt8) : b &&& 0xf8 = 0 ↔ b.toNat < 8 :=
  forall_byte (P := fun b => b &&& 0xf8 = 0 ↔ b.toNat < 8) (by decide +kernel) b

theorem toNat_and_0x7f (b : UInt8) : (b &&& 0x7f).toNat = b.toNat % 128 :=
  forall_byte (P := fun b => (b &&& 0x7f).toNat = b.toNat % 128) (by decide +kernel) b

theorem toNat_and_7 (b : UInt8) : (b &&& 7).toNat = b.toNat % 8 :=
  forall_byte (P := fun b => (b &&& 7).toNat = b.toNat % 8) (by decide +kernel) b

theorem toNat_shiftRight_3 (b : UInt8) : ((b &&& 0x7f) >>> 3).toNat = b.toNat % 128 / 8 :=
  forall_byte (P := fun b => ((b &&& 0x7f) >>> 3).toNat = b.toNat % 128 / 8) (by decide +kernel) b

theorem or_0x80 (b : UInt8) : b ||| 0x80 = UInt8.ofNat (b.toNat % 128 + 128) :=
  forall_byte (P := fun b => b ||| 0x80 = UInt8.ofNat (b.toNat % 128 + 128)) (by decide +kernel) b

theorem toUInt8_or_0x80 (x : UInt32) :
    (x ||| 0x80).toUInt8 = UInt8.ofNat (x.toNat % 128 + 128) := by
  rw [UInt32.toUInt8_or]
  have h := or_0x80 x.toUInt8
  rw [UInt32.toNat_toUInt8, Nat.mod_mod_of_dvd x.toNat (by decide)] at h
  exact h

theorem toUInt8_eq_ofNat (x : UInt32) : x.toUInt8 = UInt8.ofNat x.toNat := rfl

end Masks

/-! ## What is written -/

section Writing

theorem packLoop_eq (more : ℕ) (value : UInt32) (h : value.toNat < 128 ^ (more + 1)) :
    packLoop more value = Varint.encode value.toNat := by
  induction more generalizing value with
  | zero =>
      rw [packLoop, Varint.encode_of_lt (by simpa using h)]
      rfl
  | succ more ih =>
      rw [packLoop]
      by_cases hbig : (0x80 : UInt32) ≤ value
      · have hle : 128 ≤ value.toNat := hbig
        have hshift : (value >>> 7).toNat = value.toNat / 128 := by
          rw [UInt32.toNat_shiftRight]
          exact Nat.shiftRight_eq_div_pow _ 7
        have hrest : (value >>> 7).toNat < 128 ^ (more + 1) := by
          rw [hshift, Nat.div_lt_iff_lt_mul (by decide), ← pow_succ]
          exact h
        rw [if_pos hbig, Varint.encode_of_le hle, toUInt8_or_0x80, ih _ hrest, hshift]
      · have hlt : value.toNat < 128 := by
          have hnot : ¬ 128 ≤ value.toNat := hbig
          omega
        rw [if_neg hbig, Varint.encode_of_lt hlt]
        rfl

theorem uint32Pack_eq (value : UInt32) : uint32Pack value = Varint.encode value.toNat := by
  refine packLoop_eq 4 value ?_
  have := value.toNat_lt
  omega

/-- The 64 bits of a signed number. -/
def signExtended (value : Int32) : ℕ := (value.toInt % 2 ^ 64).toNat

theorem toNat_toUInt32_eq (value : Int32) :
    value.toUInt32.toNat = (value.toInt % 2 ^ 32).toNat := by
  have h := value.toUInt32.toNat_lt
  have hint : value.toInt = (value.toUInt32.toNat : ℤ).bmod (2 ^ 32) := by
    rw [← Int32.toInt_toBitVec, BitVec.toInt_eq_toNat_bmod]
    rfl
  have hmod : (value.toUInt32.toNat : ℤ).bmod (2 ^ 32) % ((2 ^ 32 : ℕ) : ℤ) =
      value.toUInt32.toNat % ((2 ^ 32 : ℕ) : ℤ) := Int.bmod_emod
  rw [hint]
  omega

theorem int32Pack_nonneg {value : Int32} (h : 0 ≤ value.toInt) :
    int32Pack value = Varint.encode (signExtended value) := by
  rw [int32Pack, if_neg (by omega), uint32Pack_eq, toNat_toUInt32_eq, signExtended]
  have := value.toInt_lt
  congr 1
  omega

theorem toInt_shiftRight (value : Int32) {s : Int32} {k : ℕ}
    (hs : (s.toBitVec.smod 32).toNat = k) : (value >>> s).toInt = value.toInt / 2 ^ k := by
  rw [← Int32.toInt_toBitVec, Int32.toBitVec_shiftRight, BitVec.toInt_sshiftRight', hs,
    Int.shiftRight_eq_div_pow]
  simp

theorem toUInt8_or_0x80_signed (value : Int32) :
    (value ||| 0x80).toUInt32.toUInt8 = UInt8.ofNat ((value.toInt % 128).toNat + 128) := by
  have h := toUInt8_or_0x80 value.toUInt32
  rw [Int32.toUInt32_or]
  refine h.trans ?_
  rw [toNat_toUInt32_eq]
  congr 2
  omega

/-- A group of a number that is not the last one. -/
theorem encode_group {n g : ℕ} (h : 128 ≤ n) (hg : g = n % 128 + 128) :
    Varint.encode n = UInt8.ofNat g :: Varint.encode (n / 128) := by
  rw [Varint.encode_of_le h, hg]

theorem int32Pack_neg {value : Int32} (h : value.toInt < 0) :
    int32Pack value = Varint.encode (signExtended value) := by
  have hlo : -(2 ^ 31) ≤ value.toInt := value.le_toInt
  have hn : (signExtended value : ℤ) = 2 ^ 64 + value.toInt := by
    rw [signExtended]
    omega
  have h7 := toInt_shiftRight value (s := 7) (k := 7) (by decide)
  have h14 := toInt_shiftRight value (s := 14) (k := 14) (by decide)
  have h21 := toInt_shiftRight value (s := 21) (k := 21) (by decide)
  have h28 := toInt_shiftRight value (s := 28) (k := 28) (by decide)
  rw [int32Pack, if_pos h]
  simp only [toUInt8_or_0x80_signed, h7, h14, h21, h28]
  generalize signExtended value = n at hn
  rw [encode_group (n := n) (by omega) rfl,
    encode_group (n := n / 128) (by omega) rfl,
    encode_group (n := n / 128 / 128) (by omega) rfl,
    encode_group (n := n / 128 / 128 / 128) (by omega) rfl,
    encode_group (n := n / 128 / 128 / 128 / 128) (by omega) rfl,
    encode_group (n := n / 128 / 128 / 128 / 128 / 128) (g := 255) (by omega) (by omega),
    encode_group (n := n / 128 / 128 / 128 / 128 / 128 / 128) (g := 255) (by omega) (by omega),
    encode_group (n := n / 128 / 128 / 128 / 128 / 128 / 128 / 128) (g := 255) (by omega)
      (by omega),
    encode_group (n := n / 128 / 128 / 128 / 128 / 128 / 128 / 128 / 128) (g := 255) (by omega)
      (by omega),
    Varint.encode_of_lt (n := n / 128 / 128 / 128 / 128 / 128 / 128 / 128 / 128 / 128) (by omega)]
  have hlast : n / 128 / 128 / 128 / 128 / 128 / 128 / 128 / 128 / 128 = 1 := by omega
  have h0 : (value.toInt % 128).toNat = n % 128 := by omega
  have h1 : (value.toInt / 2 ^ 7 % 128).toNat = n / 128 % 128 := by omega
  have h2 : (value.toInt / 2 ^ 14 % 128).toNat = n / 128 / 128 % 128 := by omega
  have h3 : (value.toInt / 2 ^ 21 % 128).toNat = n / 128 / 128 / 128 % 128 := by omega
  have h4 : (value.toInt / 2 ^ 28 % 128).toNat = n / 128 / 128 / 128 / 128 % 128 := by omega
  rw [hlast, h0, h1, h2, h3, h4]
  rfl

theorem int32Pack_eq (value : Int32) : int32Pack value = Varint.encode (signExtended value) :=
  (lt_or_ge value.toInt 0).elim int32Pack_neg int32Pack_nonneg

theorem toNat_shiftRight (x : UInt32) {s : UInt32} {k : ℕ} (hs : s.toNat % 32 = k) :
    (x >>> s).toNat = x.toNat / 2 ^ k := by
  rw [UInt32.toNat_shiftRight, hs]
  exact Nat.shiftRight_eq_div_pow _ k

/-- The fifth byte of a number of 64 bits takes bits of both halves. -/
theorem toNat_middle {hi lo : UInt32} {h : ℕ} (hhi : hi.toNat = h) (hlt : h < 8) :
    (hi <<< 4 ||| lo >>> 28).toNat = lo.toNat / 2 ^ 28 + h * 2 ^ 4 := by
  have hlo := lo.toNat_lt
  have hleft : (hi <<< 4).toNat = h <<< 4 := by
    rw [UInt32.toNat_shiftLeft, hhi]
    refine Nat.mod_eq_of_lt ?_
    show h <<< 4 < 2 ^ 32
    rw [Nat.shiftLeft_eq]
    omega
  rw [UInt32.toNat_or, hleft, toNat_shiftRight lo (s := 28) (k := 28) rfl, Nat.or_comm]
  exact or_shiftLeft (by omega) h

theorem uint64Pack_eq (value : UInt64) : uint64Pack value = Varint.encode value.toNat := by
  have hhi : (value >>> 32).toUInt32.toNat = value.toNat / 2 ^ 32 := by
    have := value.toNat_lt
    rw [UInt64.toNat_toUInt32, UInt64.toNat_shiftRight]
    show value.toNat >>> 32 % 2 ^ 32 = _
    rw [Nat.shiftRight_eq_div_pow]
    omega
  have hlo : value.toUInt32.toNat = value.toNat % 2 ^ 32 := UInt64.toNat_toUInt32 value
  have hbound := value.toNat_lt
  unfold uint64Pack
  simp only
  generalize (value >>> 32).toUInt32 = hi at hhi
  generalize value.toUInt32 = lo at hlo
  generalize value.toNat = n at hhi hlo hbound
  by_cases hzero : hi = 0
  · subst hzero
    rw [if_pos rfl, uint32Pack_eq, hlo]
    have : (0 : UInt32).toNat = 0 := rfl
    congr 1
    omega
  have hpos : hi.toNat ≠ 0 := fun h => hzero (UInt32.toNat_inj.1 h)
  rw [if_neg hzero]
  simp only [toUInt8_or_0x80, toNat_shiftRight lo (s := 7) (k := 7) rfl,
    toNat_shiftRight lo (s := 14) (k := 14) rfl, toNat_shiftRight lo (s := 21) (k := 21) rfl]
  rw [encode_group (n := n) (g := lo.toNat % 128 + 128) (by omega) (by omega),
    encode_group (n := n / 128) (g := lo.toNat / 2 ^ 7 % 128 + 128) (by omega) (by omega),
    encode_group (n := n / 128 / 128) (g := lo.toNat / 2 ^ 14 % 128 + 128) (by omega) (by omega),
    encode_group (n := n / 128 / 128 / 128) (g := lo.toNat / 2 ^ 21 % 128 + 128) (by omega)
      (by omega)]
  by_cases hsmall : hi < 8
  · have hlt : hi.toNat < 8 := hsmall
    rw [if_pos hsmall, toUInt8_eq_ofNat, toNat_middle rfl hlt,
      Varint.encode_of_lt (n := n / 128 / 128 / 128 / 128) (by omega)]
    have : lo.toNat / 2 ^ 28 + hi.toNat * 2 ^ 4 = n / 128 / 128 / 128 / 128 := by omega
    rw [this]
    rfl
  · have hge : ¬ hi.toNat < 8 := hsmall
    have hand : (hi &&& 7).toNat = hi.toNat % 8 := by
      rw [UInt32.toNat_and]
      exact Nat.and_two_pow_sub_one_eq_mod _ 3
    rw [if_neg hsmall, toNat_middle hand (Nat.mod_lt _ (by decide)),
      packLoop_eq 4 _ (by rw [toNat_shiftRight hi (s := 3) (k := 3) rfl]; omega),
      toNat_shiftRight hi (s := 3) (k := 3) rfl,
      encode_group (n := n / 128 / 128 / 128 / 128)
        (g := (lo.toNat / 2 ^ 28 + hi.toNat % 8 * 2 ^ 4) % 128 + 128) (by omega) (by omega)]
    have : hi.toNat / 2 ^ 3 = n / 128 / 128 / 128 / 128 / 128 := by omega
    rw [this]
    rfl

theorem tagPack_eq (id : UInt32) : tagPack id = Varint.encode (8 * id.toNat) := by
  have hid := id.toNat_lt
  rw [tagPack]
  split
  · rename_i h
    rw [uint32Pack_eq, UInt32.toNat_shiftLeft]
    show Varint.encode (id.toNat <<< 3 % 2 ^ 32) = _
    rw [Nat.shiftLeft_eq]
    congr 1
    omega
  · rw [uint64Pack_eq, UInt64.toNat_shiftLeft, UInt32.toNat_toUInt64]
    show Varint.encode (id.toNat <<< 3 % 2 ^ 64) = _
    rw [Nat.shiftLeft_eq]
    congr 1
    omega

/-- The wire type goes into the three bits that the number of the field leaves. -/
theorem orFirst_tagPack (id : UInt32) {wireType : UInt8} (h : wireType.toNat < 8) :
    orFirst wireType (tagPack id) = Varint.encode (8 * id.toNat + wireType.toNat) := by
  have hadd := Varint.encode_add (n := 8 * id.toNat) (w := wireType.toNat) (k := 3)
    (by decide) (by omega) h
  rw [hadd, tagPack_eq, Varint.encode]
  have hor : ∀ b : UInt8, b.toNat % 8 = 0 →
      b ||| wireType = UInt8.ofNat (b.toNat + wireType.toNat) := by
    intro b hb
    apply UInt8.toNat_inj.1
    have hlt := b.toNat_lt
    obtain ⟨c, hc⟩ := Nat.dvd_of_mod_eq_zero hb
    have hsum := or_shiftLeft (k := 3) h c
    rw [UInt8.toNat_or, Nat.or_comm, UInt8.toNat_ofNat', hc, Nat.mul_comm 8 c]
    refine (congrArg (wireType.toNat ||| ·) (Nat.shiftLeft_eq c 3)).symm.trans ?_
    show wireType.toNat ||| c <<< 3 = _
    rw [hsum]
    omega
  split
  · simp only [orFirst, Varint.addLow]
    rw [hor _ (by rw [UInt8.toNat_ofNat']; omega)]
  · simp only [orFirst, Varint.addLow]
    rw [hor _ (by rw [UInt8.toNat_ofNat']; omega)]

/-! ## The sizes are the lengths -/

theorem length_orFirst (wireType : UInt8) (out : List UInt8) :
    (orFirst wireType out).length = out.length := by
  cases out <;> rfl

theorem length_tagPack (id : UInt32) : (tagPack id).length = getTagSize id := by
  have hid := id.toNat_lt
  rw [tagPack_eq, getTagSize]
  split
  · exact (Varint.encode_of_lt (n := 8 * id.toNat) (by omega)) ▸ rfl
  split
  · exact Varint.length_encode_eq (k := 1) (by omega) (by omega)
  split
  · exact Varint.length_encode_eq (k := 2) (by omega) (by omega)
  split
  · exact Varint.length_encode_eq (k := 3) (by omega) (by omega)
  · exact Varint.length_encode_eq (k := 4) (by omega) (by omega)

theorem length_uint32Pack (v : UInt32) : (uint32Pack v).length = uint32Size v := by
  have hv := v.toNat_lt
  rw [uint32Pack_eq, uint32Size]
  split
  · exact (Varint.encode_of_lt (n := v.toNat) (by omega)) ▸ rfl
  split
  · exact Varint.length_encode_eq (k := 1) (by omega) (by omega)
  split
  · exact Varint.length_encode_eq (k := 2) (by omega) (by omega)
  split
  · exact Varint.length_encode_eq (k := 3) (by omega) (by omega)
  · exact Varint.length_encode_eq (k := 4) (by omega) (by omega)

theorem length_int32Pack (v : Int32) : (int32Pack v).length = int32Size v := by
  rw [int32Pack, int32Size]
  by_cases h : v.toInt < 0
  · rw [if_pos h, if_pos h]
    rfl
  · have hle := v.toInt_lt
    have hnat : v.toUInt32.toNat = v.toInt.toNat := by
      rw [toNat_toUInt32_eq]
      omega
    rw [if_neg h, if_neg h, length_uint32Pack, uint32Size, hnat]
    have hiff : ∀ k : ℕ, (v.toInt.toNat < 2 ^ k) = (v.toInt < 2 ^ k) := by
      intro k
      have hcast : ((2 ^ k : ℕ) : ℤ) = 2 ^ k := by push_cast; rfl
      rw [← hcast, eq_iff_iff]
      omega
    simp only [hiff]

end Writing

/-! ## What is read -/

section Reading

/-- Seven more bits of a word; those behind its top are lost. -/
theorem or_shiftLeft_eq {acc x : UInt32} {s : UInt32} (hacc : acc.toNat < 2 ^ s.toNat)
    (hs : s.toNat < 32) :
    acc ||| x <<< s = UInt32.ofNat (acc.toNat + x.toNat * 2 ^ s.toNat) := by
  apply UInt32.toNat_inj.1
  rw [UInt32.toNat_or, UInt32.toNat_shiftLeft, UInt32.toNat_ofNat', Nat.mod_eq_of_lt hs]
  have hacc32 : acc.toNat = acc.toNat % 2 ^ 32 := (Nat.mod_eq_of_lt acc.toNat_lt).symm
  rw [hacc32, ← Nat.or_mod_two_pow, or_shiftLeft hacc, ← hacc32]

section Groups

variable {acc x shift : UInt32} (hacc : acc.toNat < 2 ^ shift.toNat) (hx : x.toNat < 128)
  (hs : shift.toNat < 32)

include hs

theorem toNat_shift_add : (shift + 7).toNat = shift.toNat + 7 := by
  rw [UInt32.toNat_add]
  refine Nat.mod_eq_of_lt ?_
  show shift.toNat + 7 < 2 ^ 32
  omega

theorem pow_shift_add : 2 ^ (shift + 7).toNat = 2 ^ shift.toNat * 128 := by
  rw [toNat_shift_add hs]
  exact pow_add 2 _ 7

include hacc

/-- Seven bits above the ones a word has. -/
theorem group_lt (hx : x.toNat < 128) :
    (acc ||| x <<< shift).toNat < 2 ^ (shift + 7).toNat := by
  have hstep : x.toNat * 2 ^ shift.toNat ≤ 127 * 2 ^ shift.toNat :=
    Nat.mul_le_mul_right _ (by omega)
  rw [or_shiftLeft_eq hacc hs, UInt32.toNat_ofNat', pow_shift_add hs]
  refine (Nat.mod_le _ _).trans_lt ?_
  omega

/-- The groups behind these seven bits are added the same way. -/
theorem group_value (v : ℕ) :
    UInt32.ofNat ((acc ||| x <<< shift).toNat + v * 2 ^ (shift + 7).toNat) =
      UInt32.ofNat (acc.toNat + (x.toNat + 128 * v) * 2 ^ shift.toNat) := by
  apply UInt32.toNat_inj.1
  rw [UInt32.toNat_ofNat', UInt32.toNat_ofNat', or_shiftLeft_eq hacc hs, UInt32.toNat_ofNat',
    Nat.mod_add_mod, pow_shift_add hs]
  congr 1
  ring

end Groups

theorem value_take_one (b : UInt8) (data : List UInt8) :
    Varint.value ((b :: data).take 1) = b.toNat % 128 := by
  simp only [List.take_succ_cons, List.take_zero, Varint.value_cons, Varint.value_nil]
  omega

theorem parseTagLoop_eq {left : ℕ} {tag shift : UInt32} (rv : ℕ) (data : List UInt8)
    (htag : tag.toNat < 2 ^ shift.toNat) (hshift : shift.toNat + 7 * left ≤ 32) :
    parseTagLoop tag shift rv left data =
      (Varint.scan left data).map fun n =>
        (UInt32.ofNat (tag.toNat + Varint.value (data.take n) * 2 ^ shift.toNat), rv + n) := by
  induction left generalizing tag shift rv data with
  | zero => rfl
  | succ left ih =>
      cases data with
      | nil => rfl
      | cons b data =>
          have hs : shift.toNat < 32 := by omega
          by_cases hb : b.toNat < 128
          · have hand := (and_0x80_eq_zero_iff b).2 hb
            rw [parseTagLoop, Varint.scan, if_pos hb, if_neg (not_not.2 hand), Option.map_some,
              or_shiftLeft_eq htag hs, UInt8.toNat_toUInt32, value_take_one,
              Nat.mod_eq_of_lt hb]
          · have hand : b &&& 0x80 ≠ 0 := fun h => hb ((and_0x80_eq_zero_iff b).1 h)
            have hmask : (b &&& 0x7f).toUInt32.toNat = b.toNat % 128 := by
              rw [UInt8.toNat_toUInt32, toNat_and_0x7f]
            have hnew := group_lt htag hs (x := (b &&& 0x7f).toUInt32) (by omega)
            have hleft : (shift + 7).toNat + 7 * left ≤ 32 := by
              rw [toNat_shift_add hs]
              omega
            rw [parseTagLoop, Varint.scan, if_neg hb, if_pos hand, ih (rv + 1) data hnew hleft,
              Option.map_map]
            congr 1
            funext n
            refine Prod.ext ?_ (by simp only [Function.comp_apply]; omega)
            rw [Function.comp_apply, List.take_succ_cons, Varint.value_cons, ← hmask]
            exact group_value htag hs _

theorem prefixLoop_eq {left : ℕ} {val shift : UInt32} (i : ℕ) (data : List UInt8)
    (hval : val.toNat < 2 ^ shift.toNat) (hshift : shift.toNat + 7 * left ≤ 35) :
    prefixLoop val shift i left data =
      (Varint.scan left data).map fun n =>
        (UInt32.ofNat (val.toNat + Varint.value (data.take n) * 2 ^ shift.toNat), i + n) := by
  induction left generalizing val shift i data with
  | zero => rfl
  | succ left ih =>
      cases data with
      | nil => rfl
      | cons b data =>
          have hs : shift.toNat < 32 := by omega
          have hmask : (b.toUInt32 &&& 0x7f).toNat = b.toNat % 128 := by
            rw [UInt32.toNat_and, UInt8.toNat_toUInt32]
            exact Nat.and_two_pow_sub_one_eq_mod _ 7
          by_cases hb : b.toNat < 128
          · have hand := (and_0x80_eq_zero_iff b).2 hb
            rw [prefixLoop, Varint.scan, if_pos hb]
            simp only [if_pos hand, Option.map_some]
            rw [or_shiftLeft_eq hval hs, hmask, value_take_one]
          · have hand : ¬ b &&& 0x80 = 0 := fun h => hb ((and_0x80_eq_zero_iff b).1 h)
            have hnew := group_lt hval hs (x := b.toUInt32 &&& 0x7f) (by omega)
            have hleft : (shift + 7).toNat + 7 * left ≤ 35 := by
              rw [toNat_shift_add hs]
              omega
            rw [prefixLoop, Varint.scan, if_neg hb]
            simp only [if_neg hand]
            rw [ih (i + 1) data hnew hleft, Option.map_map]
            congr 1
            funext n
            refine Prod.ext ?_ (by simp only [Function.comp_apply]; omega)
            rw [Function.comp_apply, List.take_succ_cons, Varint.value_cons, ← hmask]
            exact group_value hval hs _

/-- The head of a record, read back. -/
theorem parseTagAndWiretype_encode {id : UInt32} {wireType : UInt8} (hid : id ≠ 0)
    (hw : wireType.toNat < 8) (rest : List UInt8) :
    parseTagAndWiretype (Varint.encode (8 * id.toNat + wireType.toNat) ++ rest) =
      some { used := (Varint.encode (8 * id.toNat + wireType.toNat)).length, tag := id
             wireType := wireType } := by
  have hpos : id.toNat ≠ 0 := fun h => hid (UInt32.toNat_inj.1 h)
  have hlt := id.toNat_lt
  by_cases hsmall : 8 * id.toNat + wireType.toNat < 128
  · rw [Varint.encode_of_lt hsmall, List.singleton_append, parseTagAndWiretype]
    have hb : (UInt8.ofNat (8 * id.toNat + wireType.toNat)).toNat =
        8 * id.toNat + wireType.toNat := by
      rw [UInt8.toNat_ofNat']
      omega
    generalize UInt8.ofNat (8 * id.toNat + wireType.toNat) = b at hb
    have h8 : ¬ b &&& 0xf8 = 0 := by
      rw [and_0xf8_eq_zero_iff]
      omega
    have h80 : b &&& 0x80 = 0 := by
      rw [and_0x80_eq_zero_iff]
      omega
    have htag : ((b &&& 0x7f) >>> 3).toUInt32 = id := by
      apply UInt32.toNat_inj.1
      rw [UInt8.toNat_toUInt32, toNat_shiftRight_3]
      omega
    have hwire : b &&& 7 = wireType := by
      apply UInt8.toNat_inj.1
      rw [toNat_and_7]
      omega
    simp only [if_neg h8, if_pos h80, htag, hwire, List.length_singleton]
  · rw [Varint.encode_of_le (by omega), List.cons_append, parseTagAndWiretype]
    generalize hn : 8 * id.toNat + wireType.toNat = n at hsmall
    have hb : (UInt8.ofNat (n % 128 + 128)).toNat = n % 128 + 128 := by
      rw [UInt8.toNat_ofNat']
      omega
    generalize UInt8.ofNat (n % 128 + 128) = b at hb
    have h8 : ¬ b &&& 0xf8 = 0 := by
      rw [and_0xf8_eq_zero_iff]
      omega
    have h80 : ¬ b &&& 0x80 = 0 := by
      rw [and_0x80_eq_zero_iff]
      omega
    have hstart : ((b &&& 0x7f) >>> 3).toUInt32.toNat = n % 128 / 8 := by
      rw [UInt8.toNat_toUInt32, toNat_shiftRight_3]
      omega
    have hwire : b &&& 7 = wireType := by
      apply UInt8.toNat_inj.1
      rw [toNat_and_7]
      omega
    have hshort : (Varint.encode (n / 128)).length ≤ 4 :=
      (Varint.length_encode_le_iff _ 3).2 (by omega)
    have hscan := Varint.scan_encode_append hshort rest
    have hlow : ((b &&& 0x7f) >>> 3).toUInt32.toNat < 2 ^ (4 : UInt32).toNat := by
      rw [hstart]
      show _ < 2 ^ 4
      omega
    have hroom : (4 : UInt32).toNat + 7 * 4 ≤ 32 := by decide
    have hloop := parseTagLoop_eq 1 (Varint.encode (n / 128) ++ rest) hlow hroom
    rw [hscan] at hloop
    simp only [if_neg h8, if_neg h80, hloop, Option.map_some, hwire, List.take_left',
      Varint.value_encode, hstart, List.length_cons]
    have htag : UInt32.ofNat (n % 128 / 8 + n / 128 * 2 ^ (4 : UInt32).toNat) = id := by
      apply UInt32.toNat_inj.1
      rw [UInt32.toNat_ofNat']
      show (n % 128 / 8 + n / 128 * 2 ^ 4) % 2 ^ 32 = _
      omega
    rw [htag, Nat.add_comm 1]

/-- A tag takes bytes of the input, and its wire type is one of eight. -/
theorem parseTagAndWiretype_bounds {data : List UInt8} {r : TagAndWiretype}
    (h : parseTagAndWiretype data = some r) :
    0 < r.used ∧ r.used ≤ data.length ∧ r.wireType.toNat < 8 := by
  cases data with
  | nil => cases h
  | cons b data =>
      have hwire : (b &&& 7).toNat < 8 := by
        rw [toNat_and_7]
        omega
      rw [parseTagAndWiretype] at h
      split at h
      · cases h
      split at h
      · cases h
        exact ⟨Nat.one_pos, by simp, hwire⟩
      · obtain ⟨p, hp, rfl⟩ := Option.map_eq_some_iff.1 h
        have hstart : ((b &&& 0x7f) >>> 3).toUInt32.toNat < 2 ^ (4 : UInt32).toNat := by
          rw [UInt8.toNat_toUInt32, toNat_shiftRight_3]
          show _ < 2 ^ 4
          omega
        rw [parseTagLoop_eq 1 data hstart (by decide)] at hp
        obtain ⟨n, hn, rfl⟩ := Option.map_eq_some_iff.1 hp
        have hbounds := Varint.scan_bounds hn
        simp only [List.length_cons]
        exact ⟨by omega, by omega, hwire⟩

/-- The length in front is the number its bytes hold, and that many bytes follow. -/
theorem scanLengthPrefixedData_eq_some_iff {data : List UInt8} {n p : ℕ} :
    scanLengthPrefixedData data = some (n, p) ↔
      Varint.scan 5 data = some p ∧
      n = p + (UInt32.ofNat (Varint.value (data.take p))).toNat ∧
      (UInt32.ofNat (Varint.value (data.take p))).toNat ≤ INT_MAX ∧ n ≤ data.length := by
  have hzero : (0 : UInt32).toNat = 0 := rfl
  rw [scanLengthPrefixedData, prefixLoop_eq 0 data (by decide) (by decide)]
  simp only [hzero, Nat.zero_add, pow_zero, Nat.mul_one]
  constructor
  · intro h
    obtain ⟨r, hr, h⟩ := Option.bind_eq_some_iff.1 h
    obtain ⟨k, hk, rfl⟩ := Option.map_eq_some_iff.1 hr
    simp only at h
    split at h
    · cases h
    · rename_i hmax
      split at h
      · cases h
      · rename_i hlen
        cases h
        exact ⟨hk, rfl, by omega, by omega⟩
  · rintro ⟨hscan, rfl, hmax, hlen⟩
    rw [hscan]
    simp only [Option.map_some, Option.bind_some]
    rw [if_neg (by omega), if_neg (by omega)]

/-- A length and as many bytes, read back. -/
theorem scanLengthPrefixedData_encode {body : List UInt8} (h : body.length ≤ INT_MAX)
    (rest : List UInt8) :
    scanLengthPrefixedData (Varint.encode body.length ++ body ++ rest) =
      some ((Varint.encode body.length).length + body.length,
        (Varint.encode body.length).length) := by
  have hmax : INT_MAX = 2147483647 := rfl
  have hval : (UInt32.ofNat body.length).toNat = body.length := by
    rw [UInt32.toNat_ofNat']
    omega
  rw [scanLengthPrefixedData_eq_some_iff, List.append_assoc, List.take_left',
    Varint.value_encode, hval]
  · exact ⟨Varint.scan_encode_append ((Varint.length_encode_le_iff _ 4).2 (by omega)) _, rfl, h,
      by simp only [List.length_append]; omega⟩
  · rfl

/-- One more group of a number whose lower groups have been read. -/
theorem or_group {acc shift : UInt32} {v s : ℕ} (hacc : acc = UInt32.ofNat v) (hv : v < 2 ^ s)
    (hshift : shift.toNat = s) (hs : s < 32) (b : UInt8) :
    acc ||| (b &&& 0x7f).toUInt32 <<< shift = UInt32.ofNat (v + b.toNat % 128 * 2 ^ s) := by
  have hv32 : 2 ^ s ≤ 2 ^ 31 := Nat.pow_le_pow_right (by decide) (by omega)
  have hnat : acc.toNat = v := by
    rw [hacc, UInt32.toNat_ofNat']
    omega
  rw [or_shiftLeft_eq (by rw [hnat, hshift]; exact hv) (by omega), hnat, hshift,
    UInt8.toNat_toUInt32, toNat_and_0x7f]

theorem parseUint32_eq (data : List UInt8) :
    parseUint32 data = UInt32.ofNat (Varint.value data) := by
  have hfirst : ∀ b : UInt8, (b &&& 0x7f).toUInt32 = UInt32.ofNat (b.toNat % 128) := by
    intro b
    apply UInt32.toNat_inj.1
    rw [UInt8.toNat_toUInt32, toNat_and_0x7f, UInt32.toNat_ofNat']
    omega
  have seven : (7 : UInt32).toNat = 7 ∧ 7 < 32 := by decide
  have fourteen : (14 : UInt32).toNat = 14 ∧ 14 < 32 := by decide
  have twentyOne : (21 : UInt32).toNat = 21 ∧ 21 < 32 := by decide
  -- one case for each number of bytes the nested tests tell apart
  rcases data with _ | ⟨a, _ | ⟨b, _ | ⟨c, _ | ⟨d, _ | ⟨e, data⟩⟩⟩⟩⟩
  · rfl
  · simp [parseUint32, hfirst]
  all_goals
    have h7 := or_group (hfirst a) (by omega : a.toNat % 128 < 2 ^ 7) seven.1 seven.2 b
  · simp only [parseUint32, List.length_cons, List.length_nil, List.getD_cons_zero,
      List.getD_cons_succ]
    rw [if_pos (by omega), if_neg (by omega), h7]
    congr 1
    simp only [Varint.value_cons, Varint.value_nil]
    omega
  all_goals
    have h14 := or_group h7 (by omega : _ < 2 ^ 14) fourteen.1 fourteen.2 c
  · simp only [parseUint32, List.length_cons, List.length_nil, List.getD_cons_zero,
      List.getD_cons_succ]
    rw [if_pos (by omega), if_pos (by omega), if_neg (by omega), h14]
    congr 1
    simp only [Varint.value_cons, Varint.value_nil]
    omega
  all_goals
    have h21 := or_group h14 (by omega : _ < 2 ^ 21) twentyOne.1 twentyOne.2 d
  · simp only [parseUint32, List.length_cons, List.length_nil, List.getD_cons_zero,
      List.getD_cons_succ]
    rw [if_pos (by omega), if_pos (by omega), if_pos (by omega), if_neg (by omega), h21]
    congr 1
    simp only [Varint.value_cons, Varint.value_nil]
    omega
  · -- the fifth byte is not masked: its top bits fall out of the word
    have hlt : (UInt32.ofNat (a.toNat % 128 + b.toNat % 128 * 2 ^ 7 + c.toNat % 128 * 2 ^ 14 +
        d.toNat % 128 * 2 ^ 21)).toNat = a.toNat % 128 + b.toNat % 128 * 2 ^ 7 +
        c.toNat % 128 * 2 ^ 14 + d.toNat % 128 * 2 ^ 21 := by
      rw [UInt32.toNat_ofNat']
      omega
    have hlow : (UInt32.ofNat (a.toNat % 128 + b.toNat % 128 * 2 ^ 7 + c.toNat % 128 * 2 ^ 14 +
        d.toNat % 128 * 2 ^ 21)).toNat < 2 ^ (28 : UInt32).toNat := by
      rw [hlt]
      show _ < 2 ^ 28
      omega
    have h28 := or_shiftLeft_eq (x := e.toUInt32) hlow (by decide)
    simp only [parseUint32, List.length_cons, List.getD_cons_zero, List.getD_cons_succ]
    rw [if_pos (by omega), if_pos (by omega), if_pos (by omega), if_pos (by omega), h21, h28,
      hlt, UInt8.toNat_toUInt32]
    apply UInt32.toNat_inj.1
    rw [UInt32.toNat_ofNat', UInt32.toNat_ofNat']
    show (_ + e.toNat * 2 ^ 28) % 2 ^ 32 = _
    simp only [Varint.value_cons]
    omega

end Reading

end Protobuf

end EspHosted
