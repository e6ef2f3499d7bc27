import EspHosted.Lib.Word

/-!
# The byte order of the network

`hton_short` and `hton_long` of `common.c` on a little-endian machine, under which
names `ntoh_short` and `ntoh_long` go, too.
-/

namespace EspHosted

open EspHosted.Bytes

namespace Common

/-- `hton_short` -/
def htonShort (x : UInt16) : UInt16 :=
  let val := (x &&& 0x00FF) <<< 8
  let val := val ||| ((x &&& 0xFF00) >>> 8)
  val

/-- `hton_long` -/
def htonLong (x : UInt32) : UInt32 :=
  let val := (x &&& 0xFF000000) >>> 24
  let val := val ||| ((x &&& 0x00FF0000) >>> 8)
  let val := val ||| ((x &&& 0x0000FF00) <<< 8)
  let val := val ||| ((x &&& 0x000000FF) <<< 24)
  val

theorem toNat_htonShort (x : UInt16) :
    (htonShort x).toNat = x.toNat / 2 ^ 8 + x.toNat % 256 * 2 ^ 8 := by
  have hx : x.toNat < 2 ^ 16 := x.toNat_lt
  have h1 : (x.toNat &&& 0xFF00) >>> 8 = x.toNat / 2 ^ 8 := by
    rw [show x.toNat &&& 0xFF00 = _ from and_mask x.toNat 8, Nat.shiftRight_eq_div_pow,
      Nat.shiftLeft_eq]
    omega
  have h0 : (x.toNat &&& 0x00FF) <<< 8 % 2 ^ 16 = (x.toNat % 256) <<< 8 := by
    rw [show x.toNat &&& 0x00FF = _ from Nat.and_two_pow_sub_one_eq_mod x.toNat 8,
      Nat.shiftLeft_eq]
    omega
  have hval : (htonShort x).toNat =
      (x.toNat &&& 0x00FF) <<< 8 % 2 ^ 16 ||| (x.toNat &&& 0xFF00) >>> 8 := by
    simp [htonShort]
  rw [hval, h1, h0, Nat.or_comm]
  exact or_shiftLeft (by omega) _

/-- In memory, the converted halfword stands in network order. -/
theorem le16Bytes_htonShort (x : UInt16) : le16Bytes (htonShort x) = be16Bytes x := by
  have hx : x.toNat < 2 ^ 16 := x.toNat_lt
  have hval : htonShort x = le16 (highByte x) (lowByte x) := by
    rw [← UInt16.toNat_inj, toNat_htonShort, toNat_le16, toNat_highByte, toNat_lowByte]
    omega
  simp [hval, le16Bytes, be16Bytes]

@[simp] theorem htonShort_htonShort (x : UInt16) : htonShort (htonShort x) = x := by
  apply le16Bytes_injective
  calc
    le16Bytes (htonShort (htonShort x)) = (le16Bytes (htonShort x)).reverse :=
      le16Bytes_htonShort (htonShort x)
    _ = le16Bytes x := by
      rw [le16Bytes_htonShort]
      rfl

theorem toNat_htonLong (x : UInt32) :
    (htonLong x).toNat = x.toNat / 2 ^ 24 + x.toNat / 2 ^ 16 % 256 * 2 ^ 8 +
      x.toNat / 2 ^ 8 % 256 * 2 ^ 16 + x.toNat % 256 * 2 ^ 24 := by
  have hx : x.toNat < 2 ^ 32 := x.toNat_lt
  have h3 : (x.toNat &&& 0xFF000000) >>> 24 = x.toNat / 2 ^ 24 := by
    rw [show x.toNat &&& 0xFF000000 = _ from and_mask x.toNat 24, Nat.shiftRight_eq_div_pow,
      Nat.shiftLeft_eq]
    omega
  have h2 : (x.toNat &&& 0x00FF0000) >>> 8 = (x.toNat / 2 ^ 16 % 256) <<< 8 := by
    rw [show x.toNat &&& 0x00FF0000 = _ from and_mask x.toNat 16, Nat.shiftRight_eq_div_pow,
      Nat.shiftLeft_eq, Nat.shiftLeft_eq]
    omega
  have h1 : (x.toNat &&& 0x0000FF00) <<< 8 % 2 ^ 32 = (x.toNat / 2 ^ 8 % 256) <<< 16 := by
    rw [show x.toNat &&& 0x0000FF00 = _ from and_mask x.toNat 8, Nat.shiftLeft_eq,
      Nat.shiftLeft_eq, Nat.shiftLeft_eq]
    omega
  have h0 : (x.toNat &&& 0x000000FF) <<< 24 % 2 ^ 32 = (x.toNat % 256) <<< 24 := by
    rw [show x.toNat &&& 0x000000FF = _ from Nat.and_two_pow_sub_one_eq_mod x.toNat 8,
      Nat.shiftLeft_eq]
    omega
  have hval : (htonLong x).toNat = (x.toNat &&& 0xFF000000) >>> 24 |||
      (x.toNat &&& 0x00FF0000) >>> 8 ||| (x.toNat &&& 0x0000FF00) <<< 8 % 2 ^ 32 |||
      (x.toNat &&& 0x000000FF) <<< 24 % 2 ^ 32 := by
    simp [htonLong]
  rw [hval, h3, h2, h1, h0]
  exact or_bytes (by omega) (by omega) (by omega) _

/-- The bytes of a word are taken in the opposite order. -/
theorem htonLong_eq (x : UInt32) :
    htonLong x = le32 (byteOf x 3) (byteOf x 2) (byteOf x 1) (byteOf x 0) := by
  have hx : x.toNat < 4294967296 := x.toNat_lt
  rw [← UInt32.toNat_inj, toNat_htonLong, toNat_le32]
  simp only [toNat_byteOf, Nat.reducePow]
  omega

/-- In memory, the converted word stands in network order. -/
theorem le32Bytes_htonLong (x : UInt32) : le32Bytes (htonLong x) = be32Bytes x := by
  rw [htonLong_eq, le32Bytes_le32]
  rfl

@[simp] theorem htonLong_htonLong (x : UInt32) : htonLong (htonLong x) = x := by
  apply le32Bytes_injective
  calc
    le32Bytes (htonLong (htonLong x)) = (le32Bytes (htonLong x)).reverse :=
      le32Bytes_htonLong (htonLong x)
    _ = le32Bytes x := by
      rw [le32Bytes_htonLong]
      rfl

end Common

end EspHosted
