import EspHosted.Common.Ipv4

/-!
# IPv4 addresses to text and back

`ipv4AddrNtoa` writes the four bytes of an address in decimal, each followed by a dot, and
puts the NUL in the place of the last dot. Before every byte it writes it compares `len`
with the size of the buffer. `dottedText` is the text it is to write; the numerals of the
text are those that `ipv4AddrAton` reads.
-/

namespace EspHosted

namespace Common

open EspHosted.Bytes

/-- What has been written to the buffer, and the counter `len`. -/
structure Output where
  len : ℕ
  written : List UInt8

/-- `if (len++ >= buflen) return NULL; *rp++ = c;`, the return as an error. -/
def emit (buflen : ℤ) (o : Output) (c : UInt8) : Except Output Output :=
  if (o.len : ℤ) ≥ buflen then .error { o with len := o.len + 1 }
  else .ok { len := o.len + 1, written := o.written ++ [c] }

/-- The digits that the `do` loop puts into `inv`. -/
def invDigits (ap : UInt8) : List UInt8 :=
  let rem := ap % 10
  (48 + rem) :: if h : ap / 10 = 0 then [] else invDigits (ap / 10)
  termination_by ap.toNat
  decreasing_by
    rw [← UInt8.toNat_inj, UInt8.toNat_div] at h
    simp only [UInt8.reduceToNat] at h
    rw [UInt8.toNat_div]
    simp only [UInt8.reduceToNat]
    omega

/-- One byte of the address, and the dot behind it. -/
def ntoaByte (buflen : ℤ) (o : Output) (ap : UInt8) : Except Output Output :=
  match (invDigits ap).reverse.foldlM (emit buflen) o with
  | .error o => .error o
  | .ok o => emit buflen o 46

/-- Whether `ipv4_addr_ntoa` returns `buf`, and what it has written there. -/
structure NtoaResult where
  ret : Bool
  buf : List UInt8

/-- `ipv4_addr_ntoa` -/
def ipv4AddrNtoa (addr : UInt32) (buflen : ℤ) : NtoaResult :=
  let addrNw := htonLong addr
  match (le32Bytes addrNw).foldlM (ntoaByte buflen) { len := 0, written := [] } with
  | .error o => { ret := false, buf := o.written }
  | .ok o => { ret := true, buf := o.written.dropLast ++ [0] }

/-- The text of an address: its bytes in decimal, the most significant one first. -/
def dottedText (x : UInt32) : List UInt8 :=
  List.intercalate [46] ((be32Bytes x).map fun b => decimalText b.toNat)

section Digits

theorem toNat_div_ten (ap : UInt8) : (ap / 10).toNat = ap.toNat / 10 := by
  rw [UInt8.toNat_div]
  rfl

theorem digit_mod_ten (ap : UInt8) : 48 + ap % 10 = UInt8.ofNat (48 + ap.toNat % 10) := by
  rw [← UInt8.toNat_inj, toNat_digit (Nat.mod_lt _ (by decide)), UInt8.toNat_add,
    UInt8.toNat_mod]
  simp only [UInt8.reduceToNat]
  omega

/-- The digits come out of the loop in the opposite order. -/
theorem invDigits_reverse (ap : UInt8) : (invDigits ap).reverse = decimalText ap.toNat := by
  induction ap using invDigits.induct with
  | case1 ap ih =>
      have hzero : ap / 10 = 0 ↔ ap.toNat < 10 := by
        rw [← UInt8.toNat_inj, toNat_div_ten]
        exact Nat.div_eq_zero_iff_lt (by decide)
      by_cases h : ap / 10 = 0
      · have hlt := hzero.1 h
        rw [invDigits, dif_pos h, decimalText_of_lt hlt]
        simp only [digit_mod_ten, Nat.mod_eq_of_lt hlt]
        rfl
      · have hle : 10 ≤ ap.toNat := Nat.not_lt.1 fun hlt => h (hzero.2 hlt)
        rw [invDigits, dif_neg h, List.reverse_cons, ih h, toNat_div_ten, decimalText_of_le hle]
        simp only [digit_mod_ten]

/-- `inv` has room for the digits. -/
theorem length_invDigits_le (ap : UInt8) : (invDigits ap).length ≤ 3 := by
  have hlt : ap.toNat < 256 := ap.toNat_lt
  rw [← List.length_reverse, invDigits_reverse, decimalText, List.length_map,
    Nat.length_toDigits_le_iff (by decide) (by decide)]
  omega

end Digits

section Emit

variable {buflen : ℤ}

/-- The bytes of the text, with a dot behind each number. -/
def emitted (aps : List UInt8) : List UInt8 :=
  aps.flatMap fun ap => decimalText ap.toNat ++ [46]

theorem foldlM_ntoaByte (aps : List UInt8) (o : Output) :
    aps.foldlM (ntoaByte buflen) o = (emitted aps).foldlM (emit buflen) o := by
  induction aps generalizing o with
  | nil => rfl
  | cons ap aps ih =>
      rw [emitted, List.flatMap_cons, List.foldlM_append, List.foldlM_append, List.foldlM_cons,
        ntoaByte, invDigits_reverse]
      cases (decimalText ap.toNat).foldlM (emit buflen) o with
      | error o => rfl
      | ok o =>
          cases hdot : emit buflen o 46 with
          | error o' => simp [hdot, bind, Except.bind]
          | ok o' =>
              have htail := ih o'
              rw [emitted] at htail
              simpa [hdot, bind, Except.bind, pure, Except.pure] using htail

theorem emit_of_lt {o : Output} (h : (o.len : ℤ) < buflen) (c : UInt8) :
    emit buflen o c = .ok { len := o.len + 1, written := o.written ++ [c] } :=
  if_neg (Int.not_le.2 h)

theorem emit_of_le {o : Output} (h : buflen ≤ (o.len : ℤ)) (c : UInt8) :
    emit buflen o c = .error { o with len := o.len + 1 } :=
  if_pos h

/-- What fits is written. -/
theorem foldlM_emit_of_le (l : List UInt8) {o : Output} (h : (o.len : ℤ) + l.length ≤ buflen) :
    l.foldlM (emit buflen) o =
      .ok { len := o.len + l.length, written := o.written ++ l } := by
  induction l generalizing o with
  | nil => simp [pure, Except.pure]
  | cons c l ih =>
      rw [List.length_cons, Int.natCast_succ] at h
      have hlt : (o.len : ℤ) < buflen := by omega
      rw [List.foldlM_cons, emit_of_lt hlt]
      change l.foldlM (emit buflen) _ = _
      rw [ih]
      · simp
        omega
      · simp
        omega

/-- Otherwise the buffer is filled, and no more. -/
theorem foldlM_emit_of_lt (l : List UInt8) {o : Output} (hne : l ≠ [])
    (h : buflen < (o.len : ℤ) + l.length) (hlen : o.len = o.written.length)
    (hfit : o.len ≤ buflen.toNat) :
    ∃ o', l.foldlM (emit buflen) o = .error o' ∧ o'.written.length ≤ buflen.toNat := by
  induction l generalizing o with
  | nil => exact absurd rfl hne
  | cons c l ih =>
      by_cases hlt : (o.len : ℤ) < buflen
      · rw [List.foldlM_cons, emit_of_lt hlt]
        change ∃ o', l.foldlM (emit buflen) _ = _ ∧ _
        rw [List.length_cons, Int.natCast_succ] at h
        apply ih
        · rintro rfl
          simp only [List.length_nil] at h
          omega
        · simp only
          omega
        · simp [hlen]
        · simp only
          omega
      · rw [List.foldlM_cons, emit_of_le (Int.not_lt.1 hlt)]
        rw [hlen] at hfit
        exact ⟨_, rfl, hfit⟩

end Emit

section Text

/-- The text is what the loop writes, but for the last dot. -/
theorem emitted_be32Bytes (x : UInt32) : emitted (be32Bytes x) = dottedText x ++ [46] := by
  simp [emitted, dottedText, be32Bytes, List.intercalate]

/-- What is printed for `x` into a buffer of `buflen` bytes. -/
structure Prints (x : UInt32) (buflen : ℤ) (r : NtoaResult) : Prop where
  bounded : r.buf.length ≤ buflen.toNat
  null : r.ret = false ↔ buflen < (dottedText x).length + 1
  text : r.ret → r.buf = dottedText x ++ [0]

theorem prints_ipv4AddrNtoa (x : UInt32) (buflen : ℤ) :
    Prints x buflen (ipv4AddrNtoa x buflen) := by
  have hloop : (le32Bytes (htonLong x)).foldlM (ntoaByte buflen) { len := 0, written := [] } =
      (dottedText x ++ [46]).foldlM (emit buflen) { len := 0, written := [] } := by
    rw [le32Bytes_htonLong, foldlM_ntoaByte, emitted_be32Bytes]
  have hlength : ((dottedText x ++ [46]).length : ℤ) = (dottedText x).length + 1 := by
    rw [List.length_append]
    rfl
  by_cases hfits : buflen < (dottedText x).length + 1
  · have hfull : buflen < ((0 : ℕ) : ℤ) + (dottedText x ++ [46]).length := by
      rw [hlength]
      simpa using hfits
    have hne : dottedText x ++ [46] ≠ [] := by simp
    obtain ⟨o, herror, hbound⟩ := foldlM_emit_of_lt (dottedText x ++ [46])
      (o := { len := 0, written := [] }) hne hfull rfl (Nat.zero_le _)
    have hntoa : ipv4AddrNtoa x buflen = { ret := false, buf := o.written } := by
      simp only [ipv4AddrNtoa, hloop, herror]
    rw [hntoa]
    constructor
    · exact hbound
    · simp [hfits]
    · intro hret
      exact absurd hret Bool.false_ne_true
  · have hroom : ((0 : ℕ) : ℤ) + (dottedText x ++ [46]).length ≤ buflen := by
      rw [hlength]
      simpa using hfits
    have hok := foldlM_emit_of_le (dottedText x ++ [46]) (o := { len := 0, written := [] }) hroom
    have hntoa : ipv4AddrNtoa x buflen = { ret := true, buf := dottedText x ++ [0] } := by
      simp only [ipv4AddrNtoa, hloop, hok, List.nil_append, List.dropLast_concat]
    rw [hntoa]
    constructor
    · simp only [List.length_append, List.length_singleton]
      omega
    · simp [hfits]
    · intro _
      rfl

theorem length_dottedText_le (x : UInt32) : (dottedText x).length ≤ 15 := by
  have hdigits : ∀ b : UInt8, (decimalText b.toNat).length ≤ 3 := by
    intro b
    rw [← invDigits_reverse, List.length_reverse]
    exact length_invDigits_le b
  have h3 := hdigits (byteOf x 3)
  have h2 := hdigits (byteOf x 2)
  have h1 := hdigits (byteOf x 1)
  have h0 := hdigits (byteOf x 0)
  simp only [dottedText, be32Bytes, List.intercalate, List.map_cons, List.map_nil,
    List.intersperse, List.flatten_cons, List.flatten_nil, List.length_append, List.length_cons,
    List.length_nil]
  omega

/-- `display_arp` passes 20 for the size of a buffer of 16 bytes; no text is longer. -/
theorem length_ipv4AddrNtoa_le (x : UInt32) {buflen : ℤ} (h : 16 ≤ buflen) :
    (ipv4AddrNtoa x buflen).buf.length ≤ 16 := by
  have hprints := prints_ipv4AddrNtoa x buflen
  have hlength := length_dottedText_le x
  have hret : (ipv4AddrNtoa x buflen).ret := by
    cases hnull : (ipv4AddrNtoa x buflen).ret with
    | true => rfl
    | false =>
        have hlt := hprints.null.1 hnull
        omega
  rw [hprints.text hret, List.length_append, List.length_singleton]
  omega

theorem spells_dottedText (x : UInt32) {rest : List UInt8} (h : Ends rest) :
    Spells (dottedText x ++ rest) ((be32Bytes x).map fun b => Numeral.ofNat b.toNat) rest where
  text := by simp [dottedText, dotted, be32Bytes, List.intercalate, Numeral.text_ofNat]
  nonempty := List.cons_ne_nil _ _
  scanned := by
    intro n hn
    obtain ⟨b, -, rfl⟩ := List.mem_map.1 hn
    exact Numeral.scanned_ofNat b.toNat
  ends := h

theorem address_be32Bytes (x : UInt32) :
    address ((be32Bytes x).map UInt8.toNat) = some x.toNat := by
  have hx : x.toNat < 4294967296 := x.toNat_lt
  have hle : ∀ b : UInt8, b.toNat ≤ 0xff := fun b => Nat.le_of_lt_succ b.toNat_lt
  have hsum : (byteOf x 3).toNat * 2 ^ 24 + (byteOf x 2).toNat * 2 ^ 16 +
      (byteOf x 1).toNat * 2 ^ 8 + (byteOf x 0).toNat = x.toNat := by
    simp only [toNat_byteOf, Nat.reducePow]
    omega
  rw [← hsum]
  exact if_pos ⟨hle _, hle _, hle _, hle _⟩

/-- The text of an address is read as that address. -/
theorem getIpaddrFromStr_dottedText (x : UInt32) {rest : List UInt8} (h : Ends rest) :
    getIpaddrFromStr (dottedText x ++ rest) = (.STM_OK, some x) := by
  have hvalue : ((be32Bytes x).map fun b => Numeral.ofNat b.toNat).map
      (fun n => (scanned n).toNat) = (be32Bytes x).map UInt8.toNat := by
    rw [List.map_map]
    apply List.map_congr_left
    intro b _
    have hlt : b.toNat < 256 := b.toNat_lt
    simp only [Function.comp, scanned, Numeral.value_ofNat, UInt32.toNat_ofNat']
    omega
  have haton : ipv4AddrAton (dottedText x ++ rest) = atonStore x := by
    rw [ipv4AddrAton_of_spells (spells_dottedText x h), hvalue, address_be32Bytes, atonOf,
      UInt32.ofNat_toNat]
  simp [getIpaddrFromStr, haton, atonStore]

/-- The text of an address is printed if there is room for it, and is read back. -/
theorem ipv4_text_round_trip (x : UInt32) (buflen : ℤ) (behind : List UInt8) :
    Prints x buflen (ipv4AddrNtoa x buflen) ∧
      getIpaddrFromStr (dottedText x ++ 0 :: behind) = (.STM_OK, some x) :=
  ⟨prints_ipv4AddrNtoa x buflen, getIpaddrFromStr_dottedText x (Or.inl rfl)⟩

end Text

end Common

end EspHosted
