import EspHosted.Control.Platform

/-!
# What `esp_hosted_driver_read` makes of a message

The function copies the first 13 bytes into a block that is no larger than the
message, clears 13 bytes of it, and trusts the length the message declares. It
is sound exactly on the messages that hold a whole header and all the bytes the
header declares, and whose endpoint name, where it is printed because it is not
the own one, ends inside of the block.
-/

namespace EspHosted

open EspHosted.Bytes

namespace Control

/-- `serial_read` hands `m` to the call. -/
structure ReadEnv.Hands (env : ReadEnv) (m : Message) : Prop where
  readSemaphore : env.readSemaphore = true
  osSemaphoreWait : env.osSemaphoreWait = true
  serialRead : ∃ serialHdl, env.serialIfG = some serialHdl ∧
    (serialRead serialHdl).payload = some m

theorem headerCopy_of_le {m : List UInt8} {readLen : ℕ} (h : readLen ≤ m.length) :
    headerCopy m readLen = ({ bytes := m.take readLen, overrun := false }, []) := by
  have hmin : min m.length readLen = readLen := by omega
  rw [headerCopy, hmin]
  simp only [Nat.sub_self, List.replicate_zero, Prod.mk.injEq, and_true]
  rw [Block.calloc_store_of_le (by rw [List.length_replicate])]
  simp only [List.length_replicate, Nat.sub_self, List.replicate_zero, List.append_nil]
  rw [Block.store, patch_replicate]
  simp [h]

/-- The `memset` of `read_len` bytes runs over the end of a shorter copy. -/
theorem overrun_headerCopy {m : List UInt8} {readLen : ℕ} (h : m.length < readLen) :
    (headerCopy m readLen).1.overrun = true := by
  have hmin : min m.length readLen = m.length := by omega
  simp [headerCopy, hmin, Block.store, Block.calloc, h]

theorem loadFrom_of_le {m : List UInt8} {off n : ℕ} (beyond : ℕ → UInt8)
    (h : off + n ≤ m.length) : loadFrom m beyond off n = (m.drop off).take n := by
  apply List.ext_getElem
  · simp only [loadFrom, List.length_map, List.length_range, List.length_take,
      List.length_drop]
    omega
  · intro i hi _
    rw [loadFrom, List.length_map, List.length_range] at hi
    have hlt : off + i < m.length := by omega
    simp [loadFrom, List.getElem?_eq_getElem hlt]

/-- The call on the message it is handed. -/
theorem espHostedDriverRead_of_hands {env : ReadEnv} {m : Message} (henv : env.Hands m)
    {readLen : ℕ} {wait : UInt8} (hlen : readLen ≠ 0) (hwait : wait ≠ 0) :
    ((espHostedDriverRead env readLen wait).overrun = false ↔
      readLen ≤ m.1.length ∧ (parseTlv (m.1.take readLen)).overread = false ∧
        ∀ valLen, (parseTlv (m.1.take readLen)).proLen = some valLen →
          readLen + valLen.toNat ≤ m.1.length) ∧
    (readLen ≤ m.1.length →
      (espHostedDriverRead env readLen wait).buf =
        (parseTlv (m.1.take readLen)).proLen.map fun valLen =>
          loadFrom m.1 env.beyond readLen valLen.toNat) ∧
    (readLen ≤ m.1.length →
      (espHostedDriverRead env readLen wait).bufLen =
        (parseTlv (m.1.take readLen)).proLen) := by
  obtain ⟨serialHdl, hserial, hread⟩ := henv.serialRead
  have hcall : ¬ (readLen = 0 ∨ wait = 0) := by
    intro h
    exact h.elim hlen hwait
  simp only [espHostedDriverRead, hcall, henv.readSemaphore, henv.osSemaphoreWait, hserial,
    hread, if_false, Bool.true_eq_false]
  by_cases hm : readLen ≤ m.1.length
  · rw [headerCopy_of_le hm, List.append_nil]
    cases hparse : (parseTlv (m.1.take readLen)).proLen with
    | none => simp [hm]
    | some valLen => simp [hm]
  · have hover := overrun_headerCopy (m := m.1) (Nat.lt_of_not_le hm)
    refine ⟨?_, fun h => absurd h hm, fun h => absurd h hm⟩
    cases hparse : (parseTlv ((headerCopy m.1 readLen).1.bytes ++
        (headerCopy m.1 readLen).2)).proLen with
    | none => simp [hover, hm]
    | some valLen => simp [hover, hm]

theorem parseTlv_take_eq_some_iff {m : List UInt8} (h : tlvHeaderLength ≤ m.length)
    (valLen : UInt16) :
    (parseTlv (m.take tlvHeaderLength)).proLen = some valLen ↔
      m.take tlvHeaderLength = tlvHeader valLen := by
  have hlen : (m.take tlvHeaderLength).length = tlvHeaderLength := by
    rw [List.length_take]
    omega
  rw [parseTlv_eq_some_iff hlen.ge, List.take_take, Nat.min_self]

/-- `parse_tlv` stays in the block exactly when the name it prints ends there. -/
theorem overread_parseTlv_take_iff {m : List UInt8} (h : tlvHeaderLength ≤ m.length) :
    (parseTlv (m.take tlvHeaderLength)).overread = false ↔
      (m.take 3 = [0x01, 0x07, 0x00] → (m.drop 3).take epName.length ≠ epName →
        0 ∈ (m.take tlvHeaderLength).drop 3) := by
  have hlen : (m.take tlvHeaderLength).length = tlvHeaderLength := by
    rw [List.length_take]
    omega
  have hstart : (m.take tlvHeaderLength).take 3 = m.take 3 := by
    rw [List.take_take]
    rfl
  have hname : ((m.take tlvHeaderLength).drop 3).take epName.length =
      (m.drop 3).take epName.length := by
    rw [List.drop_take, List.take_take]
    rfl
  have hepname : (tlvHeader 0).take 3 = [0x01, 0x07, 0x00] := by decide
  rw [← Bool.not_eq_true, overread_parseTlv_iff hlen.ge, hstart, hname, hepname]
  simp only [not_and, not_not]

/-- The serial interface of the station holds the one message `m`. -/
def envWith (m : Message) : ReadEnv where
  readSemaphore := true
  osSemaphoreWait := true
  serialIfG := some { ifType := 2, ifNum := 0, state := .ACTIVE, queue := [m] }
  beyond := fun _ => 0xAA

theorem envWith_hands {m : Message} (h : m.1.length ≠ 0) : (envWith m).Hands m := by
  refine ⟨rfl, rfl, _, rfl, ?_⟩
  exact if_neg h

def oneByteMessage : Message := ⟨tlvHeader 1 ++ [65], by decide⟩

def threeByteMessage : Message := ⟨tlvHeader 3 ++ [97, 98, 99], by decide⟩

end Control

end EspHosted
