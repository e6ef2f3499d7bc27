import EspHosted.Protobuf.EspHostedConfig

/-!
# The payload that a command gets

`esp_hosted_config_payload__unpack` on any data. The commands read the union of the result
through a member of their own without a look at the case; here is what they rely on: where
the union holds a pointer, the case is the number of a member, and the pointer leads to a
message of the type declared for that member.
-/

namespace EspHosted

open EspHosted.Control

namespace Protobuf

theorem mem_payloadCases (c : PayloadCase) : c ∈ payloadCases := by
  cases c <;> decide

theorem payloadNumber_injective {c c' : PayloadCase} (h : payloadNumber c = payloadNumber c') :
    c = c' := by
  have hall : ∀ c ∈ payloadCases, ∀ c' ∈ payloadCases,
      payloadNumber c = payloadNumber c' → c = c' := by decide +kernel
  exact hall c (mem_payloadCases c) c' (mem_payloadCases c') h

theorem payloadNumber_ne_zero (c : PayloadCase) : payloadNumber c ≠ 0 := by
  cases c <;> decide

/-- The case is found by its number. -/
theorem find?_payloadNumber (c : PayloadCase) :
    payloadCases.find? (fun c' => payloadNumber c' = payloadNumber c) = some c := by
  cases hfind : payloadCases.find? (fun c' => payloadNumber c' = payloadNumber c) with
  | none =>
      have := List.find?_eq_none.1 hfind c (mem_payloadCases c)
      simp at this
  | some c' =>
      have := List.find?_some hfind
      rw [payloadNumber_injective (of_decide_eq_true this)]

theorem mem_fields_payloadField (c : PayloadCase) :
    payloadField c ∈ (espTable .configPayload).fields :=
  List.mem_cons_of_mem _ (List.mem_map_of_mem (mem_payloadCases c))

/-- The fields of the oneof are the members of the union. -/
theorem exists_payloadField {f : FieldDescriptor Descriptor}
    (hf : f ∈ (espTable .configPayload).fields) (ho : f.oneof = true) :
    ∃ c, f = payloadField c := by
  rcases List.mem_cons.1 hf with rfl | hf
  · cases ho
  · obtain ⟨c, -, rfl⟩ := List.mem_map.1 hf
    exact ⟨c, rfl⟩

/-- The union of a payload: not set, or set to a message of the type of its case. -/
inductive Typed (sub : Descriptor → Msg Descriptor 2 → Prop) (m : Msg Descriptor 3) : Prop
  | notSet (h : oneofAt m.body 1 = (0, none))
  | set (c : PayloadCase) (payload : Msg Descriptor 2)
      (h : oneofAt m.body 1 = (payloadNumber c, some payload))
      (hpayload : sub (.struct c.structType) payload)

/-- In a valid payload the union is typed by the case. -/
theorem typed_of_valid {text : List UInt8 → Prop} {tagOk : UInt32 → Prop}
    {m : Msg Descriptor 3} (hm : Msg.Valid text tagOk espTable 3 .configPayload m) :
    Typed (Msg.Valid text tagOk espTable 2) m := by
  obtain ⟨hd, hvalid⟩ := hm
  have hfield : payloadField .cmdGetMacAddress ∈ (espTable (Message.descriptor m)).fields := by
    rw [hd]
    exact mem_fields_payloadField _
  obtain ⟨member, hmember, hv⟩ := hvalid.members _ hfield
  have hget : m.body.members[1]? = some member := hmember
  cases hv with
  | absent _ ho => cases ho
  | present _ ho => cases ho
  | notSet => exact .notSet (by rw [oneofAt, hget])
  | @set g v _ _ hg hgo _ hfits =>
      rw [hd] at hg
      obtain ⟨c, rfl⟩ := exists_payloadField hg hgo
      have htype : (payloadField c).type = .message (.struct c.structType) := rfl
      rw [htype] at hfits
      cases hfits with
      | message hpayload =>
          rename_i payload
          refine .set c payload ?_ hpayload
          rw [oneofAt, hget]
          rfl
  | repeated hl => cases hl

/-- What a command sees of a typed union. -/
theorem payloadOf_of_set {m : Msg Descriptor 3} {c : PayloadCase} {payload : Msg Descriptor 2}
    (h : oneofAt m.body 1 = (payloadNumber c, some payload)) :
    payloadOf m = some { payloadCase := c, contents := contentsOf payload c.structType } := by
  rw [payloadOf, h, Option.bind_some, find?_payloadNumber]
  rfl

theorem payloadOf_of_notSet {m : Msg Descriptor 3} (h : oneofAt m.body 1 = (0, none)) :
    payloadOf m = none := by
  rw [payloadOf, h]
  rfl

/-- Whatever the slave sends: when `esp_hosted_config_payload__unpack` returns a message, the
union is `NULL` and the case is 0, or the case is the number of a member and the union points
to a message of the struct type of that member, itself valid. The command sees that member. -/
theorem unpack_typed {data : List UInt8} {m : Msg Descriptor 3}
    (hm : Msg.unpack espTable 3 .configPayload data = some m) :
    (oneofAt m.body 1 = (0, none) ∧ payloadOf m = none) ∨
    ∃ c payload, oneofAt m.body 1 = (payloadNumber c, some payload) ∧
      payload.body.descriptor = .struct c.structType ∧
      Msg.Valid (fun _ => True) (fun _ => True) espTable 2 (.struct c.structType) payload ∧
      payloadOf m = some { payloadCase := c, contents := contentsOf payload c.structType } := by
  cases typed_of_valid (Msg.valid_of_unpack espTable_wellFormed hm) with
  | notSet h => exact Or.inl ⟨h, payloadOf_of_notSet h⟩
  | set c payload h hpayload =>
      exact Or.inr ⟨c, payload, h, hpayload.1, hpayload, payloadOf_of_set h⟩

/-- A scan list with one entry: the case says so, and the union points to a scan result. -/
theorem unpack_typed_scan_list :
    ∃ m payload, Msg.unpack espTable 3 .configPayload
        [0x08, 19, 0xea, 0x01, 10, 0x08, 1, 0x12, 6, 0x0a, 1, 65, 0x22, 1, 66] = some m ∧
      oneofAt m.body 1 = (payloadNumber .respScanApList, some payload) ∧
      payload.body.descriptor = .struct .respScanResult := by
  have hcase : (Msg.unpack espTable 3 .configPayload
      [0x08, 19, 0xea, 0x01, 10, 0x08, 1, 0x12, 6, 0x0a, 1, 65, 0x22, 1, 66]).map
        (fun m => (oneofAt m.body 1).1) = some (payloadNumber .respScanApList) := by
    decide +kernel
  obtain ⟨m, hm, hnumber⟩ := Option.map_eq_some_iff.1 hcase
  rcases unpack_typed hm with ⟨hzero, -⟩ | ⟨c, payload, hset, hd, -, -⟩
  · rw [hzero] at hnumber
    exact absurd hnumber.symm (payloadNumber_ne_zero _)
  · rw [hset] at hnumber
    cases payloadNumber_injective hnumber
    exact ⟨m, payload, hm, hset, hd⟩

end Protobuf

end EspHosted
