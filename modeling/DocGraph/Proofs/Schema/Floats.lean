import DocGraph.Proofs.Number.Integer
import DocGraph.Proofs.Schema.RoundTrip
/-!
# Numbers in float fields

A float field holds an integer as an integer as long as 64 bits with a sign suffice, and every other
number as a double.  So all numbers are written as they were read, except for the integers from
2 ^ 63 on, of which the nearest double is written.
-/

namespace DocGraph

open Outcome

def FieldType.isFloats : FieldType → Bool
  | .primitive .float => true
  | .listOf item => item.isFloats
  | _ => false
termination_by structural type => type

theorem Json.Number.isFinite_ofInt {i : Int} (fits : -2 ^ (63 : Nat) ≤ i ∧ i < 2 ^ (64 : Nat)) :
    (Binary64.ofInt i).isFinite = true :=
  Binary64.isFinite_ofInt (by omega)

def Json.Number.widened : Json.Number → Json.Number
  | .integer i fits =>
    if i < 2 ^ (63 : Nat) then .integer i fits
    else .float (Binary64.ofInt i) (isFinite_ofInt fits)
  | .float x finite => .float x finite

/-- A value as it is written by a field that reads its numbers as floats. -/
def FieldType.widened : FieldType → Json → Json
  | .primitive .float, .number number => .number number.widened
  | .listOf item, .array items => .array (items.map fun raw => item.widened raw)
  | _, raw => raw
termination_by structural type => type

inductive Json.HasNumber (number : Json.Number) : Json → Prop
  | self : HasNumber number (.number number)
  | item {items : List Json} {item : Json} (hmem : item ∈ items) (h : HasNumber number item) :
    HasNumber number (.array items)

namespace Json

theorem hasNumber_number_iff {number other : Number} :
    HasNumber number (.number other) ↔ other = number :=
  ⟨fun h => by cases h; rfl, fun heq => heq ▸ .self⟩

theorem hasNumber_array_iff {number : Number} {items : List Json} :
    HasNumber number (.array items) ↔ ∃ item ∈ items, HasNumber number item :=
  ⟨fun h => by cases h with | item hmem h => exact ⟨_, hmem, h⟩,
    fun ⟨_, hmem, h⟩ => .item hmem h⟩

theorem not_hasNumber {number : Number} {raw : Json} (hnumber : ∀ other, raw ≠ .number other)
    (harray : ∀ items, raw ≠ .array items) : ¬raw.HasNumber number := fun h => by
  cases h with
  | self => exact hnumber _ rfl
  | item => exact harray _ rfl

end Json

/-! ## Numbers -/

theorem Json.Number.widened_eq_self_iff {number : Json.Number} :
    number.widened = number ↔ ∀ i fits, number = .integer i fits → i < 2 ^ (63 : Nat) := by
  cases number with
  | integer i fits =>
      rw [widened]
      split
      · rename_i hlt
        refine iff_of_true rfl fun _ _ heq => ?_
        cases heq
        exact hlt
      · rename_i hlt
        exact iff_of_false (by simp) fun h => hlt (h i fits rfl)
  | float x finite => exact iff_of_true rfl fun _ _ heq => Json.Number.noConfusion heq

section

variable [CustomCodecs]

theorem Primitive.toJson_of_decode_float {field other : String} {raw : Json} {value : Value}
    (h : Primitive.float.decode field raw = .ok value) :
    value.toJson other = .ok ((FieldType.primitive .float).widened raw) := by
  cases raw with
  | number number =>
      cases number with
      | integer i fits =>
          by_cases hlt : i < 2 ^ (63 : Nat)
          · have hraw : (Json.number (.integer i fits)).asInt64? = some (Int64.ofInt i) :=
              if_pos hlt
            simp only [Primitive.decode, hraw] at h
            obtain rfl := Except.ok.inj h
            rw [Value.toJson, Json.ofInt64_of_asInt64? hraw, FieldType.widened,
              Json.Number.widened, if_pos hlt]
          · have hraw : (Json.number (.integer i fits)).asInt64? = none := if_neg hlt
            simp only [Primitive.decode, hraw, Json.asFloat?] at h
            obtain rfl := Except.ok.inj h
            rw [Value.toJson, Json.ofFloat, dif_pos (Json.Number.isFinite_ofInt fits),
              FieldType.widened, Json.Number.widened, if_neg hlt]
      | float x finite =>
          simp only [Primitive.decode, Json.asInt64?, Json.asFloat?] at h
          obtain rfl := Except.ok.inj h
          rw [Value.toJson, Json.ofFloat, dif_pos finite]
          rfl
  | null =>
      obtain rfl := Except.ok.inj h
      rfl
  | _ => simp [Primitive.decode, Json.asInt64?, Json.asFloat?] at h

/-! ## Lists of numbers -/

theorem FieldType.decode_null_of_isFloats {type : FieldType} {field : String}
    (h : type.isFloats = true) : type.decode field .null = .ok fun _ => .null := by
  cases type with
  | primitive kind => cases kind <;> simp [isFloats] at h; rfl
  | nested => simp [isFloats] at h
  | listOf => rfl

/-- What is read as floats is written as it was, apart from numbers that were widened. -/
theorem FieldType.toJson_of_decode_floats : ∀ (type : FieldType) {field other : String}
    {raw : Json} {value : Drawn Value}, type.isFloats = true → type.decode field raw = .ok value →
    ∀ moment, (value moment).toJson other = .ok (type.widened raw)
  | .primitive .float, _, _, _, _, _, h, _ => by
      obtain ⟨found, hfound, rfl⟩ := FieldType.decode_primitive_eq_ok_iff.1 h
      exact Primitive.toJson_of_decode_float hfound
  | .listOf item, field, other, raw, _, hfloats, h, moment => by
      obtain ⟨rfl, rfl⟩ | ⟨raws, values, rfl, hvalues, rfl⟩ :=
        FieldType.decode_listOf_eq_ok_iff.1 h
      · rfl
      · have hitem : ∀ raw ∈ raws, ∀ value, item.decode field raw = .ok value →
            ∀ moment, (value moment).toJson other = .ok (item.widened raw) :=
          fun _ _ _ hvalue => FieldType.toJson_of_decode_floats item hfloats hvalue
        have hitems := itemsToJson_of_mapM_decode hvalues hitem moment
        simp [Value.toJson, hitems, FieldType.widened, Drawn.all_map_const]
termination_by structural type => type

/-- Nothing is widened exactly where every integer is below 2 ^ 63. -/
theorem FieldType.widened_eq_self_iff : ∀ (type : FieldType) {field : String} {raw : Json}
    {value : Drawn Value}, type.isFloats = true → type.decode field raw = .ok value →
    (type.widened raw = raw ↔
      ∀ i fits, raw.HasNumber (.integer i fits) → i < 2 ^ (63 : Nat))
  | .primitive .float, _, raw, _, _, h => by
      cases raw with
      | number number =>
          simp only [widened, Json.number.injEq, Json.Number.widened_eq_self_iff,
            Json.hasNumber_number_iff]
      | null =>
          exact iff_of_true rfl fun _ _ h =>
            absurd h (Json.not_hasNumber (by simp) (by simp))
      | _ => simp [decode, Primitive.decode, Json.asInt64?, Json.asFloat?] at h
  | .listOf item, field, raw, _, hfloats, h => by
      obtain ⟨rfl, -⟩ | ⟨raws, values, rfl, hvalues, -⟩ := FieldType.decode_listOf_eq_ok_iff.1 h
      · exact iff_of_true rfl fun _ _ h => absurd h (Json.not_hasNumber (by simp) (by simp))
      · have hitem : ∀ raw ∈ raws, (item.widened raw = raw ↔
            ∀ i fits, raw.HasNumber (.integer i fits) → i < 2 ^ (63 : Nat)) := fun raw hmem => by
          obtain ⟨_, _, hvalue⟩ := exists_result_of_mapM hvalues raw hmem
          exact FieldType.widened_eq_self_iff item hfloats hvalue
        have hmap := List.map_inj_left (l := raws) (f := item.widened) (g := id)
        rw [List.map_id] at hmap
        simp only [widened, Json.array.injEq, hmap, Json.hasNumber_array_iff]
        constructor
        · rintro h i fits ⟨raw, hmem, hnumber⟩
          exact (hitem raw hmem).1 (h raw hmem) i fits hnumber
        · exact fun h raw hmem => (hitem raw hmem).2 fun i fits hnumber =>
            h i fits ⟨raw, hmem, hnumber⟩
termination_by structural type => type

/-! ## Fields -/

/-- What a field of floats reads is written as it was read, but for the integers from 2 ^ 63 on,
of which the nearest double is written: so all of it comes back exactly where none of its numbers is
one of these. -/
theorem FieldSpec.encode_of_loadSlot_floats {field : FieldSpec} {members : Json.Members}
    {raw : Json} {slot : Drawn Slot} (hfloats : field.type.isFloats = true)
    (hcodec : field.codec? = none) (hget : Assoc.get? field.name members = some raw)
    (hload : field.loadSlot members = .ok slot) (moment : Moment) :
    ∃ value, slot moment = .held value ∧ field.encode value = .ok (field.type.widened raw) ∧
      (field.encode value = .ok raw ↔
        ∀ i fits, raw.HasNumber (.integer i fits) → i < 2 ^ (63 : Nat)) := by
  have hdecoded : ∃ value, slot = (fun moment => .held (value moment)) ∧
      field.type.decode field.name raw = .ok value := by
    rcases FieldSpec.loadSlot_cases hload with ⟨hnone, _⟩ | ⟨hnull, _, rfl⟩ |
      ⟨_, value, hsome, _, rfl, hread⟩
    · simp [hget] at hnone
    · obtain rfl := Option.some.inj (hget.symm.trans hnull)
      exact ⟨fun _ => .null, rfl, FieldType.decode_null_of_isFloats hfloats⟩
    · obtain rfl := Option.some.inj (hget.symm.trans hsome)
      rcases hread with ⟨codec, _, hsome, _⟩ | ⟨_, hvalue⟩
      · simp [hcodec] at hsome
      · exact ⟨value, rfl, hvalue⟩
  obtain ⟨value, rfl, hvalue⟩ := hdecoded
  have hencode : field.encode (value moment) = .ok (field.type.widened raw) := by
    rw [FieldSpec.encode, FieldSpec.encodeWith_none hcodec,
      FieldType.toJson_of_decode_floats _ hfloats hvalue]
  refine ⟨value moment, rfl, hencode, ?_⟩
  rw [hencode, Except.ok.injEq, FieldType.widened_eq_self_iff _ hfloats hvalue]

end

attribute [local instance] CustomCodecs.none

/-- The soundings of a survey, the last of them past the range of 64 bits with a sign. -/
theorem FieldSpec.encode_soundings :
    let soundings : FieldSpec :=
      ⟨"soundings", .listOf (.primitive .float), true, none, false, none⟩
    let raw : Json := .array [.number (.integer 12 (by decide)),
      .number (.float ⟨0x4008000000000000⟩ (by decide)),
      .number (.integer 18446744073709551615 (by decide))]
    ∃ value, soundings.loadSlot [("soundings", raw)] = .ok (fun _ => .held value) ∧
      soundings.encode value = .ok (.array [.number (.integer 12 (by decide)),
        .number (.float ⟨0x4008000000000000⟩ (by decide)),
        .number (.float ⟨0x43F0000000000000⟩ (by decide))]) ∧
      soundings.encode value ≠ .ok raw := by
  intro soundings raw
  obtain ⟨value, hslot, hencode, hback⟩ := @FieldSpec.encode_of_loadSlot_floats _ soundings
    [("soundings", raw)] raw _ rfl rfl rfl rfl []
  have hrounded : Binary64.ofInt 18446744073709551615 = ⟨0x43F0000000000000⟩ := by decide +kernel
  refine ⟨value, by rw [← hslot]; rfl, hencode.trans ?_, fun h => ?_⟩
  · simp [soundings, raw, FieldType.widened, Json.Number.widened, hrounded]
  have hlast := hback.1 h 18446744073709551615 (by decide)
    (.item (List.mem_of_getElem? (i := 2) rfl) .self)
  exact absurd hlast (by decide)

/-- The integer 2 ^ 63 is read by a float field, and comes back as a float. -/
theorem FieldSpec.encode_loses_integer :
    ¬∀ (field : FieldSpec) (raw : Json) (value : Value), field.type.isFloats = true →
      field.codec? = none → field.loadSlot [(field.name, raw)] = .ok (fun _ => .held value) →
      field.encode value = .ok raw := by
  intro h
  have hscore := h ⟨"score", .primitive .float, false, none, false, none⟩
    (.number (.integer 9223372036854775808 (by decide))) _ rfl rfl rfl
  simp only [FieldSpec.encode, FieldSpec.encodeWith, Value.toJson, Json.ofFloat] at hscore
  split at hscore <;> simp at hscore

end DocGraph
