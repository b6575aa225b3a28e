import DocGraph.Proofs.Assoc
import DocGraph.Schema.Build
import DocGraph.Schema.Dump
import DocGraph.Schema.Load
/-!
# Records without their omitted fields

The members that stay when every field is left out whose value is a default to be omitted, at
every depth.  What is left out is the only change: other members keep their text, and
nothing is added.  Beside it stand the conditions under which an object has one written form.
-/

namespace DocGraph

namespace Json

mutual

/-- Whether the members of every object, at any depth, stand in increasing key order. -/
def isOrdered : Json → Bool
  | array items => itemsOrdered items
  | object members =>
    decide (members.Pairwise fun a b => a.1 < b.1) && membersOrdered members
  | _ => true
termination_by structural json => json

def itemsOrdered : List Json → Bool
  | [] => true
  | item :: items => item.isOrdered && itemsOrdered items
termination_by structural items => items

def membersOrdered : Members → Bool
  | [] => true
  | (_, member) :: members => member.isOrdered && membersOrdered members
termination_by structural members => members

end

theorem isOrdered_object {members : Members} :
    (object members).isOrdered ↔ Assoc.Sorted members ∧ membersOrdered members := by
  simp [isOrdered, Assoc.Sorted]

theorem isOrdered_of_mem {items : List Json} (h : itemsOrdered items) :
    ∀ item ∈ items, item.isOrdered := by
  induction items with
  | nil => simp
  | cons head items ih =>
      obtain ⟨hhead, hrest⟩ := Bool.and_eq_true_iff.1 h
      intro item hmem
      rcases List.mem_cons.1 hmem with rfl | hmem
      · exact hhead
      · exact ih hrest item hmem

theorem isOrdered_of_get? {members : Members} (h : membersOrdered members) {key : String}
    {member : Json} (hget : Assoc.get? key members = some member) : member.isOrdered := by
  induction members with
  | nil => simp [Assoc.get?] at hget
  | cons head rest ih =>
      obtain ⟨hhead, hrest⟩ := Bool.and_eq_true_iff.1 h
      simp only [Assoc.get?] at hget
      split at hget
      · obtain rfl := Option.some.inj hget
        exact hhead
      · exact ih hrest hget

end Json

/-- Whether a value of a scalar type is written as it is read: instants and UUIDs have many texts,
and an integer beyond 63 bits becomes a float. -/
def Primitive.isCanonical : Primitive → Json → Bool
  | .datetime, .string s => (Instant.ofRfc3339? s).all fun instant => instant.rfc3339 == s
  | .uuid, .string s => (Uuid.ofText? s).all fun id => id.text == s
  | .float, .number (.integer i _) => decide (i < 2 ^ (63 : Nat))
  | _, _ => true

mutual

def FieldType.isCanonical : FieldType → Json → Bool
  | .primitive kind, raw => kind.isCanonical raw
  | .nested schema, .object members => schema.isCanonical members
  | .listOf item, .array items => items.all fun raw => item.isCanonical raw
  | _, _ => true
termination_by structural type => type

def FieldSpec.isCanonical : FieldSpec → Json.Members → Bool
  | ⟨name, type, _, _, _, codec?⟩, members =>
    codec?.isSome || (Assoc.get? name members).all fun raw => type.isCanonical raw
termination_by structural field => field

def fieldsCanonical : List FieldSpec → Json.Members → Bool
  | [], _ => true
  | field :: fields, members => field.isCanonical members && fieldsCanonical fields members
termination_by structural fields => fields

def Schema.isCanonical : Schema → Json.Members → Bool
  | ⟨_, _, fields, _, _⟩, members => fieldsCanonical fields members
termination_by structural schema => schema

end

mutual

/-- Whether the schemas in a type, at any depth, are those of parts of records, and each of them
declares a name once. -/
def FieldType.nestsParts : FieldType → Bool
  | .primitive _ => true
  | .nested schema =>
    schema.kind == .embedded && decide (schema.fields.map FieldSpec.name).Nodup
      && schema.nestsParts
  | .listOf item => item.nestsParts
termination_by structural type => type

def FieldSpec.nestsParts : FieldSpec → Bool
  | ⟨_, type, _, _, _, _⟩ => type.nestsParts
termination_by structural field => field

def fieldsNestParts : List FieldSpec → Bool
  | [] => true
  | field :: fields => field.nestsParts && fieldsNestParts fields
termination_by structural fields => fields

def Schema.nestsParts : Schema → Bool
  | ⟨_, _, fields, _, _⟩ => fieldsNestParts fields
termination_by structural schema => schema

end

section

variable (codec : Codec)

mutual

/-- Whether a schema in a type declares a codec for one of its fields, at any depth. -/
def FieldType.Declares : FieldType → Prop
  | .primitive _ => False
  | .nested schema => schema.Declares
  | .listOf item => item.Declares
termination_by structural type => type

def FieldSpec.Declares : FieldSpec → Prop
  | ⟨_, type, _, _, _, codec?⟩ => codec? = some codec ∨ type.Declares
termination_by structural field => field

def fieldsDeclare : List FieldSpec → Prop
  | [] => False
  | field :: fields => field.Declares ∨ fieldsDeclare fields
termination_by structural fields => fields

def Schema.Declares : Schema → Prop
  | ⟨_, _, fields, _, _⟩ => fieldsDeclare fields
termination_by structural schema => schema

end

end

section

variable [CustomCodecs]

def FieldSpec.omits (field : FieldSpec) (members : Json.Members) : Drawn Bool := fun moment =>
  match field.loadSlot members with
  | .ok slot =>
    match slot moment with
    | .held value => field.omitsDefault && field.isDefault value
    | _ => false
  | .error _ => false

mutual

/-- A value of a type without what its records leave out. -/
def FieldType.trim : FieldType → Json → Drawn Json
  | .nested schema, .object members, moment => .object (schema.trim members moment)
  | .listOf item, .array items, moment =>
    .array (Drawn.all (items.map fun raw => item.trim raw) moment)
  | _, raw, _ => raw
termination_by structural type => type

def FieldSpec.trim : FieldSpec → Json.Members → Json → Drawn (Option Json)
  | ⟨name, type, isRequired, default?, omitsDefault, codec?⟩, members, raw, moment =>
    if FieldSpec.omits ⟨name, type, isRequired, default?, omitsDefault, codec?⟩ members moment then
      none
    else if codec?.isSome then some raw
    else some (type.trim raw moment)
termination_by structural field => field

def trimMember : List FieldSpec → Json.Members → String → Json → Drawn (Option Json)
  | [], _, _, raw, _ => some raw
  | field :: fields, members, key, raw, moment =>
    if field.name = key then field.trim members raw moment.first
    else trimMember fields members key raw moment.later
termination_by structural fields => fields

def Schema.trim : Schema → Json.Members → Drawn Json.Members
  | ⟨_, _, fields, _, _⟩, members, moment =>
    Assoc.filterMap (fun key raw => trimMember fields members key raw moment) members
termination_by structural schema => schema

end

end

end DocGraph
