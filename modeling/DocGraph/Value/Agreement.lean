import DocGraph.Value.Basic
/-!
# Agreement of values

Two values agree when they are of one type and hold the same data.  Doubles agree numerically,
so no value that holds a not-a-number agrees with itself; records agree when their schemas
have one name and their slots and extra fields agree in order.
-/

namespace DocGraph

mutual

def Value.agrees : Value → Value → Bool
  | .null, .null => true
  | .bool a, .bool b => a == b
  | .int a, .int b => a == b
  | .float a, .float b => a.agrees b
  | .string a, .string b => a == b
  | .datetime a, .datetime b => a == b
  | .uuid a, .uuid b => a == b
  | .list a, .list b => itemsAgree a b
  | .object a, .object b => a.agrees b
  | .json a, .json b => a.agrees b
  | _, _ => false
termination_by structural a => a

def itemsAgree : List Value → List Value → Bool
  | [], [] => true
  | a :: as, b :: bs => a.agrees b && itemsAgree as bs
  | _, _ => false
termination_by structural a => a

def Record.agrees : Record → Record → Bool
  | ⟨schema, slots, extras⟩, b =>
    schema.name == b.schema.name && slotsAgree slots b.slots && extrasAgree extras b.extras
termination_by structural a => a

def Slot.agrees : Slot → Slot → Bool
  | .absent, .absent => true
  | .defaulted a, .defaulted b => a.agrees b
  | .held a, .held b => a.agrees b
  | _, _ => false
termination_by structural a => a

def slotsAgree : List Slot → List Slot → Bool
  | [], [] => true
  | a :: as, b :: bs => a.agrees b && slotsAgree as bs
  | _, _ => false
termination_by structural a => a

def extrasAgree : List (String × Value) → List (String × Value) → Bool
  | [], [] => true
  | (k, a) :: as, (l, b) :: bs => k == l && a.agrees b && extrasAgree as bs
  | _, _ => false
termination_by structural a => a

end

/-- Whether a value is the fixed default of its field; a float and an integer agree when the
widened integer is the float. -/
def FieldSpec.isDefault (field : FieldSpec) (value : Value) : Bool :=
  match field.default? with
  | some (.fixed default) =>
    match default, value with
    | .float x, .int i | .int i, .float x => x.agrees (Binary64.ofInt i.toInt)
    | default, value => default.agrees value
  | _ => false

end DocGraph
