import DocGraph.Json.Source
/-!
# Reading records from JSON

A record with named fields is read from an object, where unknown members are passed over and a
known one may stand only once, or from an array that lists the fields in their order.  The
same rules hold for a text and for a value, so they are written once for both.
-/

namespace DocGraph.Json

/-- One level of a value whose parts are of type `σ`. -/
inductive Node (σ : Type) where
  | null
  | bool (value : Bool)
  | number (value : Number)
  | string (value : String)
  | array (items : List σ)
  | object (members : List (String × σ))
  | unreadable

class Readable (σ : Type) where
  node : σ → Node σ
  value? : Nat → σ → Option Json

instance : Readable Json where
  node
    | .null => .null
    | .bool b => .bool b
    | .number n => .number n
    | .string s => .string s
    | .array items => .array items
    | .object members => .object members
  value? _ value := some value

instance : Readable Source where
  node
    | .null => .null
    | .bool b => .bool b
    | .number (some n) => .number n
    | .string (some s) => .string s
    | .array items => .array items
    | .object members =>
      match members.mapM fun (key, member) => key.map (·, member) with
      | some members => .object members
      | none => .unreadable
    | _ => .unreadable
  value? levels source := source.value? levels

namespace Read

variable {σ α : Type} [Readable σ]

def bool (s : σ) : Option Bool :=
  match Readable.node s with
  | .bool b => some b
  | _ => none

def string (s : σ) : Option String :=
  match Readable.node s with
  | .string t => some t
  | _ => none

def natBelow (bound : Nat) (s : σ) : Option Nat :=
  match Readable.node s with
  | .number (.integer i _) => if 0 ≤ i ∧ i < bound then some i.toNat else none
  | _ => none

def uint64 (s : σ) : Option UInt64 := (natBelow (2 ^ (64 : Nat)) s).map UInt64.ofNat

def uint32 (s : σ) : Option UInt32 := (natBelow (2 ^ (32 : Nat)) s).map UInt32.ofNat

def nullable (read : σ → Option α) (s : σ) : Option (Option α) :=
  match Readable.node s with
  | .null => some none
  | _ => (read s).map some

def list (read : σ → Option α) (s : σ) : Option (List α) :=
  match Readable.node s with
  | .array items => items.mapM read
  | _ => none

def value (levels : Nat) (s : σ) : Option Json := Readable.value? levels s

/-- The fields of a record: named by the members of an object, or listed in an array. -/
inductive Fields (σ : Type) where
  | named (members : List (String × σ))
  | listed (members : List (String × σ))

def fields (names : List String) (s : σ) : Option (Fields σ) :=
  match Readable.node s with
  | .object members =>
    if names.all fun name => (members.filter (·.1 = name)).length ≤ 1 then
      some (.named members)
    else none
  | .array items =>
    if items.length ≤ names.length then some (.listed (names.zip items)) else none
  | _ => none

def Fields.get? (fields : Fields σ) (name : String) : Option σ :=
  match fields with
  | .named members | .listed members => members.lookup name

def Fields.required (fields : Fields σ) (name : String) (read : σ → Option α) : Option α :=
  (fields.get? name).bind read

def Fields.withDefault (fields : Fields σ) (name : String) (default : α)
    (read : σ → Option α) : Option α :=
  match fields.get? name with
  | some s => read s
  | none => some default

def Fields.optional (fields : Fields σ) (name : String) (read : σ → Option α) :
    Option (Option α) :=
  match fields.get? name, fields with
  | some s, _ => nullable read s
  | none, .named _ => some none
  | none, .listed _ => none

end Read

def readText {α : Type} (read : Source → Option α) (text : String) : Option α :=
  (Source.parse? text).bind read

end DocGraph.Json
