import DocGraph.Json.Token
/-!
# JSON text as it was written

A source keeps what a value forgets: the order of members, repeated keys, and parts that stand
for no value.  Containers are read with a stack of the ones still open, so one pass over
the tokens suffices.
-/

namespace DocGraph.Json

inductive Source where
  | null
  | bool (value : Bool)
  | number (value : Option Number)
  | string (value : Option String)
  | array (items : List Source)
  | object (members : List (Option String × Source))
deriving Inhabited

namespace Source

/-- A container that is still open; its contents are kept last first. -/
inductive Frame where
  | array (items : List Source)
  | object (members : List (Option String × Source)) (key : Option String)

inductive Expect where
  | value
  | firstItem
  | firstKey
  | key
  | colon
  | commaOrClose
  | nothing

/-- The containers around the place that is being read, innermost first, and the value of the
whole text once it is complete. -/
structure Reading where
  expect : Expect
  frames : List Frame
  done : Option Source

def deliver (value : Source) : List Frame → Reading
  | [] => ⟨.nothing, [], some value⟩
  | .array items :: frames => ⟨.commaOrClose, .array (value :: items) :: frames, none⟩
  | .object members key :: frames =>
    ⟨.commaOrClose, .object ((key, value) :: members) none :: frames, none⟩

def beginValue? (frames : List Frame) : Token → Option Reading
  | .null => some (deliver .null frames)
  | .bool b => some (deliver (.bool b) frames)
  | .number n => some (deliver (.number n) frames)
  | .string s => some (deliver (.string s) frames)
  | .openArray => some ⟨.firstItem, .array [] :: frames, none⟩
  | .openObject => some ⟨.firstKey, .object [] none :: frames, none⟩
  | _ => none

def step? (reading : Reading) (token : Token) : Option Reading :=
  match reading.expect, token, reading.frames with
  | .firstItem, .closeArray, .array _ :: frames => some (deliver (.array []) frames)
  | .value, token, frames | .firstItem, token, frames => beginValue? frames token
  | .firstKey, .closeObject, .object .. :: frames => some (deliver (.object []) frames)
  | .firstKey, .string key, .object members _ :: frames
  | .key, .string key, .object members _ :: frames =>
    some ⟨.colon, .object members key :: frames, none⟩
  | .colon, .colon, frames => some ⟨.value, frames, none⟩
  | .commaOrClose, .comma, .array items :: frames => some ⟨.value, .array items :: frames, none⟩
  | .commaOrClose, .comma, .object members key :: frames =>
    some ⟨.key, .object members key :: frames, none⟩
  | .commaOrClose, .closeArray, .array items :: frames =>
    some (deliver (.array items.reverse) frames)
  | .commaOrClose, .closeObject, .object members _ :: frames =>
    some (deliver (.object members.reverse) frames)
  | _, _, _ => none

def parse? (text : String) : Option Source := do
  let tokens ← Token.scan? text.toList
  let reading ← tokens.foldlM step? ⟨.value, [], none⟩
  reading.done

mutual
/-- The value a source stands for, if it nests no deeper than `levels` containers. -/
def value? (levels : Nat) : Source → Option Json
  | null => some .null
  | bool b => some (.bool b)
  | number n => n.map .number
  | string s => s.map .string
  | array items =>
    if levels = 0 then none else (itemValues? (levels - 1) items).map .array
  | object members =>
    if levels = 0 then none else (memberValues? (levels - 1) members).map Json.ofMembers
termination_by structural s => s

def itemValues? (levels : Nat) : List Source → Option (List Json)
  | [] => some []
  | item :: items => do return (← item.value? levels) :: (← itemValues? levels items)
termination_by structural s => s

def memberValues? (levels : Nat) : List (Option String × Source) → Option Members
  | [] => some []
  | (key, member) :: members => do
    return (← key, ← member.value? levels) :: (← memberValues? levels members)
termination_by structural s => s
end

end Source

def maxDepth : Nat := 127

def parse? (text : String) : Option Json := do
  (← Source.parse? text).value? maxDepth

end DocGraph.Json
