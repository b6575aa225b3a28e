/-!
# Types of collections

A collection holds documents or edges; requests give its type as a number.
-/

namespace DocGraph

inductive CollectionType where
  | document
  | edge
deriving DecidableEq

namespace CollectionType

def number : CollectionType → Nat
  | document => 2
  | edge => 3

def ofNumber? : Nat → Option CollectionType
  | 2 => some document
  | 3 => some edge
  | _ => none

def name : CollectionType → String
  | document => "document"
  | edge => "edge"

end CollectionType

end DocGraph
