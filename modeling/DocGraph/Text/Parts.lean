/-!
# Texts cut at a separator

The parts of a text between separators, and the two parts around the first one.
-/

namespace DocGraph.Text

def splitChars (separator : Char) : List Char → List (List Char)
  | [] => [[]]
  | c :: rest =>
    if c = separator then [] :: splitChars separator rest
    else
      match splitChars separator rest with
      | part :: parts => (c :: part) :: parts
      | [] => [[c]]

/-- The parts of a text between separators; always at least one. -/
def split (separator : Char) (s : String) : List String :=
  (splitChars separator s.toList).map String.ofList

def cutChars (separator : Char) : List Char → Option (List Char × List Char)
  | [] => none
  | c :: rest =>
    if c = separator then some ([], rest)
    else (cutChars separator rest).map fun (before, after) => (c :: before, after)

def cut? (separator : Char) (s : String) : Option (String × String) :=
  (cutChars separator s.toList).map fun (before, after) =>
    (String.ofList before, String.ofList after)

/-- The longest runs of characters of a class; at least one, possibly empty. -/
def runs (keep : Char → Bool) : List Char → List (List Char)
  | [] => [[]]
  | c :: rest =>
    if keep c then
      match runs keep rest with
      | run :: others => (c :: run) :: others
      | [] => [[c]]
    else [] :: runs keep rest

def occursIn (part : List Char) : List Char → Bool
  | [] => part.isEmpty
  | c :: rest => part.isPrefixOf (c :: rest) || occursIn part rest

end DocGraph.Text
