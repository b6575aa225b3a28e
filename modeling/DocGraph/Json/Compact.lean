import DocGraph.Json.Basic
/-!
# Compact JSON text

Values are written without blanks.  Quotes, backslashes and control characters are escaped;
every other character stands for itself.
-/

namespace DocGraph.Json

def escapeChar (c : Char) : List Char :=
  if c = '"' then ['\\', '"']
  else if c = '\\' then ['\\', '\\']
  else if c = '\n' then ['\\', 'n']
  else if c = '\t' then ['\\', 't']
  else if c = '\r' then ['\\', 'r']
  else if c = '\x08' then ['\\', 'b']
  else if c = '\x0c' then ['\\', 'f']
  else if c < ' ' then
    ['\\', 'u', '0', '0', Nat.digitChar (c.toNat / 16), Nat.digitChar (c.toNat % 16)]
  else [c]

def quoteString (s : String) : String :=
  "\"" ++ String.ofList (s.toList.flatMap escapeChar) ++ "\""

def Number.text : Number → String
  | .integer value _ => toString value
  | .float value _ => value.text

mutual
def compact : Json → String
  | null => "null"
  | bool b => if b then "true" else "false"
  | number n => n.text
  | string s => quoteString s
  | array items => "[" ++ ",".intercalate (compactItems items) ++ "]"
  | object members => "\x7b" ++ ",".intercalate (compactMembers members) ++ "\x7d"
termination_by structural v => v

def compactItems : List Json → List String
  | [] => []
  | item :: items => compact item :: compactItems items
termination_by structural v => v

def compactMembers : Members → List String
  | [] => []
  | (key, member) :: members =>
    (quoteString key ++ ":" ++ compact member) :: compactMembers members
termination_by structural v => v
end

end DocGraph.Json
