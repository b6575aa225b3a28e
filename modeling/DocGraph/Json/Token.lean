import DocGraph.Json.NumberToken
import DocGraph.Text.Digits
/-!
# Tokens of JSON text

One pass over the characters turns text into tokens.  The state says which token is being
read; a token that ends only where the next character cannot continue it is closed there.
A number out of range and a string with half of a surrogate pair are tokens without a value,
so that a part of the text nobody asks for may hold them.
-/

namespace DocGraph.Json

inductive Token where
  | openObject
  | closeObject
  | openArray
  | closeArray
  | comma
  | colon
  | null
  | bool (value : Bool)
  | number (value : Option Number)
  | string (value : Option String)

namespace Token

/-- A piece of a string: a character that stands for itself, or an escaped 16-bit unit. -/
inductive Piece where
  | char (c : Char)
  | unit (value : Nat)

/-- Joins pieces to a string; a high surrogate must meet a low one right after it. -/
def assemble : List Piece → Option (List Char)
  | [] => some []
  | .char c :: rest => (assemble rest).map (c :: ·)
  | .unit high :: .unit low :: rest =>
    if 0xD800 ≤ high ∧ high < 0xDC00 then
      if 0xDC00 ≤ low ∧ low < 0xE000 then
        (assemble rest).map
          (Char.ofNat (0x10000 + (high - 0xD800) * 0x400 + (low - 0xDC00)) :: ·)
      else none
    else if 0xDC00 ≤ high ∧ high < 0xE000 then none
    else (assemble (.unit low :: rest)).map (Char.ofNat high :: ·)
  | .unit u :: rest =>
    if 0xD800 ≤ u ∧ u < 0xE000 then none else (assemble rest).map (Char.ofNat u :: ·)

/-- What the characters read so far have begun; texts are kept last character first. -/
inductive State where
  | idle
  | word (letters : List Char)
  | number (text : List Char)
  | string (pieces : List Piece)
  | escape (pieces : List Piece)
  | hex (pieces : List Piece) (digits : Nat) (value : Nat)

structure Scan where
  state : State
  tokens : List Token

def escaped? : Char → Option Char
  | '"' => some '"'
  | '\\' => some '\\'
  | '/' => some '/'
  | 'b' => some '\x08'
  | 'f' => some '\x0c'
  | 'n' => some '\n'
  | 'r' => some '\r'
  | 't' => some '\t'
  | _ => none

def close? : State → Option (List Token)
  | .idle => some []
  | .word letters =>
    match String.ofList letters.reverse with
    | "null" => some [.null]
    | "true" => some [.bool true]
    | "false" => some [.bool false]
    | _ => none
  | .number text => do return [.number (← NumberToken.parse? text.reverse).value?]
  | _ => none

def begin? (tokens : List Token) (c : Char) : Option Scan :=
  match c with
  | '\x7b' => some ⟨.idle, .openObject :: tokens⟩
  | '\x7d' => some ⟨.idle, .closeObject :: tokens⟩
  | '[' => some ⟨.idle, .openArray :: tokens⟩
  | ']' => some ⟨.idle, .closeArray :: tokens⟩
  | ',' => some ⟨.idle, .comma :: tokens⟩
  | ':' => some ⟨.idle, .colon :: tokens⟩
  | '"' => some ⟨.string [], tokens⟩
  | ' ' | '\n' | '\t' | '\r' => some ⟨.idle, tokens⟩
  | c =>
    if c.isLower then some ⟨.word [c], tokens⟩
    else if c.isDigit ∨ c = '-' then some ⟨.number [c], tokens⟩
    else none

def step? (scan : Scan) (c : Char) : Option Scan :=
  match scan.state with
  | .idle => begin? scan.tokens c
  | .word letters =>
    if c.isLower then some ⟨.word (c :: letters), scan.tokens⟩
    else do begin? ((← close? (.word letters)) ++ scan.tokens) c
  | .number text =>
    if c.isDigit ∨ c ∈ ['.', 'e', 'E', '+', '-'] then
      some ⟨.number (c :: text), scan.tokens⟩
    else do begin? ((← close? (.number text)) ++ scan.tokens) c
  | .string pieces =>
    if c = '"' then
      some ⟨.idle, .string ((assemble pieces.reverse).map String.ofList) :: scan.tokens⟩
    else if c = '\\' then some ⟨.escape pieces, scan.tokens⟩
    else if c < ' ' then none
    else some ⟨.string (.char c :: pieces), scan.tokens⟩
  | .escape pieces =>
    if c = 'u' then some ⟨.hex pieces 0 0, scan.tokens⟩
    else do return ⟨.string (.char (← escaped? c) :: pieces), scan.tokens⟩
  | .hex pieces digits value => do
    let value := 16 * value + (← Text.hexValue? c)
    if digits = 3 then return ⟨.string (.unit value :: pieces), scan.tokens⟩
    else return ⟨.hex pieces (digits + 1) value, scan.tokens⟩

def scan? (text : List Char) : Option (List Token) := do
  let scan ← text.foldlM step? ⟨.idle, []⟩
  return ((← close? scan.state) ++ scan.tokens).reverse

end Token

end DocGraph.Json
