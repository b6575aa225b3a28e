import DocGraph.Number.Instances
import DocGraph.Text.Digits
/-!
# UUIDs

A UUID is a 128-bit number.  It is written as 32 lower-case hexadecimal digits in five groups;
it is read from that form with digits of any case, bare, in braces or behind its URN prefix,
and from the plain digits.
-/

namespace DocGraph

structure Uuid where
  value : BitVec 128
deriving DecidableEq

namespace Uuid

def digits (id : Uuid) : List Char :=
  (List.range 32).map fun i => Nat.digitChar (id.value.toNat / 16 ^ (31 - i) % 16)

def groups : List Nat := [8, 4, 4, 4, 12]

def hyphenate : List Nat → List Char → List Char
  | [], digits => digits
  | [_], digits => digits
  | width :: widths, digits => digits.take width ++ '-' :: hyphenate widths (digits.drop width)

/-- The digits without the hyphens that stand between the groups. -/
def unhyphenate? : List Nat → List Char → Option (List Char)
  | [], chars => some chars
  | [_], chars => some chars
  | width :: widths, chars => do
    match chars.drop width with
    | '-' :: rest => return chars.take width ++ (← unhyphenate? widths rest)
    | _ => none

def text (id : Uuid) : String := String.ofList (hyphenate groups id.digits)

def ofDigits? (digits : List Char) : Option Uuid := do
  if digits.length ≠ 32 then none
  else
    let value ← digits.foldlM (fun n c => do return 16 * n + (← Text.hexValue? c)) 0
    return ⟨BitVec.ofNat 128 value⟩

/-- The prefix of the URN form, lower case. -/
def urnLead : List Char := "urn:uuid:".toList

def ofChars? (chars : List Char) : Option Uuid :=
  let hyphenated := fun (chars : List Char) => do ofDigits? (← unhyphenate? groups chars)
  if chars.length = 32 then ofDigits? chars
  else if chars.length = 36 then hyphenated chars
  else if chars.length = 38 then
    if chars.head? = some '\x7b' ∧ chars.getLast? = some '\x7d' then
      hyphenated ((chars.drop 1).take 36)
    else none
  else if chars.length = 45 then
    if (chars.take 9).map Char.toLower = urnLead then hyphenated (chars.drop 9) else none
  else none

def ofText? (text : String) : Option Uuid := ofChars? text.toList

end Uuid

end DocGraph
