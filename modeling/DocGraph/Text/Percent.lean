import DocGraph.Text.Digits
/-!
# Percent escapes

A character outside a safe set is written as its UTF-8 bytes, each as a percent sign and two
upper-case hexadecimal digits.  Reading back takes digits of either case, and a plus sign in
the place of the first digit.
-/

namespace DocGraph.Text

def percentByte (b : UInt8) : List Char :=
  ['%', upperHexDigit (b.toNat / 16), upperHexDigit (b.toNat % 16)]

def percentChar (safe : Char → Bool) (c : Char) : List Char :=
  if safe c then [c] else (String.utf8EncodeChar c).flatMap percentByte

def percentEncode (safe : Char → Bool) (s : String) : String :=
  String.ofList (s.toList.flatMap (percentChar safe))

def octet? (high low : Char) : Option UInt8 := do
  let high ← if high = '+' then some 0 else hexValue? high
  let low ← hexValue? low
  return UInt8.ofNat (16 * high + low)

def percentBytes? : List Char → Option (List UInt8)
  | [] => some []
  | '%' :: high :: low :: rest => do
    let byte ← octet? high low
    return byte :: (← percentBytes? rest)
  | c :: rest =>
    if c = '%' then none
    else (percentBytes? rest).map (String.utf8EncodeChar c ++ ·)

/-- A text with its escapes resolved, if every escape is complete and the bytes are UTF-8. -/
def percentDecode? (s : String) : Option String := do
  String.fromUTF8? ⟨(← percentBytes? s.toList).toArray⟩

end DocGraph.Text
