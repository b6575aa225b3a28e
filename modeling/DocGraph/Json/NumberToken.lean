import DocGraph.Json.Basic
/-!
# Number tokens

A token without point and exponent is an integer when it fits 64 bits; every other token is a
double.  The digits that fit an unsigned 64-bit word make the significand, which is then scaled
by a power of ten with one rounding; later digits only move the decimal point.
-/

namespace DocGraph.Json

/-- A number token taken apart at its point and its exponent mark. -/
structure NumberToken where
  negative : Bool
  whole : List Nat
  fraction : Option (List Nat)
  exponent : Option Int

namespace NumberToken

def takeDigits : List Char → List Nat × List Char
  | [] => ([], [])
  | c :: cs =>
    if c.isDigit then
      let (digits, rest) := takeDigits cs
      ((c.toNat - '0'.toNat) :: digits, rest)
    else ([], c :: cs)

def ofDigits (digits : List Nat) : Nat := digits.foldl (fun n d => 10 * n + d) 0

def exponent? : List Char → Option (Option Int)
  | [] => some none
  | mark :: rest =>
    if mark = 'e' ∨ mark = 'E' then
      let (negative, rest) := match rest with
        | '+' :: rest => (false, rest)
        | '-' :: rest => (true, rest)
        | rest => (false, rest)
      match takeDigits rest with
      | ([], _) => none
      | (digits, []) => some (some (if negative then -(ofDigits digits) else ofDigits digits))
      | _ => none
    else none

/-- Takes a token apart; leading zeros and missing digits are refused. -/
def parse? (token : List Char) : Option NumberToken := do
  let (negative, rest) := match token with
    | '-' :: rest => (true, rest)
    | rest => (false, rest)
  let (whole, rest) := takeDigits rest
  match whole with
  | [] => none
  | 0 :: _ :: _ => none
  | _ =>
    match rest with
    | '.' :: rest =>
      let (fraction, rest) := takeDigits rest
      if fraction.isEmpty then none
      else return ⟨negative, whole, some fraction, ← exponent? rest⟩
    | rest => return ⟨negative, whole, none, ← exponent? rest⟩

/-- Appends digits to a significand as long as it fits 64 bits; gives the digits left over. -/
def fill (significand : Nat) : List Nat → Nat × List Nat
  | [] => (significand, [])
  | d :: ds =>
    if 10 * significand + d < 2 ^ (64 : Nat) then fill (10 * significand + d) ds
    else (significand, d :: ds)

/-- A double times a power of ten, in steps that stay within the range of the powers; no
answer when the result is too large. -/
def scale (x : Binary64) (exponent : Int) : Option Binary64 :=
  if x.magnitude = 0 then some x
  else if 308 < exponent then none
  else if 0 ≤ exponent then
    let scaled := x.mul (Binary64.tenPow exponent.toNat)
    if scaled.isFinite then some scaled else none
  else if -308 ≤ exponent then some (x.div (Binary64.tenPow (-exponent).toNat))
  else scale (x.div (Binary64.tenPow 308)) (exponent + 308)
termination_by (-exponent).toNat

def float? (negative : Bool) (significand : Nat) (exponent : Int) : Option Number := do
  let x ← scale (Binary64.ofRatio false significand 1) exponent
  let signed := if negative then x.neg else x
  if h : signed.isFinite = true then some (.float signed h) else none

def value? (token : NumberToken) : Option Number :=
  let (significand, dropped) := fill 0 token.whole
  match token.fraction, token.exponent, dropped with
  | none, none, [] =>
    let value : Int := if token.negative then -significand else significand
    if h : -2 ^ (63 : Nat) ≤ value ∧ value < 2 ^ (64 : Nat) ∧
        ¬(token.negative = true ∧ value = 0) then
      some (.integer value ⟨h.1, h.2.1⟩)
    else float? token.negative significand 0
  | fraction, exponent, _ =>
    let digits := fraction.getD []
    let (significand, left) := fill significand digits
    let shift : Int := dropped.length - (digits.length - left.length : Nat)
    float? token.negative significand (shift + exponent.getD 0)

end NumberToken

end DocGraph.Json
