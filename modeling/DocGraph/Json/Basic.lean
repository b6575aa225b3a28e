import DocGraph.Assoc
import DocGraph.Number.Decimal
/-!
# JSON values

A number is an integer that fits 64 bits, signed or unsigned, or a finite double; `2` and `2.0`
are different values.  The members of an object stand in increasing key order, so objects
with the same members are equal.
-/

namespace DocGraph

inductive Json.Number where
  | integer (value : Int) (fits : -2 ^ (63 : Nat) ≤ value ∧ value < 2 ^ (64 : Nat))
  | float (value : Binary64) (finite : value.isFinite = true)
deriving DecidableEq

inductive Json where
  | null
  | bool (value : Bool)
  | number (value : Json.Number)
  | string (value : String)
  | array (items : List Json)
  | object (members : List (String × Json))
deriving Inhabited

namespace Json

/-- The members of an object, in increasing key order. -/
abbrev Members := List (String × Json)

namespace Number

/-- Numeric agreement: integers with integers, floats with floats. -/
def agrees : Number → Number → Bool
  | integer a _, integer b _ => a == b
  | float a _, float b _ => a.agrees b
  | _, _ => false

end Number

mutual
def matchesBy (same : Number → Number → Bool) : Json → Json → Bool
  | null, null => true
  | bool a, bool b => a == b
  | number a, number b => same a b
  | string a, string b => a == b
  | array a, array b => itemsMatchBy same a b
  | object a, object b => membersMatchBy same a b
  | _, _ => false
termination_by structural a => a

def itemsMatchBy (same : Number → Number → Bool) : List Json → List Json → Bool
  | [], [] => true
  | a :: as, b :: bs => matchesBy same a b && itemsMatchBy same as bs
  | _, _ => false
termination_by structural a => a

def membersMatchBy (same : Number → Number → Bool) : Members → Members → Bool
  | [], [] => true
  | (k, a) :: as, (l, b) :: bs => k == l && matchesBy same a b && membersMatchBy same as bs
  | _, _ => false
termination_by structural a => a
end

/-- Whether two values are the same as data: numbers of one form agree when they are
numerically equal. -/
def agrees (a b : Json) : Bool := matchesBy Number.agrees a b

mutual
theorem eq_of_matchesBy : ∀ {a b : Json},
    matchesBy (fun m n => decide (m = n)) a b = true → a = b
  | null, b, h => by cases b <;> simp_all [matchesBy]
  | bool _, b, h => by cases b <;> simp_all [matchesBy]
  | number _, b, h => by cases b <;> simp_all [matchesBy]
  | string _, b, h => by cases b <;> simp_all [matchesBy]
  | array as, b, h => by
    cases b with
    | array bs => exact congrArg array (eq_of_itemsMatchBy (by simpa [matchesBy] using h))
    | _ => simp [matchesBy] at h
  | object as, b, h => by
    cases b with
    | object bs => exact congrArg object (eq_of_membersMatchBy (by simpa [matchesBy] using h))
    | _ => simp [matchesBy] at h

theorem eq_of_itemsMatchBy : ∀ {as bs : List Json},
    itemsMatchBy (fun m n => decide (m = n)) as bs = true → as = bs
  | [], bs, h => by cases bs <;> simp_all [itemsMatchBy]
  | a :: as, bs, h => by
    cases bs with
    | nil => simp [itemsMatchBy] at h
    | cons b bs =>
      simp only [itemsMatchBy, Bool.and_eq_true] at h
      rw [eq_of_matchesBy h.1, eq_of_itemsMatchBy h.2]

theorem eq_of_membersMatchBy : ∀ {as bs : Members},
    membersMatchBy (fun m n => decide (m = n)) as bs = true → as = bs
  | [], bs, h => by cases bs <;> simp_all [membersMatchBy]
  | (k, a) :: as, bs, h => by
    cases bs with
    | nil => simp [membersMatchBy] at h
    | cons b bs =>
      simp only [membersMatchBy, Bool.and_eq_true, beq_iff_eq] at h
      rw [eq_of_matchesBy h.1.2, eq_of_membersMatchBy h.2, h.1.1]
end

mutual
theorem matchesBy_self : ∀ a : Json, matchesBy (fun m n => decide (m = n)) a a = true
  | null => rfl
  | bool _ => by simp [matchesBy]
  | number _ => by simp [matchesBy]
  | string _ => by simp [matchesBy]
  | array as => itemsMatchBy_self as
  | object as => membersMatchBy_self as

theorem itemsMatchBy_self :
    ∀ as : List Json, itemsMatchBy (fun m n => decide (m = n)) as as = true
  | [] => rfl
  | a :: as => by simp [itemsMatchBy, matchesBy_self a, itemsMatchBy_self as]

theorem membersMatchBy_self :
    ∀ as : Members, membersMatchBy (fun m n => decide (m = n)) as as = true
  | [] => rfl
  | (_, a) :: as => by simp [membersMatchBy, matchesBy_self a, membersMatchBy_self as]
end

instance : DecidableEq Json := fun a b =>
  decidable_of_iff (matchesBy (fun m n => decide (m = n)) a b = true)
    ⟨eq_of_matchesBy, fun h => h ▸ matchesBy_self a⟩

def ofInt64 (i : Int64) : Json :=
  number (.integer i.toInt
    ⟨Int64.le_toInt i, Int.lt_trans (Int64.toInt_lt i) (by decide)⟩)

def ofUInt64 (n : UInt64) : Json :=
  number (.integer n.toNat ⟨by omega, by have := n.toNat_lt; omega⟩)

/-- The number of a count, reduced to 64 bits. -/
def ofNat (n : Nat) : Json := ofUInt64 (UInt64.ofNat n)

def ofMembers (members : Members) : Json := object (Assoc.ofList members)

def kindName : Json → String
  | null => "null"
  | bool _ => "boolean"
  | number (.float ..) => "float"
  | number (.integer ..) => "integer"
  | string _ => "string"
  | array _ => "array"
  | object _ => "object"

def isNull : Json → Bool
  | null => true
  | _ => false

def isArray : Json → Bool
  | array _ => true
  | _ => false

def asBool? : Json → Option Bool
  | bool b => some b
  | _ => none

def asString? : Json → Option String
  | string s => some s
  | _ => none

def asArray? : Json → Option (List Json)
  | array items => some items
  | _ => none

def asObject? : Json → Option Members
  | object members => some members
  | _ => none

def asInt64? : Json → Option Int64
  | number (.integer i _) => if i < 2 ^ (63 : Nat) then some (Int64.ofInt i) else none
  | _ => none

def asUInt64? : Json → Option UInt64
  | number (.integer i _) => if 0 ≤ i then some (UInt64.ofNat i.toNat) else none
  | _ => none

def asFloat? : Json → Option Binary64
  | number (.float x _) => some x
  | number (.integer i _) => some (Binary64.ofInt i)
  | _ => none

def member? (key : String) : Json → Option Json
  | object members => Assoc.get? key members
  | _ => none

end Json

end DocGraph
