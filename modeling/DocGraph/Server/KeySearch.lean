import DocGraph.Server.Documents
/-!
# The search for a key

A document that comes without a key is given a number.  The server counts on from the last number
that it tried, in 64 bits, until the text of a number is no key of the collection.  The search does
not know how many documents there are: nothing but a free number ends it, and it comes to nothing
if 64 bits do not hold the next number.
-/

namespace DocGraph.StoredDatabase

/-- A number whose text is no key, and how many numbers were tried until it was met. -/
structure DrawnKey where
  number : UInt64
  rounds : Nat
deriving DecidableEq

theorem toNat_add_one {last : UInt64} (h : last.toNat + 1 < UInt64.size) :
    (last + 1).toNat = last.toNat + 1 := by
  rw [UInt64.toNat_add]
  exact Nat.mod_eq_of_lt h

/-- Counts on from the last number that was tried until a number is no key. -/
def searchKey (documents : Table Json.Members) (last : UInt64) : Option DrawnKey :=
  if hroom : last.toNat + 1 < UInt64.size then
    if documents.contains (toString (last + 1)) then
      (searchKey documents (last + 1)).map fun drawn => { drawn with rounds := drawn.rounds + 1 }
    else some ⟨last + 1, 1⟩
  else none
termination_by UInt64.size - last.toNat
decreasing_by
  have hnext := toNat_add_one hroom
  omega

end DocGraph.StoredDatabase
