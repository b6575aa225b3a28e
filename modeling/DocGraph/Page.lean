import DocGraph.Json.Reader
/-!
# Pages

A result is read in pages of a fixed size, counted from one; page zero is the first page too.
Offsets that do not fit 64 bits stay at the largest number that does, and other sums that do not fit
break the work off.
-/

namespace DocGraph

structure Pagination where
  page : UInt64
  perPage : UInt64
deriving DecidableEq

namespace Pagination

def default : Pagination := ⟨1, 10⟩

/-- The product, or the largest 64-bit number when it is larger. -/
def clampedMul (a b : UInt64) : UInt64 :=
  UInt64.ofNat (min (a.toNat * b.toNat) (UInt64.size - 1))

def clampedAdd (a b : UInt64) : UInt64 :=
  UInt64.ofNat (min (a.toNat + b.toNat) (UInt64.size - 1))

def checkedAdd (a b : UInt64) : Option UInt64 :=
  if a.toNat + b.toNat < UInt64.size then some (a + b) else none

/-- The number of the page, which is at least one. -/
def number (params : Pagination) : UInt64 := if params.page = 0 then 1 else params.page

def offset (params : Pagination) : UInt64 := clampedMul (params.number - 1) params.perPage

def toJson (params : Pagination) : Json :=
  .ofMembers [("page", .ofUInt64 params.page), ("per_page", .ofUInt64 params.perPage)]

open Json in
def read {σ : Type} [Readable σ] (s : σ) : Option Pagination := do
  let fields ← Read.fields ["page", "per_page"] s
  return ⟨← fields.withDefault "page" default.page Read.uint64,
    ← fields.withDefault "per_page" default.perPage Read.uint64⟩

end Pagination

structure Page (α : Type) where
  items : List α
  count : UInt64
  nextPage : Option UInt64
  previousPage : Option UInt64

namespace Page

variable {α β : Type}

/-- The number of the page after one, if there is one; it may not fit 64 bits. -/
def following (params : Pagination) (length : Nat) (count : UInt64) : Option (Option UInt64) :=
  if Pagination.clampedAdd params.offset (UInt64.ofNat length) < count then
    (Pagination.checkedAdd params.number 1).map some
  else some none

/-- The page of some items; another one follows when they end before the last item of all. -/
def new (items : List α) (params : Pagination) (count : UInt64) : Option (Page α) := do
  let nextPage ← following params items.length count
  let previousPage := if 1 < params.number then some (params.number - 1) else none
  return ⟨items, count, nextPage, previousPage⟩

def empty : Page α := ⟨[], 0, none, none⟩

def map (f : α → β) (page : Page α) : Page β := { page with items := page.items.map f }

def numberJson : Option UInt64 → Json
  | some n => .ofUInt64 n
  | none => .null

def toJson (page : Page Json) : Json :=
  .ofMembers [
    ("items", .array page.items),
    ("count", .ofUInt64 page.count),
    ("next_page", numberJson page.nextPage),
    ("previous_page", numberJson page.previousPage)]

open Json in
/-- Reads a page; its items lie two levels below the text. -/
def read {σ : Type} [Readable σ] (s : σ) : Option (Page Json) := do
  let fields ← Read.fields ["items", "count", "next_page", "previous_page"] s
  return ⟨← fields.required "items" (Read.list (Read.value (maxDepth - 2))),
    ← fields.required "count" Read.uint64,
    ← fields.optional "next_page" Read.uint64,
    ← fields.optional "previous_page" Read.uint64⟩

end Page

end DocGraph
