import DocGraph.Aql.Program
/-!
# Reading the words of a condition

A condition is read character by character.  Words are keywords in any case, or else names;
between backticks stands the name of an attribute, where a backslash takes the next character
as it is; a parameter is a word behind one or two signs.
-/

namespace DocGraph.Aql

inductive Relation where
  | equal
  | unequal
  | less
  | atMost
  | greater
  | atLeast
  | isIn
  | notIn
  | anyIn
  | noneIn
deriving DecidableEq

inductive Token where
  | name (text : String)
  | keyword (text : String)
  | quoted (text : String)
  | parameter (key : String)
  | opening
  | closing
  | comma
  | dot
  | relation (relation : Relation)
deriving DecidableEq

def wordToken (chars : List Char) : Token :=
  let upper := String.ofList (chars.map Char.toUpper)
  if keywords.contains upper then .keyword upper else .name (String.ofList chars)

def isWordChar (c : Char) : Bool := c.isAlphanum || c = '_'

inductive Scan where
  | idle
  | word (chars : List Char)
  | quoted (chars : List Char)
  | escaped (chars : List Char)
  | parameter (chars : List Char)
  | sign (c : Char)

namespace Scan

/-- The tokens that a character completes when nothing has been begun, and what it begins. -/
def start (c : Char) : Option (List Token × Scan) :=
  if c = ' ' then some ([], idle)
  else if c.isAlpha || c = '_' then some ([], word [c])
  else if c = '\x60' then some ([], quoted [])
  else if c = '@' then some ([], parameter [])
  else if c = '(' then some ([.opening], idle)
  else if c = ')' then some ([.closing], idle)
  else if c = ',' then some ([.comma], idle)
  else if c = '.' then some ([.dot], idle)
  else if c ∈ ['=', '!', '<', '>'] then some ([], sign c)
  else none

def startAfter (token : Token) (c : Char) : Option (List Token × Scan) :=
  (start c).map fun (tokens, scan) => (token :: tokens, scan)

def next : Scan → Char → Option (List Token × Scan)
  | idle, c => start c
  | word chars, c =>
    if isWordChar c then some ([], word (chars ++ [c])) else startAfter (wordToken chars) c
  | quoted chars, c =>
    if c = '\x60' then some ([.quoted (String.ofList chars)], idle)
    else if c = '\\' then some ([], escaped chars)
    else some ([], quoted (chars ++ [c]))
  | escaped chars, c => some ([], quoted (chars ++ [c]))
  | parameter chars, c =>
    if isWordChar c || (c = '@' && chars.isEmpty) then some ([], parameter (chars ++ [c]))
    else startAfter (.parameter (String.ofList chars)) c
  | sign '=', '=' => some ([.relation .equal], idle)
  | sign '!', '=' => some ([.relation .unequal], idle)
  | sign '<', '=' => some ([.relation .atMost], idle)
  | sign '>', '=' => some ([.relation .atLeast], idle)
  | sign '<', c => startAfter (.relation .less) c
  | sign '>', c => startAfter (.relation .greater) c
  | sign _, _ => none

def finish : Scan → Option (List Token)
  | idle => some []
  | word chars => some [wordToken chars]
  | parameter chars => some [.parameter (String.ofList chars)]
  | _ => none

end Scan

def scan : Scan → List Char → Option (List Token × Scan)
  | state, [] => some ([], state)
  | state, c :: chars => do
    let (first, state) ← state.next c
    let (rest, state) ← scan state chars
    return (first ++ rest, state)

def tokens? (text : String) : Option (List Token) := do
  let (complete, state) ← scan .idle text.toList
  return complete ++ (← state.finish)

/-! ## Reading one text after the other -/

theorem scan_append (state : Scan) (first second : List Char) :
    scan state (first ++ second) = (scan state first).bind fun (tokens, middle) =>
      (scan middle second).map fun (rest, after) => (tokens ++ rest, after) := by
  induction first generalizing state with
  | nil =>
      simp only [List.nil_append, scan, Option.bind_some]
      cases scan state second <;> rfl
  | cons c first ih =>
      simp only [List.cons_append, scan]
      cases state.next c with
      | none => rfl
      | some step =>
          obtain ⟨complete, middle⟩ := step
          simp only [Option.bind_eq_bind, Option.bind_some, ih]
          cases scan middle first with
          | none => rfl
          | some step' =>
              obtain ⟨complete', middle'⟩ := step'
              simp only [Option.bind_some]
              cases hrest : scan middle' second <;> simp [hrest]

theorem tokens?_eq_some_iff {text : String} {tokens : List Token} :
    tokens? text = some tokens ↔ ∃ complete state pending,
      scan .idle text.toList = some (complete, state) ∧ state.finish = some pending ∧
      tokens = complete ++ pending := by
  unfold tokens?
  constructor
  · intro h
    obtain ⟨⟨complete, state⟩, hscan, h⟩ := Option.bind_eq_some_iff.1 h
    obtain ⟨pending, hpending, h⟩ := Option.bind_eq_some_iff.1 h
    exact ⟨complete, state, pending, hscan, hpending, (Option.some.inj h).symm⟩
  · rintro ⟨complete, state, pending, hscan, hpending, rfl⟩
    simp [hscan, hpending]

def isStop (c : Char) : Bool := [' ', ',', '.', ')'].contains c

theorem isDigit_of_mem_toString {n : Nat} {c : Char} (h : c ∈ (toString n).toList) :
    c.isDigit = true := by
  rw [show toString n = n.repr from rfl, Nat.toList_repr] at h
  exact Nat.isDigit_of_mem_toDigits (by decide) (by decide) h

theorem isWordChar_of_isStop {c : Char} (h : isStop c = true) : isWordChar c = false := by
  simp only [isStop, List.contains_iff_mem, List.mem_cons, List.not_mem_nil, or_false] at h
  rcases h with rfl | rfl | rfl | rfl <;> decide

theorem next_of_isStop {state : Scan} {pending : List Token} {c : Char}
    (hpending : state.finish = some pending) (hc : isStop c = true) :
    state.next c = (Scan.start c).map fun (tokens, after) => (pending ++ tokens, after) := by
  have hword := isWordChar_of_isStop hc
  have hsign : c ≠ '@' := by
    rintro rfl
    exact absurd hc (by decide)
  cases state with
  | idle =>
      obtain rfl := Option.some.inj hpending
      cases hstart : Scan.start c <;> simp [Scan.next, hstart]
  | word chars =>
      obtain rfl := Option.some.inj hpending
      simp [Scan.next, hword, Scan.startAfter]
  | parameter chars =>
      obtain rfl := Option.some.inj hpending
      simp [Scan.next, hword, hsign, Scan.startAfter]
  | quoted chars => cases hpending
  | escaped chars => cases hpending
  | sign first => cases hpending

def StartsWithStop (text : String) : Prop :=
  ∃ c rest, text.toList = c :: rest ∧ isStop c = true

theorem scan_append_of_stop {first second : String} {tokens tokens' : List Token} {state : Scan}
    (hfirst : tokens? first = some tokens)
    (hsecond : scan .idle second.toList = some (tokens', state))
    (hstop : StartsWithStop second) :
    scan .idle (first ++ second).toList = some (tokens ++ tokens', state) := by
  obtain ⟨complete, middle, pending, hscan, hpending, rfl⟩ := tokens?_eq_some_iff.1 hfirst
  obtain ⟨c, rest, hchars, hc⟩ := hstop
  rw [String.toList_append, scan_append, hscan, Option.bind_some]
  rw [hchars] at hsecond ⊢
  simp only [scan, next_of_isStop hpending hc] at hsecond ⊢
  obtain ⟨⟨begun, after⟩, hstart, hrest⟩ := Option.bind_eq_some_iff.1 hsecond
  rw [show Scan.next .idle c = Scan.start c from rfl] at hstart
  simp only [hstart, Option.map_some, Option.bind_eq_bind, Option.bind_some]
  obtain ⟨⟨others, last⟩, hothers, hrest⟩ := Option.bind_eq_some_iff.1 hrest
  obtain ⟨rfl, rfl⟩ := Prod.mk.inj (Option.some.inj hrest)
  simp [hothers]

theorem tokens?_of_scan {text : String} {tokens : List Token}
    (h : scan .idle text.toList = some (tokens, .idle)) : tokens? text = some tokens :=
  tokens?_eq_some_iff.2 ⟨tokens, .idle, [], h, rfl, (List.append_nil _).symm⟩

theorem tokens?_append {first second : String} {tokens tokens' : List Token}
    (hfirst : tokens? first = some tokens) (hsecond : tokens? second = some tokens')
    (hstop : StartsWithStop second) : tokens? (first ++ second) = some (tokens ++ tokens') := by
  obtain ⟨complete, state, pending, hscan, hpending, rfl⟩ := tokens?_eq_some_iff.1 hsecond
  rw [tokens?_eq_some_iff]
  refine ⟨tokens ++ complete, state, pending, ?_, hpending, by simp⟩
  exact scan_append_of_stop hfirst hscan hstop

/-- A text that leaves nothing begun may stand before any other. -/
theorem tokens?_append_of_idle {first second : String} {tokens tokens' : List Token}
    (hfirst : scan .idle first.toList = some (tokens, .idle))
    (hsecond : tokens? second = some tokens') :
    tokens? (first ++ second) = some (tokens ++ tokens') := by
  obtain ⟨complete, state, pending, hscan, hpending, rfl⟩ := tokens?_eq_some_iff.1 hsecond
  rw [tokens?_eq_some_iff]
  refine ⟨tokens ++ complete, state, pending, ?_, hpending, by simp⟩
  rw [String.toList_append, scan_append, hfirst, Option.bind_some]
  dsimp only
  rw [hscan]
  rfl

/-! ## Texts between fixed ones -/

section

variable {left right head middle close : String}
variable {leftTokens rightTokens headTokens middleTokens closeTokens : List Token}

theorem tokens?_infix (hleft : tokens? left = some leftTokens)
    (hmiddle : scan .idle middle.toList = some (middleTokens, .idle))
    (hstop : StartsWithStop middle) (hright : tokens? right = some rightTokens) :
    tokens? (left ++ middle ++ right) = some (leftTokens ++ middleTokens ++ rightTokens) :=
  tokens?_append_of_idle (scan_append_of_stop hleft hmiddle hstop) hright

theorem scan_between (hhead : scan .idle head.toList = some (headTokens, .idle))
    (hleft : tokens? left = some leftTokens)
    (hclose : scan .idle close.toList = some (closeTokens, .idle))
    (hstop : StartsWithStop close) :
    scan .idle (head ++ left ++ close).toList
      = some (headTokens ++ leftTokens ++ closeTokens, .idle) :=
  scan_append_of_stop (tokens?_append_of_idle hhead hleft) hclose hstop

end

end DocGraph.Aql
