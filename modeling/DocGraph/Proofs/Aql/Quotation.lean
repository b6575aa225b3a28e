import DocGraph.Proofs.Aql.Quoted
import DocGraph.Proofs.Aql.References
/-!
# Where a query text quotes names

The text of a program quotes the names of the attributes that its conditions, sorts and rows are
about, and those of the keys of a row.  Whoever reads it from the front comes to each of them
outside of all other names, and can read it there.
-/

namespace DocGraph.Aql

/-! ## Parts of a text -/

/-- A part of a text that quotes names. -/
inductive Quotation where
  | access (access : Access)
  | key (name : String)

namespace Quotation

def text : Quotation → String
  | access a => a.text
  | key name => quote name ++ ":"

def names : Quotation → List String
  | access a => a.path
  | key name => [name]

def IsNamed : Quotation → Prop
  | access a => isVariable a.base = true
  | key _ => True

def IsAmong (accesses : List Access) (part : Quotation) : Prop :=
  ∃ a ∈ accesses, part = .access a

end Quotation

def IsClosed (text : String) : Prop := (quotedNames? text.toList).isSome

/-- Whether a text has a part outside of all quoted names, which no text behind it goes on with. -/
def Shows (text part : String) : Prop :=
  ∀ rest, IsBehind rest → ∃ before after, text ++ rest = before ++ part ++ after ∧
    IsClosed before ∧ IsBehind after

theorem shows_self (text : String) : Shows text text := by
  intro rest hrest
  exact ⟨"", rest, by simp, by simp [IsClosed, quotedNames?], hrest⟩

theorem Shows.append {text part : String} (h : Shows text part) {second : String}
    (hsecond : StartsWithGap second) : Shows (text ++ second) part := by
  intro rest _
  obtain ⟨before, after, htext, hbefore, hafter⟩ := h (second ++ rest) (.inr (hsecond.append rest))
  exact ⟨before, after, by rw [String.append_assoc, htext], hbefore, hafter⟩

theorem Shows.prepend {text part : String} (h : Shows text part) {first : String}
    (hfirst : IsClosed first) : Shows (first ++ text) part := by
  intro rest hrest
  obtain ⟨before, after, htext, hbefore, hafter⟩ := h rest hrest
  refine ⟨first ++ before, after, ?_, ?_, hafter⟩
  · simp only [String.append_assoc] at htext ⊢
    rw [htext]
  · obtain ⟨names, hnames⟩ := Option.isSome_iff_exists.1 hfirst
    rw [IsClosed, String.toList_append, quotedNames?_append hnames, Option.isSome_map]
    exact hbefore

/-! ## Texts without quotes -/

def IsUnquoted (text : String) : Prop := '\x60' ∉ text.toList

instance (text : String) : Decidable (IsUnquoted text) :=
  inferInstanceAs (Decidable ('\x60' ∉ text.toList))

theorem IsUnquoted.append {first second : String} (h : IsUnquoted first)
    (h' : IsUnquoted second) : IsUnquoted (first ++ second) := by
  unfold IsUnquoted at *
  simp [h, h']

theorem isUnquoted_intercalate {separator : String} {texts : List String}
    (hseparator : IsUnquoted separator) (h : ∀ text ∈ texts, IsUnquoted text) :
    IsUnquoted (separator.intercalate texts) := by
  intro hmem
  rw [String.toList_intercalate] at hmem
  rcases mem_intercalate hmem with hmem | ⟨chars, hchars, hmem⟩
  · exact hseparator hmem
  · obtain ⟨text, htext, rfl⟩ := List.mem_map.1 hchars
    exact h text htext hmem

theorem isUnquoted_of_isWordChar {text : String} (h : ∀ c ∈ text.toList, isWordChar c = true) :
    IsUnquoted text := by
  intro hmem
  exact absurd (h _ hmem) (by decide)

theorem isUnquoted_variable {name : String} (h : isVariable name = true) : IsUnquoted name :=
  isUnquoted_of_isWordChar (isWordChar_of_isVariable h)

theorem isUnquoted_number (n : Nat) : IsUnquoted (toString n) :=
  isUnquoted_of_isWordChar fun _ => isWordChar_of_mem_digits

theorem isUnquoted_parameter (p : Parameter) : IsUnquoted p.text := by
  have hword : '\x60' ∉ p.word := fun hmem => absurd (isWordChar_of_mem_word hmem) (by decide)
  unfold IsUnquoted Parameter.text
  rw [String.toList_append, toList_key]
  cases p.kind.namesCollection <;> simpa using hword

/-! ## What a text quotes -/

/-- Some parts of a text, outside of which it quotes no names. -/
structure Quotes (text : String) (parts : Quotation → Prop) : Prop where
  quoted : ∃ names, quotedNames? text.toList = some names ∧
    ∀ name ∈ names, ∃ part, parts part ∧ name ∈ part.names
  shown : ∀ part, parts part → Shows text part.text

variable {text first second : String} {parts parts' : Quotation → Prop}

theorem Quotes.isClosed (h : Quotes text parts) : IsClosed text := by
  obtain ⟨names, hnames, _⟩ := h.quoted
  rw [IsClosed, hnames]
  rfl

theorem Quotes.congr (h : Quotes text parts) (hparts : ∀ part, parts' part ↔ parts part) :
    Quotes text parts' := by
  obtain rfl : parts' = parts := funext fun part => propext (hparts part)
  exact h

theorem quotes_unquoted (h : IsUnquoted text) : Quotes text fun _ => False where
  quoted := ⟨[], quotedNames?_of_not_mem h, by simp⟩
  shown := by simp

theorem Quotes.join (h : Quotes first parts) (h' : Quotes second parts')
    (hfirst : ∀ part, parts part → StartsWithGap second) :
    Quotes (first ++ second) fun part => parts part ∨ parts' part := by
  constructor
  · obtain ⟨names, hnames, hall⟩ := h.quoted
    obtain ⟨names', hnames', hall'⟩ := h'.quoted
    refine ⟨names ++ names', ?_, fun name hname => ?_⟩
    · rw [String.toList_append, quotedNames?_append hnames, hnames', Option.map_some]
    · rcases List.mem_append.1 hname with hname | hname
      · obtain ⟨part, hpart, hmem⟩ := hall name hname
        exact ⟨part, .inl hpart, hmem⟩
      · obtain ⟨part, hpart, hmem⟩ := hall' name hname
        exact ⟨part, .inr hpart, hmem⟩
  · rintro part (hpart | hpart)
    · exact (h.shown part hpart).append (hfirst part hpart)
    · exact (h'.shown part hpart).prepend h.isClosed

/-- Texts one after the other; the second one begins where the first one is at its end. -/
theorem Quotes.append (h : Quotes first parts) (h' : Quotes second parts')
    (hgap : StartsWithGap second) :
    Quotes (first ++ second) fun part => parts part ∨ parts' part :=
  h.join h' fun _ _ => hgap

theorem Quotes.behind (h : Quotes second parts) (hunquoted : IsUnquoted first) :
    Quotes (first ++ second) parts :=
  ((quotes_unquoted hunquoted).join h fun _ => False.elim).congr (by simp)

theorem Quotes.before (h : Quotes first parts) (hunquoted : IsUnquoted second)
    (hgap : StartsWithGap second) : Quotes (first ++ second) parts :=
  (h.append (quotes_unquoted hunquoted) hgap).congr (by simp)

theorem Quotes.between (h : Quotes first parts) {middle : String}
    (hunquoted : IsUnquoted middle) (hgap : StartsWithGap middle)
    (h' : Quotes second parts') :
    Quotes (first ++ middle ++ second) fun part => parts part ∨ parts' part := by
  rw [String.append_assoc]
  exact h.append (h'.behind hunquoted) (hgap.append second)

theorem quotes_list {β : Type} {separator : String} (hunquoted : IsUnquoted separator)
    (hgap : StartsWithGap separator) {text : β → String} {parts : β → Quotation → Prop}
    {items : List β} (h : ∀ item ∈ items, Quotes (text item) (parts item)) :
    Quotes (separator.intercalate (items.map text)) fun part =>
      ∃ item ∈ items, parts item part := by
  induction items with
  | nil => exact (quotes_unquoted (isUnquoted_intercalate hunquoted (by simp))).congr (by simp)
  | cons item items ih =>
      obtain ⟨hitem, hitems⟩ := List.forall_mem_cons.1 h
      cases items with
      | nil => simpa using hitem
      | cons next items =>
          rw [List.map_cons, List.map_cons, String.intercalate_cons_cons]
          exact (hitem.between hunquoted hgap (ih hitems)).congr (by simp)

/-! ## Attributes and keys -/

theorem quotedNames?_pathText (path : List String) :
    quotedNames? (pathText path).toList = some path := by
  induction path with
  | nil => exact quotedNames?_of_not_mem (by simp [pathText])
  | cons name path ih =>
      have hchars : (pathText (name :: path)).toList =
          '.' :: ((quote name).toList ++ (pathText path).toList) := by
        simp [pathText_cons]
      rw [hchars, quotedNames?_cons_of_ne (by decide), quotedNames?_quote, ih]
      rfl

theorem quotedNames?_quotation {part : Quotation} (h : part.IsNamed) (rest : List Char) :
    quotedNames? (part.text.toList ++ rest) = (quotedNames? rest).map (part.names ++ ·) := by
  cases part with
  | access a =>
      change quotedNames? ((a.base ++ pathText a.path).toList ++ rest) = _
      have hbase := quotedNames?_of_not_mem (isUnquoted_variable h)
      rw [String.toList_append, List.append_assoc, quotedNames?_append hbase,
        quotedNames?_append (quotedNames?_pathText a.path), Option.map_map]
      rfl
  | key name =>
      rw [Quotation.text, String.toList_append, List.append_assoc, quotedNames?_quote]
      exact congrArg _ (quotedNames?_cons_of_ne (by decide) rest)

theorem quotes_self (part : Quotation) (h : part.IsNamed) : Quotes part.text (· = part) := by
  constructor
  · refine ⟨part.names, ?_, fun name hname => ⟨part, rfl, hname⟩⟩
    have hnames := quotedNames?_quotation h []
    rw [List.append_nil] at hnames
    rw [hnames, quotedNames?]
    simp
  · rintro _ rfl
    exact shows_self _

theorem quotes_access {access : Access} (h : isVariable access.base = true) :
    Quotes access.text (· = .access access) :=
  quotes_self (.access access) h

theorem quotes_key (name : String) : Quotes (quote name ++ ":") (· = .key name) :=
  quotes_self (.key name) trivial

theorem quotes_term {term : Term} (h : term.IsNamed) :
    Quotes term.text (Quotation.IsAmong term.accesses) := by
  cases term with
  | parameter p =>
      exact (quotes_unquoted (isUnquoted_parameter p)).congr
        (by simp [Term.accesses, Quotation.IsAmong])
  | access a => exact (quotes_access h).congr (by simp [Term.accesses, Quotation.IsAmong])

/-! ## Conditions -/

theorem quotes_compare (isList : Bool) (operator : Operator) (hfirst : Quotes first parts)
    (hsecond : Quotes second parts') :
    Quotes (compareText isList operator first second) fun part => parts part ∨ parts' part := by
  have hinfix : ∀ middle : String, IsUnquoted middle → StartsWithGap middle →
      Quotes (first ++ middle ++ second) fun part => parts part ∨ parts' part :=
    fun middle hunquoted hgap => hfirst.between hunquoted hgap hsecond
  have hflipped : ∀ middle : String, IsUnquoted middle → StartsWithGap middle →
      Quotes (second ++ middle ++ first) fun part => parts part ∨ parts' part :=
    fun middle hunquoted hgap => (hsecond.between hunquoted hgap hfirst).congr fun _ => or_comm
  have hcall : ∀ head : String, IsUnquoted head →
      Quotes (head ++ first ++ ", " ++ second ++ ")") fun part => parts part ∨ parts' part :=
    fun head hunquoted => ((hfirst.behind hunquoted).between (by decide) ⟨',', _, rfl, rfl⟩
      hsecond).before (by decide) ⟨')', _, rfl, rfl⟩
  cases operator with
  | eq => exact hinfix _ (by decide) ⟨' ', _, rfl, rfl⟩
  | ne => exact hinfix _ (by decide) ⟨' ', _, rfl, rfl⟩
  | gt => exact hinfix _ (by decide) ⟨' ', _, rfl, rfl⟩
  | gte => exact hinfix _ (by decide) ⟨' ', _, rfl, rfl⟩
  | lt => exact hinfix _ (by decide) ⟨' ', _, rfl, rfl⟩
  | lte => exact hinfix _ (by decide) ⟨' ', _, rfl, rfl⟩
  | contains =>
      cases isList with
      | true => exact hflipped _ (by decide) ⟨' ', _, rfl, rfl⟩
      | false => exact hcall _ (by decide)
  | notContains =>
      cases isList with
      | true => exact hflipped _ (by decide) ⟨' ', _, rfl, rfl⟩
      | false => exact hcall _ (by decide)
  | startsWith => exact hcall _ (by decide)
  | endsWith =>
      have hlength : Quotes ("RIGHT(" ++ first ++ ", LENGTH(" ++ second) _ :=
        (hfirst.behind (by decide)).between (by decide) ⟨',', _, rfl, rfl⟩ hsecond
      have hboth := hlength.between (by decide : IsUnquoted ")) == ") ⟨')', _, rfl, rfl⟩ hsecond
      exact hboth.congr fun part => by rw [or_assoc, or_self]
  | anyOf => cases isList <;> exact hinfix _ (by decide) ⟨' ', _, rfl, rfl⟩
  | noneOf => cases isList <;> exact hinfix _ (by decide) ⟨' ', _, rfl, rfl⟩

theorem quotes_presence {access : Access} (h : isVariable access.base = true) (isPresent : Bool) :
    Quotes (Formula.presence access isPresent).text (· = .access access) := by
  cases isPresent with
  | true => exact (quotes_access h).before (by decide) ⟨' ', _, rfl, rfl⟩
  | false => exact (quotes_access h).before (by decide) ⟨' ', _, rfl, rfl⟩

theorem formulaTexts_eq_map (parts : List Formula) :
    formulaTexts parts = parts.map Formula.text := by
  induction parts with
  | nil => rfl
  | cons part parts ih => rw [formulaTexts, ih, List.map_cons]

theorem quotes_group (connective : Connective) {parts : List Formula}
    (h : ∀ part ∈ parts, Quotes part.text (Quotation.IsAmong part.accesses)) :
    Quotes (Formula.group connective parts).text
      (Quotation.IsAmong (formulaAccesses parts)) := by
  have hunquoted : IsUnquoted connective.text := by cases connective <;> decide
  have hgap : StartsWithGap connective.text := by
    cases connective <;> exact ⟨' ', _, rfl, rfl⟩
  have hlist := quotes_list hunquoted hgap h
  have hclosed : Quotes ("(" ++ connective.text.intercalate (parts.map Formula.text) ++ ")") _ :=
    (hlist.behind (by decide)).before (by decide) ⟨')', _, rfl, rfl⟩
  rw [Formula.text, formulaTexts_eq_map]
  refine hclosed.congr fun part => ?_
  simp only [Quotation.IsAmong, mem_formulaAccesses]
  grind

mutual
/-- A condition quotes the attributes that it is about, and nothing else. -/
theorem quotes_formula : (formula : Formula) → formula.IsNamed →
    Quotes formula.text (Quotation.IsAmong formula.accesses)
  | .truth p, _ =>
      (quotes_unquoted (isUnquoted_parameter p)).congr
        (by simp [Formula.accesses, Quotation.IsAmong])
  | .group connective parts, h => quotes_group connective (quotes_formulas parts h)
  | .negation part, h => by
      have hpart : Quotes ("NOT (" ++ part.text ++ ")") _ :=
        ((quotes_formula part h).behind (by decide)).before (by decide) ⟨')', _, rfl, rfl⟩
      exact hpart
  | .presence access isPresent, h =>
      (quotes_presence h isPresent).congr (by simp [Formula.accesses, Quotation.IsAmong])
  | .compare left isList operator right, h =>
      (quotes_compare isList operator (quotes_access h.1) (quotes_term h.2)).congr
        (by simp [Formula.accesses, Quotation.IsAmong])
termination_by structural formula => formula

theorem quotes_formulas : (parts : List Formula) → formulasAreNamed parts →
    ∀ part ∈ parts, Quotes part.text (Quotation.IsAmong part.accesses)
  | [], _ => by simp
  | part :: parts, h =>
      List.forall_mem_cons.2 ⟨quotes_formula part h.1, quotes_formulas parts h.2⟩
termination_by structural parts => parts
end

/-! ## Statements -/

theorem isUnquoted_edges (edges : TraversalEdges) : IsUnquoted edges.text := by
  cases edges with
  | graph p => exact IsUnquoted.append (by decide) (isUnquoted_parameter p)
  | collections ps =>
      refine isUnquoted_intercalate (by decide) fun text htext => ?_
      obtain ⟨p, _, rfl⟩ := List.mem_map.1 htext
      exact isUnquoted_parameter p

theorem isUnquoted_forEach {name : String} (p : Parameter) (h : isVariable name = true) :
    IsUnquoted (Statement.forEach name p).text := by
  have hhead : IsUnquoted ("FOR " ++ name) := .append (by decide) (isUnquoted_variable h)
  exact (hhead.append (by decide)).append (isUnquoted_parameter p)

theorem isUnquoted_limit (offset : Option Parameter) (count : Parameter) :
    IsUnquoted (Statement.limit offset count).text := by
  cases offset with
  | none => exact IsUnquoted.append (by decide) (isUnquoted_parameter count)
  | some offset =>
      have hhead : IsUnquoted ("LIMIT " ++ offset.text) :=
        .append (by decide) (isUnquoted_parameter offset)
      exact (hhead.append (by decide)).append (isUnquoted_parameter count)

theorem isUnquoted_traverse {vertex start : String} {edge? : Option String}
    (minDepth maxDepth : Nat) (direction : Direction) (edges : TraversalEdges)
    (h : (Statement.traverse vertex edge? minDepth maxDepth direction start edges).IsNamed) :
    IsUnquoted (Statement.traverse vertex edge? minDepth maxDepth direction start edges).text := by
  obtain ⟨hvertex, hedge, hstart⟩ := h
  have hkeyword : IsUnquoted direction.keyword := by cases direction <;> decide
  have hstep : IsUnquoted (", ".intercalate (vertex :: edge?.toList)) := by
    refine isUnquoted_intercalate (by decide) (List.forall_mem_cons.2 ⟨?_, fun edge h => ?_⟩)
    · exact isUnquoted_variable hvertex
    · exact isUnquoted_variable (hedge edge (Option.mem_toList.1 h))
  have hspace : IsUnquoted " " := by decide
  have hdots : IsUnquoted ".." := by decide
  have hhead : IsUnquoted ("FOR " ++ ", ".intercalate (vertex :: edge?.toList) ++ " IN ") :=
    .append (.append (by decide) hstep) (by decide)
  have hleast := hhead.append (isUnquoted_number minDepth)
  have hdepths := (hleast.append hdots).append (isUnquoted_number maxDepth)
  have hdirection := (hdepths.append hspace).append hkeyword
  have hwalk := (hdirection.append hspace).append (isUnquoted_variable hstart)
  exact (hwalk.append (by decide)).append (isUnquoted_edges edges)

end DocGraph.Aql
