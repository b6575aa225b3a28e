import DocGraph.Proofs.Aql.Grammar
/-!
# How programs are spelled

A program is written word by word: the words of a statement are fixed words with the words of its
parts between them.  They are read back from its text as long as its variables are variables.
-/

namespace DocGraph.Aql

/-! ## Lists with separators -/

section

variable {α : Type} {separator : List α} {a : α}

theorem intercalate_cons (separator part : List α) (parts : List (List α)) :
    separator.intercalate (part :: parts) = part ++ parts.flatMap (separator ++ ·) := by
  induction parts generalizing part with
  | nil => simp
  | cons next parts ih =>
      rw [List.intercalate_cons_cons, ih, List.flatMap_cons, List.append_assoc, List.append_assoc]

theorem map_intercalate {β : Type} (f : α → β) (separator : List α) (parts : List (List α)) :
    (separator.intercalate parts).map f
      = (separator.map f).intercalate (parts.map (List.map f)) := by
  cases parts with
  | nil => simp
  | cons part parts => simp [intercalate_cons, List.map_flatMap, List.flatMap_map]

theorem mem_intercalate {parts : List (List α)} (h : a ∈ separator.intercalate parts) :
    a ∈ separator ∨ ∃ part ∈ parts, a ∈ part := by
  cases parts with
  | nil => simp at h
  | cons part parts =>
      rw [intercalate_cons] at h
      rcases List.mem_append.1 h with h | h
      · exact .inr ⟨part, List.mem_cons_self, h⟩
      · obtain ⟨other, hother, h⟩ := List.mem_flatMap.1 h
        rcases List.mem_append.1 h with h | h
        · exact .inl h
        · exact .inr ⟨other, List.mem_cons_of_mem _ hother, h⟩

theorem mem_intercalate_iff (hseparator : a ∉ separator) {parts : List (List α)} :
    a ∈ separator.intercalate parts ↔ ∃ part ∈ parts, a ∈ part := by
  refine ⟨fun h => (mem_intercalate h).resolve_left hseparator, ?_⟩
  rintro ⟨part, hpart, h⟩
  cases parts with
  | nil => cases hpart
  | cons first parts =>
      rw [intercalate_cons]
      rcases List.mem_cons.1 hpart with rfl | hpart
      · exact List.mem_append_left _ h
      · exact List.mem_append_right _
          (List.mem_flatMap.2 ⟨part, hpart, List.mem_append_right _ h⟩)

end

/-! ## The words of a program -/

def Parameter.lexeme (p : Parameter) : Lexeme := .token (.parameter p.key)

def Access.lexemes (access : Access) : List Lexeme := access.tokens.map .token

def Formula.lexemes (formula : Formula) : List Lexeme := formula.tokens.map .token

abbrev comma : List Lexeme := [.token .comma]

def TraversalEdges.lexemes : TraversalEdges → List Lexeme
  | graph p => [keyword "GRAPH", p.lexeme]
  | collections ps => comma.intercalate (ps.map fun p => [p.lexeme])

def keyLexemes (key : Access × SortDirection) : List Lexeme :=
  key.1.lexemes ++ [keyword (directionText key.2)]

def stepLexemes (vertex : String) : Option String → List Lexeme
  | none => [variableNamed vertex]
  | some edge => [variableNamed vertex, .token .comma, variableNamed edge]

def Statement.lexemes : Statement → List Lexeme
  | forEach name collection =>
    [keyword "FOR", variableNamed name, keyword "IN", collection.lexeme]
  | filter condition => keyword "FILTER" :: condition.lexemes
  | sort keys => keyword "SORT" :: comma.intercalate (keys.map keyLexemes)
  | limit none count => [keyword "LIMIT", count.lexeme]
  | limit (some offset) count =>
    [keyword "LIMIT", offset.lexeme, .token .comma, count.lexeme]
  | traverse vertex edge? minDepth maxDepth direction start edges =>
    keyword "FOR" :: stepLexemes vertex edge? ++ [keyword "IN",
      .number (toString minDepth), .token .dot, .token .dot, .number (toString maxDepth),
      keyword direction.keyword, variableNamed start, .token .dot, variableNamed "_id"]
      ++ edges.lexemes

def RowSource.lexemes : RowSource → List Lexeme
  | access a => a.lexemes
  | document name => [variableNamed name]

def attributeLexemes (entry : String × RowSource) : List Lexeme :=
  [.token (.quoted entry.1), .colon] ++ entry.2.lexemes

def Result.lexemes : Result → List Lexeme
  | document name => [variableNamed name]
  | row attributes =>
    .braceOpening :: comma.intercalate (attributes.map attributeLexemes) ++ [.braceClosing]

def Program.lexemes (program : Program) : List Lexeme :=
  program.statements.flatMap Statement.lexemes ++ keyword "RETURN" :: program.result.lexemes

/-! ## Variables -/

def Statement.IsNamed : Statement → Prop
  | forEach name _ => isVariable name = true
  | filter condition => condition.IsNamed
  | sort keys => ∀ key ∈ keys, isVariable key.1.base = true
  | limit _ _ => True
  | traverse vertex edge? _ _ _ start _ =>
    isVariable vertex = true ∧ (∀ edge, edge? = some edge → isVariable edge = true) ∧
      isVariable start = true

def RowSource.IsNamed : RowSource → Prop
  | access a => isVariable a.base = true
  | document name => isVariable name = true

def Result.IsNamed : Result → Prop
  | document name => isVariable name = true
  | row attributes => ∀ entry ∈ attributes, entry.2.IsNamed

structure Program.IsNamed (program : Program) : Prop where
  statements : ∀ statement ∈ program.statements, statement.IsNamed
  result : program.result.IsNamed

/-! ## Words that are read back -/

theorem lexemes?_variable {name : String} (h : isVariable name = true) :
    lexemes? name = some [variableNamed name] :=
  lexemes?_of_tokens? (tokens?_variable h)

theorem lexemes?_parameter (p : Parameter) : lexemes? p.text = some [p.lexeme] :=
  lexemes?_of_tokens? (tokens?_parameter p)

theorem lexemes?_access {access : Access} (h : isVariable access.base = true) :
    lexemes? access.text = some access.lexemes :=
  lexemes?_of_tokens? (tokens?_access h)

theorem lex_comma : lex .idle ", ".toList = some (comma, .idle) := rfl

theorem startsWithBreak_comma : StartsWithBreak ", " := ⟨',', [' '], rfl, rfl⟩

theorem lexemes?_spaced {first second : String} {words words' : List Lexeme}
    (hfirst : lexemes? first = some words) (hsecond : lexemes? second = some words') :
    lexemes? (first ++ " " ++ second) = some (words ++ words') := by
  have hspace : lex .idle " ".toList = some ([], .idle) := rfl
  have hread := lexemes?_infix hfirst hspace ⟨' ', [], rfl, rfl⟩ hsecond
  rw [List.append_nil] at hread
  exact hread

theorem lexemes?_list {β : Type} {text : β → String} {words : β → List Lexeme} {items : List β}
    (h : ∀ item ∈ items, lexemes? (text item) = some (words item)) :
    lexemes? (", ".intercalate (items.map text)) = some (comma.intercalate (items.map words)) := by
  induction items with
  | nil => rfl
  | cons item items ih =>
      obtain ⟨hitem, hitems⟩ := List.forall_mem_cons.1 h
      cases items with
      | nil => simpa using hitem
      | cons next items =>
          have hrest := ih hitems
          simp only [List.map_cons, String.intercalate_cons_cons,
            List.intercalate_cons_cons] at hrest ⊢
          exact lexemes?_infix hitem lex_comma startsWithBreak_comma hrest

/-! ## Statements -/

theorem lexemes?_forEach {name : String} (p : Parameter) (hname : isVariable name = true) :
    lexemes? (Statement.forEach name p).text = some (Statement.forEach name p).lexemes := by
  have hfor : lex .idle "FOR ".toList = some ([keyword "FOR"], .idle) := rfl
  have hin : lex .idle " IN ".toList = some ([keyword "IN"], .idle) := rfl
  have hhead := lexemes?_append_of_idle hfor (lexemes?_variable hname)
  exact lexemes?_infix hhead hin ⟨' ', _, rfl, rfl⟩ (lexemes?_parameter p)

theorem lexemes?_filter {formula : Formula} (h : formula.IsNamed) :
    lexemes? (Statement.filter formula).text = some (Statement.filter formula).lexemes := by
  have hword : lex .idle "FILTER ".toList = some ([keyword "FILTER"], .idle) := rfl
  exact lexemes?_append_of_idle hword (lexemes?_of_tokens? (tokens?_formula formula h))

theorem lexemes?_key {key : Access × SortDirection} (h : isVariable key.1.base = true) :
    lexemes? (key.1.text ++ " " ++ directionText key.2) = some (keyLexemes key) := by
  have hdirection : lexemes? (directionText key.2) = some [keyword (directionText key.2)] := by
    cases key.2 <;> rfl
  exact lexemes?_spaced (lexemes?_access h) hdirection

theorem lexemes?_sort {keys : List (Access × SortDirection)}
    (h : ∀ key ∈ keys, isVariable key.1.base = true) :
    lexemes? (Statement.sort keys).text = some (Statement.sort keys).lexemes := by
  have hword : lex .idle "SORT ".toList = some ([keyword "SORT"], .idle) := rfl
  exact lexemes?_append_of_idle hword (lexemes?_list fun key hkey => lexemes?_key (h key hkey))

theorem lexemes?_limit (offset : Option Parameter) (count : Parameter) :
    lexemes? (Statement.limit offset count).text
      = some (Statement.limit offset count).lexemes := by
  have hword : lex .idle "LIMIT ".toList = some ([keyword "LIMIT"], .idle) := rfl
  cases offset with
  | none => exact lexemes?_append_of_idle hword (lexemes?_parameter count)
  | some offset =>
      have hhead := lexemes?_append_of_idle hword (lexemes?_parameter offset)
      exact lexemes?_infix hhead lex_comma startsWithBreak_comma (lexemes?_parameter count)

theorem lexemes?_edges (edges : TraversalEdges) : lexemes? edges.text = some edges.lexemes := by
  cases edges with
  | graph p =>
      have hword : lex .idle "GRAPH ".toList = some ([keyword "GRAPH"], .idle) := rfl
      exact lexemes?_append_of_idle hword (lexemes?_parameter p)
  | collections ps => exact lexemes?_list fun p _ => lexemes?_parameter p

theorem lexemes?_step {vertex : String} {edge? : Option String} (hvertex : isVariable vertex = true)
    (hedge : ∀ edge, edge? = some edge → isVariable edge = true) :
    lexemes? (", ".intercalate (vertex :: edge?.toList)) = some (stepLexemes vertex edge?) := by
  cases edge? with
  | none => exact lexemes?_variable hvertex
  | some edge =>
      exact lexemes?_infix (lexemes?_variable hvertex) lex_comma startsWithBreak_comma
        (lexemes?_variable (hedge edge rfl))

theorem lexemes?_traverse {vertex start : String} {edge? : Option String} (minDepth maxDepth : Nat)
    (direction : Direction) (edges : TraversalEdges) (hvertex : isVariable vertex = true)
    (hedge : ∀ edge, edge? = some edge → isVariable edge = true)
    (hstart : isVariable start = true) :
    lexemes? (Statement.traverse vertex edge? minDepth maxDepth direction start edges).text =
      some (Statement.traverse vertex edge? minDepth maxDepth direction start edges).lexemes := by
  have hkeyword : lexemes? direction.keyword = some [keyword direction.keyword] := by
    cases direction <;> rfl
  have hfor : lex .idle "FOR ".toList = some ([keyword "FOR"], .idle) := rfl
  have hin : lex .idle " IN ".toList = some ([keyword "IN"], .idle) := rfl
  have hdots : lex .idle "..".toList = some ([.token .dot, .token .dot], .idle) := rfl
  have hid : lex .idle "._id ".toList = some ([.token .dot, variableNamed "_id"], .idle) := rfl
  have h₁ := lexemes?_append_of_idle hfor (lexemes?_step hvertex hedge)
  have h₂ := lexemes?_infix h₁ hin ⟨' ', _, rfl, rfl⟩ (lexemes?_number minDepth)
  have h₃ := lexemes?_infix h₂ hdots ⟨'.', _, rfl, rfl⟩ (lexemes?_number maxDepth)
  have h₄ := lexemes?_spaced h₃ hkeyword
  have h₅ := lexemes?_spaced h₄ (lexemes?_variable hstart)
  have h₆ := lexemes?_infix h₅ hid ⟨'.', _, rfl, rfl⟩ (lexemes?_edges edges)
  refine h₆.trans ?_
  simp [Statement.lexemes]

theorem lexemes?_statement {statement : Statement} (h : statement.IsNamed) :
    lexemes? statement.text = some statement.lexemes := by
  cases statement with
  | forEach name collection => exact lexemes?_forEach collection h
  | filter condition => exact lexemes?_filter h
  | sort keys => exact lexemes?_sort h
  | limit offset count => exact lexemes?_limit offset count
  | traverse vertex edge? minDepth maxDepth direction start edges =>
      exact lexemes?_traverse minDepth maxDepth direction edges h.1 h.2.1 h.2.2

/-! ## Programs -/

theorem lexemes?_attribute {entry : String × RowSource} (h : entry.2.IsNamed) :
    lexemes? (quote entry.1 ++ ": " ++ entry.2.text) = some (attributeLexemes entry) := by
  obtain ⟨name, source⟩ := entry
  have hcolon : lex .idle ": ".toList = some ([.colon], .idle) := rfl
  have hhead : lex .idle (quote name ++ ": ").toList
      = some ([.token (.quoted name), .colon], .idle) := by
    rw [String.toList_append]
    exact lex_append (lex_of_scan (scan_quote name)) hcolon
  cases source with
  | access a => exact lexemes?_append_of_idle hhead (lexemes?_access h)
  | document var => exact lexemes?_append_of_idle hhead (lexemes?_variable h)

theorem lexemes?_result {result : Result} (h : result.IsNamed) :
    lexemes? result.text = some result.lexemes := by
  cases result with
  | document name => exact lexemes?_variable h
  | row attributes =>
      have hopening : lex .idle "\x7b".toList = some ([.braceOpening], .idle) := rfl
      have hclosing : lex .idle "\x7d".toList = some ([.braceClosing], .idle) := rfl
      have hlist : lexemes? (", ".intercalate (attributes.map fun entry =>
          quote entry.1 ++ ": " ++ entry.2.text))
            = some (comma.intercalate (attributes.map attributeLexemes)) :=
        lexemes?_list fun entry hentry => lexemes?_attribute (h entry hentry)
      have hopened := lexemes?_append_of_idle hopening hlist
      exact lexemes?_of_lex (lex_append_of_break hopened hclosing ⟨'\x7d', _, rfl, rfl⟩)

theorem lexemes?_return {result : Result} (h : result.IsNamed) :
    lexemes? ("RETURN " ++ result.text) = some (keyword "RETURN" :: result.lexemes) := by
  have hword : lex .idle "RETURN ".toList = some ([keyword "RETURN"], .idle) := rfl
  exact lexemes?_append_of_idle hword (lexemes?_result h)

theorem Program.text_cons (statement : Statement) (statements : List Statement)
    (result : Result) :
    Program.text ⟨statement :: statements, result⟩
      = statement.text ++ " " ++ Program.text ⟨statements, result⟩ := by
  change " ".intercalate (statement.text :: (statements.map Statement.text
    ++ ["RETURN " ++ result.text])) = statement.text ++ " " ++ " ".intercalate
      (statements.map Statement.text ++ ["RETURN " ++ result.text])
  cases statements with
  | nil => exact String.intercalate_cons_cons
  | cons next statements => exact String.intercalate_cons_cons

def statementsText (statements : List Statement) : String :=
  String.join (statements.map fun statement => statement.text ++ " ")

theorem statementsText_cons (statement : Statement) (statements : List Statement) :
    statementsText (statement :: statements)
      = statement.text ++ " " ++ statementsText statements := by
  simp [statementsText]

theorem Program.text_eq (statements : List Statement) (result : Result) :
    Program.text ⟨statements, result⟩
      = statementsText statements ++ ("RETURN " ++ result.text) := by
  induction statements with
  | nil => simp [statementsText, Program.text]
  | cons statement statements ih =>
      simp only [Program.text_cons, ih, statementsText_cons, String.append_assoc]

theorem lex_statements {statements : List Statement}
    (h : ∀ statement ∈ statements, statement.IsNamed) :
    lex .idle (statementsText statements).toList
      = some (statements.flatMap Statement.lexemes, .idle) := by
  induction statements with
  | nil => rfl
  | cons statement statements ih =>
      obtain ⟨hfirst, hrest⟩ := List.forall_mem_cons.1 h
      have hspace : lex .idle " ".toList = some ([], .idle) := rfl
      have hhead := lex_append_of_break (lexemes?_statement hfirst) hspace ⟨' ', [], rfl, rfl⟩
      rw [List.append_nil] at hhead
      rw [statementsText_cons, String.toList_append, List.flatMap_cons]
      exact lex_append hhead (ih hrest)

/-- The words of a program are read back from its text. -/
theorem lexemes?_program {program : Program} (h : program.IsNamed) :
    lexemes? program.text = some program.lexemes := by
  obtain ⟨statements, result⟩ := program
  rw [Program.text_eq]
  exact lexemes?_append_of_idle (lex_statements h.statements) (lexemes?_return h.result)

end DocGraph.Aql
