import DocGraph.Proofs.Aql.Token
/-!
# Reading the words of a program

Outside its conditions a program also has numbers, braces and colons.  Its reader goes on like
the reader of conditions as long as that one can, so the words of a condition stay what they are
when the condition stands in a program.
-/

namespace DocGraph.Aql

inductive Lexeme where
  | token (token : Token)
  | number (digits : String)
  | braceOpening
  | braceClosing
  | colon
deriving DecidableEq

inductive Lex where
  | plain (scan : Scan)
  | number (digits : List Char)

namespace Lex

abbrev idle : Lex := plain .idle

/-- The lexemes that a character completes when nothing has been begun, and what it begins. -/
def start (c : Char) : Option (List Lexeme × Lex) :=
  if c.isDigit then some ([], number [c])
  else if c = '\x7b' then some ([.braceOpening], idle)
  else if c = '\x7d' then some ([.braceClosing], idle)
  else if c = ':' then some ([.colon], idle)
  else (Scan.start c).map fun (tokens, scan) => (tokens.map .token, plain scan)

def startAfter (pending : List Lexeme) (c : Char) : Option (List Lexeme × Lex) :=
  (start c).map fun (lexemes, after) => (pending ++ lexemes, after)

def finish : Lex → Option (List Lexeme)
  | plain scan => scan.finish.map fun tokens => tokens.map .token
  | number digits => some [.number (String.ofList digits)]

def next : Lex → Char → Option (List Lexeme × Lex)
  | plain scan, c =>
    match scan.next c with
    | some (tokens, after) => some (tokens.map .token, plain after)
    | none => (plain scan).finish.bind fun pending => startAfter pending c
  | number digits, c =>
    if c.isDigit then some ([], number (digits ++ [c]))
    else startAfter [.number (String.ofList digits)] c

end Lex

def lex : Lex → List Char → Option (List Lexeme × Lex)
  | state, [] => some ([], state)
  | state, c :: chars => do
    let (first, state) ← state.next c
    let (rest, state) ← lex state chars
    return (first ++ rest, state)

def lexemes? (text : String) : Option (List Lexeme) := do
  let (complete, state) ← lex .idle text.toList
  return complete ++ (← state.finish)

/-! ## Reading one text after the other -/

theorem lex_cons_eq_some_iff {state after : Lex} {c : Char} {chars : List Char}
    {lexemes : List Lexeme} :
    lex state (c :: chars) = some (lexemes, after) ↔ ∃ first middle rest,
      state.next c = some (first, middle) ∧ lex middle chars = some (rest, after) ∧
      lexemes = first ++ rest := by
  constructor
  · intro h
    obtain ⟨⟨first, middle⟩, hfirst, h⟩ := Option.bind_eq_some_iff.1 h
    obtain ⟨⟨rest, last⟩, hrest, h⟩ := Option.bind_eq_some_iff.1 h
    obtain ⟨rfl, rfl⟩ := Prod.mk.inj (Option.some.inj h)
    exact ⟨first, middle, rest, hfirst, hrest, rfl⟩
  · rintro ⟨first, middle, rest, hfirst, hrest, rfl⟩
    simp [lex, hfirst, hrest]

theorem lex_append {state middle after : Lex} {first second : List Char}
    {lexemes lexemes' : List Lexeme} (hfirst : lex state first = some (lexemes, middle))
    (hsecond : lex middle second = some (lexemes', after)) :
    lex state (first ++ second) = some (lexemes ++ lexemes', after) := by
  induction first generalizing state lexemes with
  | nil =>
      obtain ⟨rfl, rfl⟩ := Prod.mk.inj (Option.some.inj hfirst)
      exact hsecond
  | cons c first ih =>
      obtain ⟨begun, between, rest, hnext, hrest, rfl⟩ := lex_cons_eq_some_iff.1 hfirst
      rw [List.cons_append, List.append_assoc]
      exact lex_cons_eq_some_iff.2 ⟨begun, between, rest ++ lexemes', hnext, ih hrest, rfl⟩

theorem lexemes?_eq_some_iff {text : String} {lexemes : List Lexeme} :
    lexemes? text = some lexemes ↔ ∃ complete state pending,
      lex .idle text.toList = some (complete, state) ∧ state.finish = some pending ∧
      lexemes = complete ++ pending := by
  constructor
  · intro h
    obtain ⟨⟨complete, state⟩, hlex, h⟩ := Option.bind_eq_some_iff.1 h
    obtain ⟨pending, hpending, h⟩ := Option.bind_eq_some_iff.1 h
    exact ⟨complete, state, pending, hlex, hpending, (Option.some.inj h).symm⟩
  · rintro ⟨complete, state, pending, hlex, hpending, rfl⟩
    simp [lexemes?, hlex, hpending]

theorem lexemes?_of_lex {text : String} {lexemes : List Lexeme}
    (h : lex .idle text.toList = some (lexemes, .idle)) : lexemes? text = some lexemes :=
  lexemes?_eq_some_iff.2 ⟨lexemes, .idle, [], h, rfl, (List.append_nil _).symm⟩

/-- What the reader of conditions reads, the reader of programs reads in the same way. -/
theorem lex_of_scan {state after : Scan} {chars : List Char} {tokens : List Token}
    (h : scan state chars = some (tokens, after)) :
    lex (.plain state) chars = some (tokens.map .token, .plain after) := by
  induction chars generalizing state tokens with
  | nil =>
      obtain ⟨rfl, rfl⟩ := Prod.mk.inj (Option.some.inj h)
      rfl
  | cons c chars ih =>
      obtain ⟨⟨first, middle⟩, hfirst, h⟩ := Option.bind_eq_some_iff.1 h
      obtain ⟨⟨rest, last⟩, hrest, h⟩ := Option.bind_eq_some_iff.1 h
      obtain ⟨rfl, rfl⟩ := Prod.mk.inj (Option.some.inj h)
      have hnext : (Lex.plain state).next c = some (first.map .token, .plain middle) := by
        simp [Lex.next, hfirst]
      rw [List.map_append]
      exact lex_cons_eq_some_iff.2 ⟨_, _, _, hnext, ih hrest, rfl⟩

theorem lexemes?_of_tokens? {text : String} {tokens : List Token}
    (h : tokens? text = some tokens) : lexemes? text = some (tokens.map .token) := by
  obtain ⟨complete, state, pending, hscan, hpending, rfl⟩ := tokens?_eq_some_iff.1 h
  rw [lexemes?_eq_some_iff]
  refine ⟨complete.map .token, .plain state, pending.map .token, lex_of_scan hscan, ?_, by simp⟩
  simp [Lex.finish, hpending]

/-! ## Where a lexeme ends -/

def isBreak (c : Char) : Bool := isStop c || c = '\x7d'

theorem isDigit_of_isBreak {c : Char} (h : isBreak c = true) : c.isDigit = false := by
  rcases Bool.or_eq_true_iff.1 h with h | h
  · have hword := isWordChar_of_isStop h
    simp only [isWordChar, Char.isAlphanum, Bool.or_eq_false_iff] at hword
    exact hword.1.2
  · rw [of_decide_eq_true h]
    decide

theorem start_of_isStop {c : Char} (h : isStop c = true) :
    Lex.start c = (Scan.start c).map fun (tokens, scan) => (tokens.map .token, .plain scan) := by
  simp only [isStop, List.contains_iff_mem, List.mem_cons, List.not_mem_nil, or_false] at h
  rcases h with rfl | rfl | rfl | rfl <;> rfl

theorem next_plain_of_isStop {scan : Scan} {tokens : List Token} {c : Char}
    (hpending : scan.finish = some tokens) (hc : isStop c = true) :
    (Lex.plain scan).next c = Lex.startAfter (tokens.map .token) c := by
  rw [Lex.next, next_of_isStop hpending hc, Lex.startAfter, start_of_isStop hc]
  -- No character that stops a word fails to begin something.
  simp only [isStop, List.contains_iff_mem, List.mem_cons, List.not_mem_nil, or_false] at hc
  rcases hc with rfl | rfl | rfl | rfl <;> simp [Scan.start]

theorem next_plain_braceClosing {scan : Scan} {pending : List Lexeme}
    (hpending : (Lex.plain scan).finish = some pending) :
    (Lex.plain scan).next '\x7d' = Lex.startAfter pending '\x7d' := by
  have hnone : scan.next '\x7d' = none := by
    cases scan with
    | idle => rfl
    | word chars => rfl
    | parameter chars => rfl
    | quoted chars => cases hpending
    | escaped chars => cases hpending
    | sign first => cases hpending
  rw [Lex.next, hnone]
  dsimp only
  rw [hpending, Option.bind_some]

theorem lex_next_of_isBreak {state : Lex} {pending : List Lexeme} {c : Char}
    (hpending : state.finish = some pending) (hc : isBreak c = true) :
    state.next c = Lex.startAfter pending c := by
  cases state with
  | number digits =>
      obtain rfl := Option.some.inj hpending
      rw [Lex.next, isDigit_of_isBreak hc]
      rfl
  | plain scan =>
      rcases Bool.or_eq_true_iff.1 hc with hstop | hbrace
      · obtain ⟨tokens, htokens, rfl⟩ := Option.map_eq_some_iff.1 hpending
        exact next_plain_of_isStop htokens hstop
      · rw [of_decide_eq_true hbrace]
        exact next_plain_braceClosing hpending

def StartsWithBreak (text : String) : Prop :=
  ∃ c rest, text.toList = c :: rest ∧ isBreak c = true

section

variable {first second third : String} {lexemes lexemes' lexemes'' : List Lexeme}

theorem lex_append_of_break {after : Lex} (hfirst : lexemes? first = some lexemes)
    (hsecond : lex .idle second.toList = some (lexemes', after)) (hbreak : StartsWithBreak second) :
    lex .idle (first ++ second).toList = some (lexemes ++ lexemes', after) := by
  obtain ⟨complete, middle, pending, hlex, hpending, rfl⟩ := lexemes?_eq_some_iff.1 hfirst
  obtain ⟨c, chars, hchars, hc⟩ := hbreak
  rw [hchars] at hsecond
  obtain ⟨begun, between, rest, hnext, hrest, rfl⟩ := lex_cons_eq_some_iff.1 hsecond
  have hidle : Lex.idle.next c = Lex.startAfter [] c := lex_next_of_isBreak rfl hc
  rw [hidle] at hnext
  obtain ⟨⟨begun', _⟩, hstart, hbegun⟩ := Option.map_eq_some_iff.1 hnext
  obtain ⟨rfl, rfl⟩ := Prod.mk.inj hbegun
  rw [String.toList_append, hchars, List.append_assoc, List.nil_append]
  apply lex_append hlex
  refine lex_cons_eq_some_iff.2 ⟨pending ++ begun', _, rest, ?_, hrest, by simp⟩
  rw [lex_next_of_isBreak hpending hc, Lex.startAfter, hstart]
  rfl

/-- A text that leaves nothing begun may stand before any other. -/
theorem lexemes?_append_of_idle (hfirst : lex .idle first.toList = some (lexemes, .idle))
    (hsecond : lexemes? second = some lexemes') :
    lexemes? (first ++ second) = some (lexemes ++ lexemes') := by
  obtain ⟨complete, state, pending, hlex, hpending, rfl⟩ := lexemes?_eq_some_iff.1 hsecond
  rw [lexemes?_eq_some_iff, String.toList_append]
  exact ⟨lexemes ++ complete, state, pending, lex_append hfirst hlex, hpending, by simp⟩

theorem lexemes?_infix (hfirst : lexemes? first = some lexemes)
    (hsecond : lex .idle second.toList = some (lexemes', .idle)) (hbreak : StartsWithBreak second)
    (hthird : lexemes? third = some lexemes'') :
    lexemes? (first ++ second ++ third) = some (lexemes ++ lexemes' ++ lexemes'') :=
  lexemes?_append_of_idle (lex_append_of_break hfirst hsecond hbreak) hthird

end

/-! ## Numbers -/

theorem start_of_isDigit {c : Char} (h : c.isDigit = true) : Scan.start c = none := by
  have hne : ∀ d : Char, d.isDigit = false → c ≠ d := by
    rintro d hd rfl
    rw [h] at hd
    cases hd
  have hletter : c.isAlpha = false := by
    have halpha : c.isAlpha = (decide ('A'.val ≤ c.val ∧ c.val ≤ 'Z'.val) ||
        decide ('a'.val ≤ c.val) && decide (c.val ≤ 'z'.val)) := rfl
    simp only [Char.isDigit, Bool.and_eq_true, decide_eq_true_eq, ge_iff_le,
      UInt32.le_iff_toNat_le] at h
    simp only [halpha, Bool.or_eq_false_iff, Bool.and_eq_false_iff, decide_eq_false_iff_not,
      UInt32.le_iff_toNat_le]
    have hnine : '9'.val.toNat < 'A'.val.toNat ∧ '9'.val.toNat < 'a'.val.toNat := by decide
    omega
  simp [Scan.start, hletter, hne]

theorem next_idle_of_isDigit {c : Char} (h : c.isDigit = true) :
    Lex.idle.next c = some ([], .number [c]) := by
  have hnone : Scan.next .idle c = none := start_of_isDigit h
  simp [Lex.next, hnone, Lex.finish, Scan.finish, Lex.startAfter, Lex.start, h]

theorem lex_digits {digits : List Char} (h : ∀ c ∈ digits, c.isDigit = true)
    (before : List Char) :
    lex (.number before) digits = some ([], .number (before ++ digits)) := by
  induction digits generalizing before with
  | nil => simp [lex]
  | cons c digits ih =>
      have hnext : (Lex.number before).next c = some ([], .number (before ++ [c])) := by
        simp [Lex.next, h c List.mem_cons_self]
      have hrest := ih (fun d hd => h d (List.mem_cons_of_mem _ hd)) (before ++ [c])
      rw [List.append_assoc, List.singleton_append] at hrest
      exact lex_cons_eq_some_iff.2 ⟨_, _, _, hnext, hrest, rfl⟩

theorem lexemes?_number (n : Nat) : lexemes? (toString n) = some [.number (toString n)] := by
  have hdigits : ∀ c ∈ (toString n).toList, c.isDigit = true := fun _ => isDigit_of_mem_toString
  cases hchars : (toString n).toList with
  | nil =>
      rw [show toString n = n.repr from rfl, Nat.toList_repr] at hchars
      exact absurd hchars Nat.toDigits_ne_nil
  | cons c rest =>
      rw [hchars] at hdigits
      have hnext := next_idle_of_isDigit (hdigits c List.mem_cons_self)
      have hrest := lex_digits (fun d hd => hdigits d (List.mem_cons_of_mem _ hd)) [c]
      rw [lexemes?_eq_some_iff]
      refine ⟨[], .number (c :: rest), _, ?_, rfl, ?_⟩
      · rw [hchars]
        exact lex_cons_eq_some_iff.2 ⟨_, _, _, hnext, hrest, rfl⟩
      · rw [← hchars, String.ofList_toList]
        rfl

/-! ## Texts that a production derives -/

/-- A text whose lexemes are as a production of a grammar says. -/
def Writes (production : List Lexeme → Prop) (text : String) : Prop :=
  ∃ lexemes, lexemes? text = some lexemes ∧ production lexemes

end DocGraph.Aql
