import DocGraph.Proofs.Outcome
import DocGraph.Proofs.Text.Parts
import DocGraph.Proofs.Text.Percent
import DocGraph.Record.Key
import Mathlib.Data.List.Forall2
/-!
# Computed keys tell records apart

A key is joined from the texts of the key fields.  As no part holds the colon between the parts, and
every part is read back from its escapes, two records get the same key only if they agree in the
text of each key field.  A key is made of safe characters and escapes, and it is empty only if it
is computed from one field, whose text is empty.
-/

namespace DocGraph

open Outcome

namespace Schema

theorem encodePart_injective : Function.Injective (Text.percentEncode isKeyPartChar) :=
  Text.percentEncode_injective (by decide)

theorem colon_notMem_part {texts : List String} :
    ∀ part ∈ texts.map (Text.percentEncode isKeyPartChar), ':' ∉ part.toList := by
  intro part hpart
  obtain ⟨text, _, rfl⟩ := List.mem_map.1 hpart
  exact Text.not_mem_percentEncode (by decide) (by decide) (by decide) text

theorem intercalate_eq_empty_iff {parts : List String} (h : parts ≠ []) :
    ":".intercalate parts = "" ↔ parts = [""] := by
  match parts with
  | [part] => simp
  | first :: second :: rest => simp [String.intercalate_cons_cons]

section

variable [CustomCodecs]

/-! ## Texts of key fields -/

/-- A record says a text in a field: it has a value there that is not null, and the value is written
as a string with this text or, if it is written as anything else, has it for its compact form. -/
def Says (schema : Schema) (record : Record) (name text : String) : Prop :=
  ∃ field value json, schema.field? name = some field ∧ record.get? name = .ok (some value) ∧
    value.isNull = false ∧ field.encode value = .ok json ∧ text = wireText json

variable {schema : Schema} {record first second : Record} {name text : String}

theorem Says.unique {other : String} (h : schema.Says record name text)
    (hother : schema.Says record name other) : text = other := by
  obtain ⟨field, value, json, hfield, hvalue, _, hjson, rfl⟩ := h
  obtain ⟨field', value', json', hfield', hvalue', _, hjson', rfl⟩ := hother
  obtain rfl := Option.some.inj (hfield.symm.trans hfield')
  obtain rfl := Option.some.inj (Except.ok.inj (hvalue.symm.trans hvalue'))
  obtain rfl := Except.ok.inj (hjson.symm.trans hjson')
  rfl

theorem keyPart_eq_ok_iff {part : String} :
    schema.keyPart record name = .ok part ↔
      ∃ text, schema.Says record name text ∧ part = Text.percentEncode isKeyPartChar text := by
  unfold keyPart Says
  cases hfield : schema.field? name with
  | none => simp
  | some field =>
      constructor
      · intro h
        obtain ⟨value?, hvalue, h⟩ := bind_eq_ok_iff.1 h
        cases value? with
        | none => simp at h
        | some value =>
            dsimp only at h
            split at h
            · simp at h
            · rename_i hnull
              obtain ⟨json, hjson, h⟩ := bind_eq_ok_iff.1 h
              have hsome : value.isNull = false := by simpa using hnull
              exact ⟨wireText json, ⟨field, value, json, rfl, hvalue, hsome, hjson, rfl⟩,
                (Except.ok.inj h).symm⟩
      · rintro ⟨_, ⟨_, value, json, hsame, hvalue, hnull, hjson, rfl⟩, rfl⟩
        obtain rfl := Option.some.inj hsame
        simp [hvalue, hnull, hjson]

/-! ## The key -/

def SaysAll (schema : Schema) (record : Record) (texts : List String) : Prop :=
  List.Forall₂ (schema.Says record) schema.keyFields texts

theorem mapM_keyPart_eq_ok_iff {names parts : List String} :
    names.mapM (schema.keyPart record) = .ok parts ↔
      ∃ texts, List.Forall₂ (schema.Says record) names texts ∧
        parts = texts.map (Text.percentEncode isKeyPartChar) := by
  induction names generalizing parts with
  | nil =>
      rw [List.mapM_nil]
      constructor
      · intro h
        exact ⟨[], .nil, (Except.ok.inj h).symm⟩
      · rintro ⟨_, ⟨⟩, rfl⟩
        rfl
  | cons name names ih =>
      rw [mapM_cons_eq_ok_iff]
      constructor
      · rintro ⟨part, parts, hpart, hparts, rfl⟩
        obtain ⟨text, htext, rfl⟩ := keyPart_eq_ok_iff.1 hpart
        obtain ⟨texts, htexts, rfl⟩ := ih.1 hparts
        exact ⟨text :: texts, .cons htext htexts, rfl⟩
      · rintro ⟨_, hsaid, rfl⟩
        cases hsaid with
        | cons htext htexts =>
            exact ⟨_, _, keyPart_eq_ok_iff.2 ⟨_, htext, rfl⟩, ih.2 ⟨_, htexts, rfl⟩, rfl⟩

/-- A key is the texts of the key fields, escaped and with colons between them, if it is not too
long. -/
theorem computeKey_eq_some_iff {key : String} :
    schema.computeKey record = .ok (some key) ↔
      schema.keyFields ≠ [] ∧ key.utf8ByteSize ≤ maxKeyBytes ∧
      ∃ texts, schema.SaysAll record texts ∧
        key = ":".intercalate (texts.map (Text.percentEncode isKeyPartChar)) := by
  unfold computeKey
  by_cases hnames : schema.keyFields = []
  · simp [hnames]
  · have hsome : schema.keyFields.isEmpty = false := by simpa using hnames
    simp only [hsome, Bool.false_eq_true, if_false]
    constructor
    · intro h
      obtain ⟨parts, hparts, h⟩ := bind_eq_ok_iff.1 h
      obtain ⟨texts, htexts, rfl⟩ := mapM_keyPart_eq_ok_iff.1 hparts
      split at h
      · simp at h
      · rename_i hsize
        obtain rfl := Option.some.inj (Except.ok.inj h)
        exact ⟨hnames, Nat.not_lt.1 hsize, texts, htexts, rfl⟩
    · rintro ⟨_, hsize, texts, htexts, rfl⟩
      rw [mapM_keyPart_eq_ok_iff.2 ⟨texts, htexts, rfl⟩, ok_bind, if_neg (Nat.not_lt.2 hsize)]
      rfl

theorem SaysAll.ne_nil {texts : List String} (h : schema.SaysAll record texts)
    (hnames : schema.keyFields ≠ []) : texts ≠ [] := by
  rintro rfl
  exact hnames (List.forall₂_nil_right_iff.1 h)

/-! ## Records of one key -/

theorem SaysAll.eq_iff {texts others : List String} (h : schema.SaysAll first texts)
    (hothers : schema.SaysAll second others) :
    texts = others ↔ ∀ name ∈ schema.keyFields,
      ∃ text, schema.Says first name text ∧ schema.Says second name text := by
  unfold SaysAll at h hothers
  generalize schema.keyFields = names at h hothers
  induction h generalizing others with
  | nil =>
      cases hothers
      simp
  | @cons name text names texts htext _ ih =>
      cases hothers with
      | @cons _ other _ others hother hothers =>
          rw [List.cons.injEq, ih hothers, List.forall_mem_cons]
          refine and_congr_left fun _ => ?_
          constructor
          · rintro rfl
            exact ⟨text, htext, hother⟩
          · rintro ⟨_, hsaid, hsaid'⟩
            rw [htext.unique hsaid, hother.unique hsaid']

/-- Two records get the same key exactly if they say the same in every key field. -/
theorem same_key_iff {key other : String} (hkey : schema.computeKey first = .ok (some key))
    (hother : schema.computeKey second = .ok (some other)) :
    key = other ↔ ∀ name ∈ schema.keyFields,
      ∃ text, schema.Says first name text ∧ schema.Says second name text := by
  obtain ⟨hnames, _, texts, htexts, rfl⟩ := computeKey_eq_some_iff.1 hkey
  obtain ⟨_, _, others, hothers, rfl⟩ := computeKey_eq_some_iff.1 hother
  rw [← htexts.eq_iff hothers]
  constructor
  · intro hkeys
    refine List.map_injective_iff.2 encodePart_injective (Text.intercalate_injective rfl ?_ ?_
      colon_notMem_part colon_notMem_part hkeys)
    · simpa using htexts.ne_nil hnames
    · simpa using hothers.ne_nil hnames
  · rintro rfl
    rfl

end

def berthSchema : Schema :=
  ⟨"berths", .document, [⟨"port", .string, true, none, false, none⟩,
    ⟨"berth", .string, true, none, false, none⟩], false, ["port", "berth"]⟩

def berth (port name : String) : Record :=
  ⟨berthSchema, [.held (.string port), .held (.string name)], []⟩

section

attribute [local instance] CustomCodecs.none

theorem same_key_iff_berth :
    berthSchema.computeKey (berth "ø:1" "%3A") = .ok (some "%C3%B8%3A1:%253A") ∧
    berthSchema.computeKey (berth "ø" "1:%3A") = .ok (some "%C3%B8:1%3A%253A") ∧
    ("%C3%B8%3A1:%253A" = "%C3%B8:1%3A%253A" ↔ ∀ name ∈ berthSchema.keyFields, ∃ text,
      berthSchema.Says (berth "ø:1" "%3A") name text ∧
        berthSchema.Says (berth "ø" "1:%3A") name text) := by
  have hfirst : berthSchema.computeKey (berth "ø:1" "%3A") = .ok (some "%C3%B8%3A1:%253A") := by
    decide +kernel
  have hsecond : berthSchema.computeKey (berth "ø" "1:%3A") = .ok (some "%C3%B8:1%3A%253A") := by
    decide +kernel
  exact ⟨hfirst, hsecond, same_key_iff hfirst hsecond⟩

end

/-! ## The form of a key -/

variable [CustomCodecs] {schema : Schema} {record : Record}

def isKeyChar (c : Char) : Bool := isKeyPartChar c || c == ':'

theorem escaped_key {key : String} (h : schema.computeKey record = .ok (some key)) :
    Text.Escaped isKeyChar key.toList := by
  obtain ⟨_, _, texts, _, rfl⟩ := computeKey_eq_some_iff.1 h
  rw [String.toList_intercalate]
  have hcolon : isKeyChar ':' = true := by decide
  refine Text.Escaped.intercalate hcolon fun part hpart => ?_
  obtain ⟨_, hmem, rfl⟩ := List.mem_map.1 hpart
  obtain ⟨text, _, rfl⟩ := List.mem_map.1 hmem
  refine (Text.escaped_percentEncode isKeyPartChar text).mono fun c hc => ?_
  simp [isKeyChar, hc]

/-- A key is empty exactly if there is one key field, in which the record says the empty text. -/
theorem key_eq_empty_iff {key : String} (h : schema.computeKey record = .ok (some key)) :
    key = "" ↔ ∃ name, schema.keyFields = [name] ∧ schema.Says record name "" := by
  obtain ⟨hnames, _, texts, htexts, rfl⟩ := computeKey_eq_some_iff.1 h
  have hsome : texts.map (Text.percentEncode isKeyPartChar) ≠ [] := by
    simpa using htexts.ne_nil hnames
  have hparts : texts.map (Text.percentEncode isKeyPartChar) = [""] ↔ texts = [""] :=
    (List.map_injective_iff.2 encodePart_injective).eq_iff' rfl
  rw [intercalate_eq_empty_iff hsome, hparts]
  constructor
  · rintro rfl
    unfold SaysAll at htexts
    obtain ⟨name, names, hsaid, hrest, hnames⟩ := List.forall₂_cons_right_iff.1 htexts
    exact ⟨name, by rw [hnames, List.forall₂_nil_right_iff.1 hrest], hsaid⟩
  · rintro ⟨name, hname, hsaid⟩
    unfold SaysAll at htexts
    rw [hname] at htexts
    obtain ⟨text, rest, htext, hrest, rfl⟩ := List.forall₂_cons_left_iff.1 htexts
    rw [htext.unique hsaid, List.forall₂_nil_left_iff.1 hrest]

end Schema

end DocGraph
