import Componentry.Proofs.Yaml.Load

/-!
# What becomes of the text of a document

A text is a document if it spells a map with something under `render`.  Any other text is refused: with
a document error that names the path, or with a fault.  Faults are due to the text alone: a version or an
escape in it goes beyond what can be read, a tag asks for a truth value, an integer, a number or a date
that the text under it does not spell, or it asks for a scalar where a mapping stands for itself.

**Main statement.** These are all the ways in which parsing ends (`parse_outcome`).  A tag is enough for
a fault: `!!int foo` is one (`parse_outcome_word`).  Texts with halves of characters are left out, and so
is nesting that is too deep to be followed.
-/

namespace Componentry

open Yaml (Overlong Unreadable NodeGraph TokenStream)

/-- The document is a map with something under `render`. -/
def Document.Renders (d : Document) : Prop :=
  ∃ entries, d.graph.entries? d.root = some entries ∧ entry entries "render" ≠ .null

theorem schemaError?_eq_none_iff {d : Document} {path : Option String} :
    d.graph.schemaError? d.root path = none ↔ d.Renders := by
  unfold Graph.schemaError? Document.Renders
  cases d.graph.entries? d.root with
  | none => simp
  | some entries =>
    by_cases h : entry entries "render" = .null
    · simp [h]
    · simp [h]

/-- What is wrong with a value is a matter of the schema, at the path. -/
theorem schemaError?_place {g : Graph} {root : Value} {path : Option String} {e : DocumentError}
    (h : g.schemaError? root path = some e) : e.kind = .schema ∧ e.path = path := by
  unfold Graph.schemaError? at h
  split at h
  · cases h
    exact ⟨rfl, rfl⟩
  · split at h
    · cases h
      exact ⟨rfl, rfl⟩
    · cases h

/-- Trouble with a text is a fault, or a matter of the schema at the path. -/
theorem failure_place (source : List Char) (path : Option String) (trouble : Yaml.Trouble) :
    (∃ e : DocumentError, trouble.failure source path = .document e ∧ e.kind = .schema ∧
      e.path = path) ∨ ∃ f, trouble = .fault f ∧ trouble.failure source path = .fault f := by
  cases trouble with
  | fault f => exact .inr ⟨f, rfl, rfl⟩
  | unacceptable c position => exact .inl ⟨_, rfl, rfl, rfl⟩
  | problem during what mark => exact .inl ⟨_, rfl, rfl, rfl⟩

/-! ## The two steps of parsing -/

variable {text : String} {path : Option String} {d : Document}

theorem parse_of_trouble {trouble : Yaml.Trouble}
    (h : Yaml.valueOfText text.toList = .error trouble) :
    Document.parse text path = .error (trouble.failure text.toList path) := by
  simp only [Document.parse, h]
  rfl

theorem parse_of_schemaError {e : DocumentError} (h : Yaml.valueOfText text.toList = .ok d)
    (hs : d.graph.schemaError? d.root path = some e) :
    Document.parse text path = .error (.document e) := by
  simp only [Document.parse, h, Except.mapError, bind, Except.bind, hs]
  rfl

theorem parse_of_renders (h : Yaml.valueOfText text.toList = .ok d) (hr : d.Renders) :
    Document.parse text path = .ok d := by
  simp only [Document.parse, h, Except.mapError, bind, Except.bind,
    schemaError?_eq_none_iff.mpr hr]
  rfl

/-- What a text spells decides whether it is a document; the path plays no role. -/
theorem parse_eq_ok_iff :
    Document.parse text path = .ok d ↔ Yaml.valueOfText text.toList = .ok d ∧ d.Renders := by
  refine ⟨fun h => ?_, fun h => parse_of_renders h.1 h.2⟩
  cases hv : Yaml.valueOfText text.toList with
  | error trouble =>
    rw [parse_of_trouble hv] at h
    cases h
  | ok d' =>
    cases hs : d'.graph.schemaError? d'.root path with
    | some e =>
      rw [parse_of_schemaError hv hs] at h
      cases h
    | none =>
      have hr := schemaError?_eq_none_iff.mp hs
      rw [parse_of_renders hv hr] at h
      cases h
      exact ⟨rfl, hr⟩

/-- A text that is refused. -/
theorem parse_eq_error {failure : Failure} (h : Document.parse text path = .error failure) :
    (∃ e : DocumentError, failure = .document e ∧ e.kind = .schema ∧ e.path = path) ∨
      ∃ f, failure = .fault f ∧ Yaml.valueOfText text.toList = .error (.fault f) := by
  cases hv : Yaml.valueOfText text.toList with
  | error trouble =>
    rw [parse_of_trouble hv] at h
    cases h
    rcases failure_place text.toList path trouble with he | ⟨f, rfl, hf⟩
    · exact .inl he
    · exact .inr ⟨f, hf, rfl⟩
  | ok d =>
    cases hs : d.graph.schemaError? d.root path with
    | some e =>
      rw [parse_of_schemaError hv hs] at h
      cases h
      exact .inl ⟨e, rfl, schemaError?_place hs⟩
    | none =>
      rw [parse_of_renders hv (schemaError?_eq_none_iff.mp hs)] at h
      cases h

/-- **What becomes of the text of a document.** It is a document just when it spells a map with
something under `render`.  Otherwise it is refused with a document error that names the path, or with a
fault that is due to an overlong version or escape in the text, or to a node that cannot be read in the
form that its tag asks for. -/
theorem parse_outcome (text : String) (path : Option String) :
    (∀ d, Document.parse text path = .ok d ↔ Yaml.valueOfText text.toList = .ok d ∧ d.Renders) ∧
    ∀ failure, Document.parse text path = .error failure →
      (∃ e : DocumentError, failure = .document e ∧ e.kind = .schema ∧ e.path = path) ∨
      ∃ f, failure = .fault f ∧ (Overlong text.toList f ∨
        ∃ nodes, NodeGraph.ofTokens (TokenStream.ofText text.toList) = .ok nodes ∧
          Unreadable nodes.nodes f) := by
  refine ⟨fun d => parse_eq_ok_iff, fun failure h => ?_⟩
  rcases parse_eq_error h with he | ⟨f, hf, hv⟩
  · exact .inl he
  · exact .inr ⟨f, hf, Yaml.fault_of_valueOfText hv⟩

theorem Yaml.Overlong.eq {text : List Char} {f : Fault} (h : Overlong text f) :
    (∃ count, f = .tooManyDigits count) ∨ f = .beyondMachine ∨ f = .noCodePoint := by
  cases h with
  | digits => exact .inl ⟨_, rfl⟩
  | escape _ _ hf =>
    unfold Yaml.charOfCode at hf
    split at hf
    · cases hf
      exact .inr (.inl rfl)
    · split at hf
      · cases hf
        exact .inr (.inr rfl)
      · split at hf <;> cases hf

/-- A word with the tag of integers is no document error, but a fault, since the text of a node is no
integer. -/
theorem parse_outcome_word :
    Document.parse "render: !!int foo" (some "a.ysx") = .error (.fault (.notInteger 10 "foo")) ∧
    ∃ nodes, NodeGraph.ofTokens (TokenStream.ofText "render: !!int foo".toList) = .ok nodes ∧
      Unreadable nodes.nodes (.notInteger 10 "foo") := by
  have hparse : Document.parse "render: !!int foo" (some "a.ysx") =
      .error (.fault (.notInteger 10 "foo")) :=
    eq_error_of_error? (by decide +kernel)
  refine ⟨hparse, ?_⟩
  rcases (parse_outcome "render: !!int foo" (some "a.ysx")).2 _ hparse with ⟨e, he, -⟩ | ⟨f, hf, hcause⟩
  · cases he
  · cases hf
    rcases hcause with hlong | hnode
    · rcases hlong.eq with ⟨count, he⟩ | he | he <;> cases he
    · exact hnode

/-- A mapping that stands for itself has no text. -/
example : Document.parse "render: &a !!str \x7b=: *a\x7d" none = .error (.fault .endless) :=
  eq_error_of_error? (by decide +kernel)

end Componentry
