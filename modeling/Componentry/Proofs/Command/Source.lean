import Componentry.Command.Perform
import Componentry.Proofs.Component.Instance
import Componentry.Proofs.Document.Parse
import Componentry.Proofs.FileTree

/-!
# What becomes of a document in a file

A document in a file comes to a module (`freshModule?`), or it is refused with an error of the schema
(`schemaError?`), or something else goes wrong.

**Main statements.** A new instance makes what the compiler makes (`freshModule?_eq_bind`), and what it
makes depends on the content of the file only, not on the path that leads there
(`freshModule?_of_spot`).
-/

namespace Componentry.Command

open Component (Operation Product Instance)

variable {files t t' : FileTree} {p q : Path} {d : Document} {code : String} {e : DocumentError}
  {annotated : Bool}

/-! ## Modules and errors -/

/-- The text among the products of an instance. -/
def textOf? : Product → Option String
  | .text text => some text
  | _ => none

/-- The module that a new instance makes of the document in a file, if it makes one. -/
def freshModule? (files : FileTree) (annotated : Bool) (source : Path) : Option String := do
  let document ← (Document.load files source).toOption
  let answer ← Instance.perform ⟨annotated, []⟩ (.compile document.graph document.root)
  textOf? (← answer.1.result.toOption)

/-- The error if what is in a file does not fit the schema of documents. -/
def schemaError? (files : FileTree) (source : Path) : Option DocumentError :=
  match Document.load files source with
  | .error (.document e) => if e.kind == .schema then some e else none
  | _ => none

/-- A new instance makes what the compiler makes. -/
theorem freshModule?_eq_bind (files : FileTree) (annotated : Bool) (p : Path) :
    freshModule? files annotated p = (Document.load files p).toOption.bind fun d =>
      (Component.compile d.graph d.root annotated).result.toOption := by
  unfold freshModule?
  refine congrArg (Option.bind _) (funext fun d => ?_)
  have hanswer : ((Operation.compile d.graph d.root).answer annotated).result =
      (Component.compile d.graph d.root annotated).result >>= fun text => pure (.text text) :=
    Traced.result_bind _ _
  rw [Component.perform_fresh]
  show Option.bind (Except.toOption _) textOf? = _
  rw [hanswer]
  cases (Component.compile d.graph d.root annotated).result <;> rfl

theorem freshModule?_eq_some_iff : freshModule? files annotated p = some code ↔
    ∃ d, Document.load files p = .ok d ∧
      (Component.compile d.graph d.root annotated).result = .ok code := by
  simp only [freshModule?_eq_bind, Option.bind_eq_some_iff, toOption_eq_some_iff]

theorem schemaError?_eq_some_iff : schemaError? files p = some e ↔
    Document.load files p = .error (.document e) ∧ e.kind = .schema := by
  unfold schemaError?
  rcases Document.load files p with (f | e' | c) | d
  · simp
  · by_cases hkind : e'.kind = .schema
    · simp only [hkind, beq_self_eq_true, if_true, Option.some.injEq]
      constructor
      · rintro rfl
        exact ⟨rfl, hkind⟩
      · rintro ⟨he, -⟩
        cases he
        rfl
    · simp only [beq_iff_eq, hkind, if_false]
      constructor
      · intro he
        cases he
      · rintro ⟨he, hschema⟩
        cases he
        exact absurd hschema hkind
  · simp
  · simp

/-! ## Reading documents -/

/-- What is loaded from a file is a matter of its content. -/
theorem load_congr (h : t.read p = t'.read p) : Document.load t p = Document.load t' p := by
  unfold Document.load
  rw [h]

theorem load_of_fault {f : Fault} (h : t.read p = .error f) :
    Document.load t p = .error (.fault f) := by
  unfold Document.load
  rw [h]
  rfl

/-- A document is loaded if the file can be read, its octets are a text, and the text is a document. -/
theorem load_eq_ok_iff : Document.load t p = .ok d ↔
    ∃ octets text, t.read p = .ok octets ∧ Text.ofOctets octets = .ok text ∧
      Yaml.valueOfText text = .ok d ∧ d.Renders := by
  cases hread : t.read p with
  | error f =>
    rw [load_of_fault hread]
    simp
  | ok octets =>
    unfold Document.load
    rw [hread]
    change Except.bind (.ok octets) _ = _ ↔ _
    rw [Except.bind]
    cases htext : Text.ofOctets octets with
    | error defect => simp [htext]
    | ok text => simp [htext, parse_eq_ok_iff]

/-- A file in which there is a document or an error of one can be read. -/
theorem succeeds_read
    (h : (freshModule? files annotated p).isSome ∨ (schemaError? files p).isSome) :
    Succeeds (files.read p) := by
  cases hread : files.read p with
  | ok octets => exact succeeds_ok octets
  | error f =>
    simp [freshModule?, schemaError?, load_of_fault hread, Except.toOption] at h

/-- Files at the same spot come to the same module. -/
theorem freshModule?_of_spot (hq : Succeeds (files.read q)) (he : p.spot = q.spot)
    (h : freshModule? files annotated p = some code) :
    freshModule? files annotated q = some code := by
  obtain ⟨d, hload, hresult⟩ := freshModule?_eq_some_iff.mp h
  obtain ⟨octets, text, hread, htext, hvalue⟩ := load_eq_ok_iff.mp hload
  obtain ⟨octets', hread', -⟩ := hq
  obtain rfl : octets = octets' := by
    have hfile := (FileTree.read_eq_ok_iff.mp hread).2
    rw [he, (FileTree.read_eq_ok_iff.mp hread').2] at hfile
    cases hfile
    rfl
  exact freshModule?_eq_some_iff.mpr
    ⟨d, load_eq_ok_iff.mpr ⟨octets, text, hread', htext, hvalue⟩, hresult⟩

theorem schemaError?_eq_none (h : freshModule? files annotated p = some code) :
    schemaError? files p = none := by
  obtain ⟨d, hload, -⟩ := freshModule?_eq_some_iff.mp h
  simp [schemaError?, hload]

theorem freshModule?_eq_none (h : schemaError? files p = some e) :
    freshModule? files annotated p = none := by
  simp [freshModule?, (schemaError?_eq_some_iff.mp h).1, Except.toOption]

end Componentry.Command
