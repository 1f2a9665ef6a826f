import Componentry.Proofs.Script.Printable
import Mathlib.Logic.Relation

/-!
# The shapes of generated trees

`Built` and `BuiltStatement` describe the expressions and statements that the compiler makes, whatever
the document is.

**Main statements.** Every node of a built module has its shape (`shaped_componentTree`): templates
have one segment more than they have expressions, keys are names or texts, and so on.  A built module
has a text if its integers are not too long (`succeeds_moduleText_componentTree`).
-/

namespace Componentry.Script

open Relation (ReflTransGen)

/-! ## Parts -/

/-- The nodes that a node is made of. -/
def Node.parts : Node → List Node
  | .name _ | .text _ | .number _ | .bool _ | .null | .segment _ _ | .empty | .foreign _ => []
  | .template ss es => ss ++ es
  | .member o p => [o, p]
  | .call f as => f :: as
  | .binary _ l r => [l, r]
  | .arrow ps b => ps ++ [b]
  | .array es | .arrayPattern es | .object es | .block es | .declaration _ es | .program es => es
  | .property k v => [k, v]
  | .expression e | .exportDefault e | .defaultBinding e => [e]
  | .result e => e.toList
  | .declarator t e => t :: e.toList
  | .namedBinding b i => [b, i]
  | .importFrom bs e => bs ++ [e]
  | .function n ps b => n :: (ps ++ [b])

/-- `P` holds of a node and of every node inside it. -/
def Node.All (P : Node → Prop) (e : Node) : Prop :=
  ∀ part, ReflTransGen (fun e p => p ∈ e.parts) e part → P part

namespace Node.All

variable {P : Node → Prop} {e p : Node}

theorem self (h : e.All P) : P e :=
  h e .refl

theorem part (h : e.All P) (hp : p ∈ e.parts) : p.All P :=
  fun part hpart => h part (hpart.head hp)

theorem intro (h : P e) (hparts : ∀ p ∈ e.parts, p.All P) : e.All P := by
  intro part hpart
  rcases hpart.cases_head with rfl | ⟨p, hp, hrest⟩
  · exact h
  · exact hparts p hp part hrest

/-- A node that has no parts. -/
theorem leaf (h : P e) (hparts : e.parts = []) : e.All P := by
  refine intro h fun p hp => ?_
  rw [hparts] at hp
  cases hp

/-- The parts are asked for one after another. -/
theorem iff_forall_parts : e.All P ↔ P e ∧ e.parts.Forall (Node.All P) := by
  rw [List.forall_iff_forall_mem]
  exact ⟨fun h => ⟨h.self, fun p => h.part⟩, fun h => intro h.1 h.2⟩

end Node.All

/-! ## Shapes -/

/-- A name, or a member of a name. -/
inductive Node.IsReference : Node → Prop
  | name (n : String) : IsReference (.name n)
  | member (object property : String) : IsReference (.member (.name object) (.name property))

/-- A property whose key is a name or a text. -/
inductive Node.IsProperty : Node → Prop
  | name (key : String) (value : Node) : IsProperty (.property (.name key) value)
  | text (key : String) (value : Node) : IsProperty (.property (.text key) value)

/-- The segments of a template, of which the last one is marked as the last. -/
def segments (raws : List String) (last : String) : List Node :=
  raws.map (fun raw => .segment raw false) ++ [.segment last true]

/-- The shape of a node.  A template starts and ends with a segment, the keys of an object are names
or texts, a name stands left of an operator, and members and calls are those of names or of members
of names. -/
def Node.Shaped : Node → Prop
  | .template ss es => ∃ raws last, ss = segments raws last ∧ raws.length = es.length
  | .object ps => ∀ p ∈ ps, p.IsProperty
  | .binary _ l _ => ∃ n, l = .name n
  | .member o _ => o.IsReference
  | .call f _ => f.IsReference
  | _ => True

/-- An integer has few enough digits to be written. -/
def Node.HasFewDigits : Node → Prop
  | .number (.int n) => fewDigits n
  | _ => True

/-! ## Expressions -/

/-- The expressions that the compiler builds. -/
inductive Built : Node → Prop
  | name (n : String) : Built (.name n)
  | text (s : String) : Built (.text s)
  | number (n : Number) : Built (.number n)
  | bool (b : Bool) : Built (.bool b)
  | null : Built .null
  | template {raws : List String} (last : String) {expressions : List Node}
    (hl : raws.length = expressions.length) (h : ∀ e ∈ expressions, Built e) :
    Built (.template (segments raws last) expressions)
  | member (object property : String) : Built (.member (.name object) (.name property))
  | call {callee : Node} {arguments : List Node} (hc : callee.IsReference)
    (ha : ∀ a ∈ arguments, Built a) : Built (.call callee arguments)
  | binary (operator left : String) {right : Node} (h : Built right) :
    Built (.binary operator (.name left) right)
  | arrow (params : List String) {body : Node} (h : Built body) :
    Built (.arrow (params.map .name) body)
  | arrowBlock (params : List String) {body : List Node} (h : ∀ e ∈ body, Built e) :
    Built (.arrow (params.map .name) (.block (body.map .expression)))
  | array {elements : List Node} (h : ∀ e ∈ elements, Built e) : Built (.array elements)
  | object {properties : List Node} (hp : ∀ p ∈ properties, p.IsProperty)
    (h : ∀ p ∈ properties, ∀ v ∈ p.parts, Built v) : Built (.object properties)

/-- The properties that the compiler builds. -/
structure BuiltProperty (p : Node) : Prop where
  isProperty : p.IsProperty
  parts : ∀ v ∈ p.parts, Built v

theorem built_object {properties : List Node} (h : ∀ p ∈ properties, BuiltProperty p) :
    Built (.object properties) :=
  .object (fun p hp => (h p hp).isProperty) fun p hp => (h p hp).parts

theorem shaped_name (n : String) : (Node.name n).All Node.Shaped :=
  .leaf trivial rfl

theorem shaped_names (names : List String) : ∀ p ∈ names.map Node.name, p.All Node.Shaped :=
  List.forall_mem_map.mpr fun n _ => shaped_name n

theorem Node.IsReference.shaped {e : Node} (h : e.IsReference) : e.All Node.Shaped := by
  cases h with
  | name n => exact shaped_name n
  | member o p => exact .intro (.name o) (shaped_names [o, p])

theorem Node.IsReference.printable {e : Node} (h : e.IsReference) : Printable e := by
  cases h with
  | name n => exact .name n
  | member o p => exact .member (.name o) p

theorem Node.IsProperty.printable {p : Node} (h : p.IsProperty) (hv : ∀ v ∈ p.parts, Printable v) :
    PrintableProperty p := by
  cases h with
  | name key value => exact ⟨key, true, value, rfl, hv value (by simp [Node.parts])⟩
  | text key value => exact ⟨key, false, value, rfl, hv value (by simp [Node.parts])⟩

/-- Every node of a built expression has its shape. -/
theorem Built.shaped {e : Node} (h : Built e) : e.All Node.Shaped := by
  induction h with
  | name | text | number | bool | null => exact .leaf trivial rfl
  | @template raws last expressions hl _ ih =>
    refine .intro ⟨raws, last, rfl, hl⟩ (List.forall_mem_append.mpr ⟨?_, ih⟩)
    refine List.forall_mem_append.mpr ⟨List.forall_mem_map.mpr fun raw _ => ?_, ?_⟩
    · exact .leaf trivial rfl
    · exact List.forall_mem_singleton.mpr (.leaf trivial rfl)
  | member o p => exact Node.IsReference.shaped (.member o p)
  | call hc _ ih => exact .intro hc (List.forall_mem_cons.mpr ⟨hc.shaped, ih⟩)
  | binary operator left _ ih =>
    refine .intro ⟨left, rfl⟩ (List.forall_mem_cons.mpr ⟨shaped_name left, ?_⟩)
    exact List.forall_mem_singleton.mpr ih
  | arrow params _ ih =>
    exact .intro trivial (List.forall_mem_append.mpr
      ⟨shaped_names params, List.forall_mem_singleton.mpr ih⟩)
  | arrowBlock params _ ih =>
    refine .intro trivial (List.forall_mem_append.mpr
      ⟨shaped_names params, List.forall_mem_singleton.mpr (.intro trivial ?_)⟩)
    exact List.forall_mem_map.mpr fun e he =>
      .intro trivial (List.forall_mem_singleton.mpr (ih e he))
  | array _ ih => exact .intro trivial ih
  | @object properties hp _ ih =>
    refine .intro hp fun p hm => .intro ?_ (ih p hm)
    cases hp p hm with
    | name | text => trivial

/-- A built expression has a text if its integers have. -/
theorem Built.printable {e : Node} (h : Built e) (hi : e.All Node.HasFewDigits) : Printable e := by
  induction h with
  | name n => exact .name n
  | text s => exact .text s
  | number n =>
    cases n with
    | int n => exact .int hi.self
    | float x => exact .float x
  | bool b => exact .bool b
  | null => exact .null
  | @template raws last expressions hl _ ih =>
    have htemplate := Printable.template (raws.map (fun raw => (raw, false)) ++ [(last, true)])
      fun e he => ih e he (hi.part (List.mem_append_right _ he))
    simpa [segments, Function.comp_def] using htemplate
  | member o p => exact .member (.name o) p
  | call hc _ ih =>
    exact .call hc.printable fun a ha => ih a ha (hi.part (List.mem_cons_of_mem _ ha))
  | binary operator left _ ih =>
    exact .binary operator (.name left) (ih (hi.part (by simp [Node.parts])))
  | arrow params _ ih => exact .arrow params (ih (hi.part (by simp [Node.parts])))
  | @arrowBlock params body _ ih =>
    have hblock := hi.part (List.mem_append_right _ List.mem_cons_self)
    exact .arrowBlock params fun e he => ih e he
      ((hblock.part (List.mem_map_of_mem he)).part List.mem_cons_self)
  | array _ ih => exact .array fun e he => ih e he (hi.part he)
  | object hp _ ih =>
    exact printable_object fun p hm => (hp p hm).printable fun v hv =>
      ih p hm v hv ((hi.part hm).part hv)

/-! ## Statements -/

/-- The statements that the compiler builds. -/
inductive BuiltStatement : Node → Prop
  | empty : BuiltStatement .empty
  | result {e : Node} (h : Built e) : BuiltStatement (.result (some e))
  | expression {e : Node} (h : Built e) : BuiltStatement (.expression e)
  | declaration (kind : String) (names : List String) {init : Node} (h : Built init) :
    BuiltStatement (.declaration kind [.declarator (.arrayPattern (names.map .name)) (some init)])
  | importFrom {bindings : List Node} (h : ∀ b ∈ bindings, PrintableBinding b) (source : String) :
    BuiltStatement (.importFrom bindings (.text source))

theorem PrintableBinding.shaped {b : Node} (h : PrintableBinding b) : b.All Node.Shaped := by
  cases h with
  | default n => exact .intro trivial (shaped_names [n])
  | named n m => exact .intro trivial (shaped_names [n, m])

/-- Every node of a built statement has its shape. -/
theorem BuiltStatement.shaped {s : Node} (h : BuiltStatement s) : s.All Node.Shaped := by
  cases h with
  | empty => exact .leaf trivial rfl
  | result h | expression h => exact .intro trivial (List.forall_mem_singleton.mpr h.shaped)
  | declaration kind names h =>
    have hpattern : (Node.arrayPattern (names.map .name)).All Node.Shaped :=
      .intro trivial (shaped_names names)
    refine .intro trivial (List.forall_mem_singleton.mpr (.intro trivial ?_))
    exact List.forall_mem_cons.mpr ⟨hpattern, List.forall_mem_singleton.mpr h.shaped⟩
  | importFrom h source =>
    exact .intro trivial (List.forall_mem_append.mpr
      ⟨fun b hb => (h b hb).shaped, List.forall_mem_singleton.mpr (.leaf trivial rfl)⟩)

/-- A built statement has a text if its integers have. -/
theorem BuiltStatement.printable {s : Node} (h : BuiltStatement s)
    (hi : s.All Node.HasFewDigits) : PrintableStatement s := by
  cases h with
  | empty => exact .empty
  | result h => exact .result (h.printable (hi.part List.mem_cons_self))
  | expression h => exact .expression (h.printable (hi.part List.mem_cons_self))
  | declaration kind names h =>
    have hdeclarator := hi.part List.mem_cons_self
    exact .declaration kind names
      (h.printable (hdeclarator.part (List.mem_cons_of_mem _ List.mem_cons_self)))
  | importFrom h source => exact .importFrom h source

/-! ## Modules -/

/-- The module tree of a component: imports, the function with its parameter and its body, and the
export of the function. -/
def componentTree (name parameter : String) (imported body : List Node) : Node :=
  .program (imported ++
    [.function (.name name) [.name parameter] (.block body), .exportDefault (.name name)])

section Component

variable {name parameter : String} {imported body : List Node}
  (hi : ∀ s ∈ imported, BuiltStatement s) (hb : ∀ s ∈ body, BuiltStatement s)

include hi hb

/-- **Every node of a built module has its shape.** -/
theorem shaped_componentTree : (componentTree name parameter imported body).All Node.Shaped := by
  have hfunction : (Node.function (.name name) [.name parameter] (.block body)).All Node.Shaped :=
    .intro trivial (List.forall_mem_cons.mpr ⟨shaped_name name, List.forall_mem_cons.mpr
      ⟨shaped_name parameter, List.forall_mem_singleton.mpr
        (.intro trivial fun s hs => (hb s hs).shaped)⟩⟩)
  have hexport : (Node.exportDefault (.name name)).All Node.Shaped :=
    .intro trivial (shaped_names [name])
  refine .intro trivial (List.forall_mem_append.mpr ⟨fun s hs => (hi s hs).shaped, ?_⟩)
  exact List.forall_mem_cons.mpr ⟨hfunction, List.forall_mem_singleton.mpr hexport⟩

/-- **A built module has a text if its integers have.** -/
theorem succeeds_moduleText_componentTree (annotated : Bool)
    (h : (componentTree name parameter imported body).All Node.HasFewDigits) :
    Succeeds (moduleText annotated (componentTree name parameter imported body)) := by
  refine succeeds_moduleText annotated (List.forall_mem_append.mpr ⟨fun s hs => ?_, ?_⟩)
  · exact (hi s hs).printable (h.part (List.mem_append_left _ hs))
  · have hblock : (Node.block body).All Node.HasFewDigits :=
      (h.part (List.mem_append_right _ List.mem_cons_self)).part (by simp [Node.parts])
    refine List.forall_mem_cons.mpr ⟨.function name [parameter] fun s hs => ?_, ?_⟩
    · exact (hb s hs).printable (hblock.part hs)
    · exact List.forall_mem_singleton.mpr (.exportName name)

end Component

end Componentry.Script
