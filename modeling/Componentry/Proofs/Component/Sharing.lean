import Componentry.Proofs.Component.Instance
import Componentry.Proofs.Document.Unfolding

/-!
# Shared containers

The compiler keeps account of the containers that it is inside of, so that it comes to an end on
values that are inside themselves.  On all other values it need not: here is the same recursion over
trees, which has nothing to keep account of.

**Main statement.** A value that is not inside itself becomes what the tree that it unfolds to
becomes, with the same notes, as data and as part of a page (`compiles_as_tree`).  So no container
is left out because it was met before, wherever it is shared.

On the way down every container that was entered contains the value at hand, and so the value does
not contain it (`Calls.apart`).  Hence one level of the compiler is one level of the recursion over
trees (`agreeAt_next_plain`), and so are all of them (`agreeAt_plain`).
-/

namespace Componentry

open Relation (ReflTransGen)
open Script (Node)
open Component

/-! ## The recursion over trees -/

/-- A scalar as data or as part of a page. -/
def Scalar.node : Scalar → Traced Node
  | .null => return .null
  | .bool b => return .bool b
  | .int n => return .number (.int n)
  | .float x => return .number (.float x)
  | .text s => interpolate s
  | .code c => Snippet.parse c.text
  | s => do return .text (← s.display)

/-- A scalar as the compiler sees it. -/
def Scalar.view : Scalar → View
  | .null => .null
  | .bool b => .bool b
  | .int n => .number (.int n)
  | .float x => .number (.float x)
  | .text s => .text s
  | .code c => .code c
  | _ => .other

namespace Tree

/-- The text that a tree is, if it is one. -/
def text? : Tree → Option String
  | .scalar (.text s) => some s
  | _ => none

/-- The sort of code that a tree names. -/
def codeKind? : Tree → Except Fault (Option CodeKind)
  | .scalar (.text name) => .ok (CodeKind.ofName? name)
  | .set _ => .ok none
  | t =>
    match t.unhashable? with
    | some type => .error (.unhashable type)
    | none => .ok none

/-- The embedded code with a given sort and text, if they are that. -/
def codeOfParts? (kind code : Tree) : Except Fault (Option Code) :=
  match code.text? with
  | some code => do return (← kind.codeKind?).map (⟨·, code⟩)
  | none => .ok none

/-- The embedded code that the entries of a map spell. -/
def codeOfEntries? : List (Tree × Tree) → Except Fault (Option Code)
  | [(k₁, t₁), (k₂, t₂)] =>
    if k₁.text? == some "type" && k₂.text? == some "code" then codeOfParts? t₁ t₂
    else if k₁.text? == some "code" && k₂.text? == some "type" then codeOfParts? t₂ t₁
    else .ok none
  | _ => .ok none

/-- The embedded code that a tree is, in either spelling. -/
def code? : Tree → Except Fault (Option Code)
  | .scalar (.code c) => .ok (some c)
  | .map entries => codeOfEntries? entries
  | _ => .ok none

/-- The key of an object property: a name if its text is an identifier name. -/
def key (t : Tree) : Except Fault Node := do
  let text ← t.display
  return if Text.isIdentifierName text then .name text else .text text

theorem sizeOf_snd_lt {entries : List (Tree × Tree)} {e : Tree × Tree} (h : e ∈ entries) :
    sizeOf e.2 < sizeOf (Tree.map entries) := by
  have := List.sizeOf_lt_of_mem h
  obtain ⟨k, t⟩ := e
  simp only [Prod.mk.sizeOf_spec, map.sizeOf_spec] at this ⊢
  omega

/-- A tree as data. -/
def data : Tree → Traced Node
  | .scalar s => s.node
  | .list items | .tuple items => do return .array (← items.mapM fun t => t.data)
  | .set items => do return .text (← (Tree.set items).display)
  | .map entries => do
    match ← codeOfEntries? entries with
    | some c => Snippet.parse c.text
    | none =>
      return .object (← entries.mapM fun e => do
        let key ← e.1.key
        return .property key (← e.2.data))
  | .again _ => return .null
decreasing_by
  · decreasing_tactic
  · decreasing_tactic
  · exact sizeOf_snd_lt (by assumption)

/-- One attribute: its value, then its key. -/
def attributeProperty (key value : Tree) : Traced Node := do
  let node ←
    match ← value.code? with
    | some ⟨.raw, code⟩ => rawAttribute code
    | _ => value.data
  return .property (← key.key) node

/-- The attributes of an element. -/
def attributes : List (Tree × Tree) → Traced Node
  | [] => return .null
  | entries => do return .object (← entries.mapM fun e => attributeProperty e.1 e.2)

/-- Whether an entry holds the children of an element. -/
def isChildrenEntry (e : Tree × Tree) : Bool :=
  e.1.text? == some "children"

mutual

/-- A tree as part of a page. -/
def element : Tree → Traced Node
  | .scalar s => s.node
  | .list items | .tuple items => do return .array (← items.mapM fun t => t.element)
  | .set items => do return .text (← (Tree.set items).display)
  | .map entries => do
    match ← codeOfEntries? entries with
    | some c => Snippet.parse c.text
    | none =>
      match entries with
      | [] => return .null
      | (tag, config) :: _ => do config.elementOf (← tag.display)
  | .again _ => return .null
termination_by t => (sizeOf t, 0)

/-- The element with a tag and a configuration. -/
def elementOf (config : Tree) (tag : String) : Traced Node :=
  match config with
  | .scalar .null => return createElement (tagReference tag) .null [.null]
  | .map entries => do
    match ← codeOfEntries? entries with
    | some _ => return createElement (tagReference tag) .null (← (Tree.map entries).children)
    | none =>
      let children ← childrenIn entries
      let attributes ← attributes (entries.filter (!isChildrenEntry ·))
      return createElement (tagReference tag) attributes children
  | t => do return createElement (tagReference tag) .null (← t.children)
termination_by (sizeOf config, 2)

/-- The children in the configuration of an element. -/
def childrenIn : List (Tree × Tree) → Traced (List Node)
  | [] => return []
  | (key, content) :: rest =>
    if isChildrenEntry (key, content) then content.children else childrenIn rest
termination_by entries => (sizeOf entries, 0)

/-- The children that a tree stands for: the items of a list or a tuple, or the tree itself. -/
def children : Tree → Traced (List Node)
  | .list items | .tuple items => items.mapM fun t => t.element
  | t => do return [← t.element]
termination_by t => (sizeOf t, 1)

end

/-! ### Maps -/

section Map

variable {entries : List (Tree × Tree)}

theorem data_of_code {c : Code} (h : codeOfEntries? entries = .ok (some c)) :
    (Tree.map entries).data = liftM (Snippet.parse c.text) := by
  rw [data, h]
  rfl

theorem data_of_mapping (h : codeOfEntries? entries = .ok none) :
    (Tree.map entries).data = do
      return .object (← entries.mapM fun e => do
        let key ← e.1.key
        return .property key (← e.2.data)) := by
  rw [data, h]
  rfl

theorem element_of_code {c : Code} (h : codeOfEntries? entries = .ok (some c)) :
    (Tree.map entries).element = liftM (Snippet.parse c.text) := by
  rw [element.eq_def]
  dsimp only
  rw [h]
  rfl

theorem element_of_mapping {e : Tree × Tree} (h : codeOfEntries? (e :: entries) = .ok none) :
    (Tree.map (e :: entries)).element = (do e.2.elementOf (← e.1.display)) := by
  rw [element.eq_def]
  dsimp only
  rw [h]
  rfl

theorem elementOf_of_code {c : Code} (h : codeOfEntries? entries = .ok (some c)) (tag : String) :
    (Tree.map entries).elementOf tag = do
      return createElement (tagReference tag) .null (← (Tree.map entries).children) := by
  rw [elementOf, h]
  rfl

theorem elementOf_of_mapping (h : codeOfEntries? entries = .ok none) (tag : String) :
    (Tree.map entries).elementOf tag = do
      let children ← childrenIn entries
      let attributes ← attributes (entries.filter (!isChildrenEntry ·))
      return createElement (tagReference tag) attributes children := by
  rw [elementOf, h]
  rfl

/-- A tree that is no list and no tuple is one child. -/
theorem children_of_single {t : Tree} (hl : ∀ items, t ≠ .list items)
    (ht : ∀ items, t ≠ .tuple items) : t.children = do return [← t.element] := by
  rw [children]
  · exact hl
  · exact ht

end Map

end Tree

/-! ## Code in values and in their trees -/

namespace Graph

variable {g : Graph} {a : Address} {v : Value}

theorem unfold_scalar (g : Graph) (s : Scalar) : g.unfold (.scalar s) = .scalar s := by
  rw [unfold, unfoldWithin]

/-- A container unfolds to no text. -/
theorem text?_unfold (g : Graph) (v : Value) : (g.unfold v).text? = v.text? := by
  rcases g.unfoldWithin_cases g.addresses v with
    ⟨s, rfl, hu⟩ | ⟨a, rfl, -, hu⟩ | ⟨a, c, rfl, -, -, hu⟩ | ⟨kind, hu⟩
  · rw [unfold, hu]
    cases s <;> rfl
  · rw [unfold, hu]
    rfl
  · rw [unfold, hu]
    cases c <;> rfl
  · rw [unfold, hu]
    cases v with
    | scalar s => cases hu.symm.trans (g.unfold_scalar s)
    | container a => rfl

theorem beq_text (v : Value) (s : String) : (v == .text s) = (v.text? == some s) := by
  cases v with
  | container a => rfl
  | scalar t =>
    rw [Bool.eq_iff_iff]
    cases t <;> simp [Value.text?]

theorem codeKind?_unfold (g : Graph) (v : Value) : g.codeKind? v = (g.unfold v).codeKind? := by
  cases v with
  | scalar s =>
    cases s with
    | text name => rw [unfold_scalar, codeKind?, Tree.codeKind?]
    | _ => simp [codeKind?, unfold_scalar, Tree.codeKind?, Tree.unhashable?]
  | container a =>
    have htext := g.text?_unfold (.container a)
    rw [codeKind?]
    · generalize g.unfold (.container a) = t at htext ⊢
      cases t with
      | scalar s =>
        cases s with
        | text name => cases htext
        | _ => rfl
      | _ => rfl
    · simp

/-- An entry of a map as trees. -/
def unfoldEntry (g : Graph) (e : Value × Value) : Tree × Tree :=
  (g.unfold e.1, g.unfold e.2)

theorem codeOfEntries?_unfold (g : Graph) (entries : List (Value × Value)) :
    g.codeOfEntries? entries =
      Tree.codeOfEntries? (entries.map g.unfoldEntry) := by
  rcases entries with _ | ⟨⟨k₁, v₁⟩, _ | ⟨⟨k₂, v₂⟩, _ | ⟨e, rest⟩⟩⟩
  · rfl
  · rfl
  · simp only [codeOfEntries?, Tree.codeOfEntries?, List.map_cons, List.map_nil, unfoldEntry, Tree.codeOfParts?,
      text?_unfold, beq_text, ← codeKind?_unfold]
    by_cases htype : (k₁.text? == some "type" && k₂.text? == some "code") = true
    · simp only [if_pos htype]
      cases v₂ with
      | container a => rfl
      | scalar s => cases s <;> rfl
    · by_cases hcode : (k₁.text? == some "code" && k₂.text? == some "type") = true
      · simp only [if_neg htype, if_pos hcode]
        cases v₁ with
        | container a => rfl
        | scalar s => cases s <;> rfl
      · simp only [if_neg htype, if_neg hcode]
  · rfl

theorem Acyclic.code?_unfold (h : g.Acyclic v) : g.code? v = (g.unfold v).code? := by
  cases v with
  | scalar s =>
    rw [unfold_scalar]
    cases s <;> rfl
  | container a =>
    cases hc : g.get? a with
    | none => rw [code?, hc, unfold, unfoldWithin, hc]; rfl
    | some c =>
      rw [code?, hc, h.unfold_container hc]
      cases c with
      | map entries => exact g.codeOfEntries?_unfold entries
      | _ => rfl

/-- A value to the compiler, and the tree that it unfolds to. -/
inductive Seen (g : Graph) : Value → Except Fault View → Tree → Prop
  | scalar {v : Value} (s : Scalar) : Seen g v (.ok s.view) (.scalar s)
  | set {v : Value} (items : List Tree) : Seen g v (.ok .other) (.set items)
  | list (a : Address) (items : List Value) :
    Seen g (.container a) (.ok (.sequence a items)) (.list (items.map g.unfold))
  | tuple (a : Address) (items : List Value) :
    Seen g (.container a) (.ok (.sequence a items)) (.tuple (items.map g.unfold))
  | fault {v : Value} {entries : List (Tree × Tree)} {f : Fault}
    (h : Tree.codeOfEntries? entries = .error f) : Seen g v (.error f) (.map entries)
  | code {v : Value} {entries : List (Tree × Tree)} {c : Code}
    (h : Tree.codeOfEntries? entries = .ok (some c)) : Seen g v (.ok (.code c)) (.map entries)
  | mapping {a : Address} {entries : List (Value × Value)} (hc : g.get? a = some (.map entries))
    (h : Tree.codeOfEntries? (entries.map g.unfoldEntry) = .ok none) :
    Seen g (.container a) (.ok (.mapping a entries)) (.map (entries.map g.unfoldEntry))

theorem Acyclic.seen (h : g.Acyclic v) : g.Seen v (g.view v) (g.unfold v) := by
  cases v with
  | scalar s =>
    have hview : g.view (.scalar s) = .ok s.view := by cases s <;> rfl
    rw [hview, unfold_scalar]
    exact .scalar s
  | container a =>
    cases hc : g.get? a with
    | none =>
      rw [view, hc, unfold, unfoldWithin, hc]
      exact .scalar .null
    | some c =>
      rw [view, hc, h.unfold_container hc]
      cases c with
      | list items => exact .list a items
      | tuple items => exact .tuple a items
      | set items => exact .set _
      | map entries =>
        dsimp only
        rw [codeOfEntries?_unfold]
        cases hcode : Tree.codeOfEntries? (entries.map g.unfoldEntry) with
        | error f => exact .fault hcode
        | ok c =>
          cases c with
          | none => exact .mapping hc hcode
          | some c => exact .code hcode

end Graph

/-! ## One level -/

namespace Component

variable {g : Graph} {v : Value} {active : List Address}

/-- The recursion over trees, at the trees that values unfold to. -/
def Descent.plain (g : Graph) : Descent where
  data _ v := (g.unfold v).data
  element _ v := (g.unfold v).element
  config _ tag v := (g.unfold v).elementOf tag
  children _ v := (g.unfold v).children

theorem next_plain_data (h : g.Acyclic v) (ha : ∀ a ∈ active, v ≠ .container a) :
    ((Descent.plain g).next g).data active v = (g.unfold v).data := by
  have hseen := h.seen
  simp only [Descent.next, Descent.plain, Graph.display]
  generalize g.view v = view, g.unfold v = t at hseen
  cases hseen with
  | scalar s =>
    rw [Tree.data]
    cases s <;> rfl
  | set items =>
    rw [Tree.data]
    rfl
  | list a items | tuple a items =>
    have hactive : a ∉ active := fun hm => ha a hm rfl
    rw [Tree.data, List.mapM_map]
    show (if a ∈ active then _ else _) = _
    rw [if_neg hactive]
    rfl
  | fault hcode | code hcode =>
    rw [Tree.data, hcode]
    rfl
  | @mapping a entries hc hcode =>
    have hactive : a ∉ active := fun hm => ha a hm rfl
    rw [Tree.data, hcode]
    show (if a ∈ active then _ else _) = do return Node.object (← List.mapM _ _)
    rw [if_neg hactive, List.mapM_map]
    rfl

theorem next_plain_element (h : g.Acyclic v) (ha : ∀ a ∈ active, v ≠ .container a) :
    ((Descent.plain g).next g).element active v = (g.unfold v).element := by
  have hseen := h.seen
  simp only [Descent.next, Descent.plain, Graph.display]
  generalize g.view v = view, g.unfold v = t at hseen
  cases hseen with
  | scalar s =>
    rw [Tree.element]
    cases s <;> rfl
  | set items =>
    rw [Tree.element]
    rfl
  | list a items | tuple a items =>
    have hactive : a ∉ active := fun hm => ha a hm rfl
    rw [Tree.element, List.mapM_map]
    show (if a ∈ active then _ else _) = _
    rw [if_neg hactive]
    rfl
  | fault hcode | code hcode =>
    rw [Tree.element.eq_def]
    dsimp only
    rw [hcode]
    rfl
  | @mapping a entries hc hcode =>
    have hactive : a ∉ active := fun hm => ha a hm rfl
    rw [Tree.element.eq_def]
    dsimp only
    rw [hcode]
    cases entries with
    | nil => rfl
    | cons e entries =>
      show (if a ∈ active then _ else _) = _
      rw [if_neg hactive]
      rfl

/-! ### Configurations -/

theorem isChildrenEntry_unfoldEntry (g : Graph) (e : Value × Value) :
    Tree.isChildrenEntry (g.unfoldEntry e) = isChildrenEntry e := by
  rw [Tree.isChildrenEntry, Graph.unfoldEntry, Graph.text?_unfold, isChildrenEntry, Graph.beq_text]

theorem childrenIn_unfoldEntry (g : Graph) (entries : List (Value × Value)) :
    Tree.childrenIn (entries.map g.unfoldEntry) =
      ((entries.find? isChildrenEntry).map fun e => (g.unfold e.2).children).getD (pure []) := by
  induction entries with
  | nil => rw [List.map_nil, Tree.childrenIn]; rfl
  | cons e entries ih =>
    have hentry : Tree.isChildrenEntry (g.unfold e.1, g.unfold e.2) = isChildrenEntry e :=
      isChildrenEntry_unfoldEntry g e
    rw [List.map_cons, Graph.unfoldEntry, Tree.childrenIn, hentry, ih, List.find?_cons]
    cases isChildrenEntry e <;> rfl

/-- The attributes of an element in a graph and in its tree. -/
theorem attributes_unfoldEntry {entries : List (Value × Value)} (h : ∀ e ∈ entries, g.Acyclic e.2) :
    Tree.attributes (entries.map g.unfoldEntry) =
      attributesWith g (fun v => (g.unfold v).data) entries := by
  have hone : ∀ e ∈ entries, Tree.attributeProperty (g.unfold e.1) (g.unfold e.2) =
      attributeProperty g (fun v => (g.unfold v).data) e.1 e.2 := by
    intro e he
    rw [attributeProperty, Tree.attributeProperty, (h e he).code?_unfold]
    rfl
  cases entries with
  | nil => rfl
  | cons e entries =>
    rw [List.map_cons, Tree.attributes, ← List.map_cons, List.mapM_map, attributesWith]
    · exact congrArg (· >>= fun properties => pure (Node.object properties))
        (Descent.mapM_congr hone)
    all_goals simp

theorem next_plain_config (h : g.Acyclic v) (ha : ∀ a ∈ active, v ≠ .container a) (tag : String) :
    ((Descent.plain g).next g).config active tag v = (g.unfold v).elementOf tag := by
  have hseen := h.seen
  simp only [Descent.next, Descent.plain, Graph.display]
  generalize g.view v = view, g.unfold v = t at hseen
  cases hseen with
  | scalar s =>
    cases s with
    | null => rw [Tree.elementOf]; rfl
    | text s =>
      rw [Tree.elementOf, Tree.children, Tree.element, bind_assoc]
      · rfl
      all_goals simp
    | _ =>
      rw [Tree.elementOf]
      · rfl
      all_goals simp
  | set items =>
    rw [Tree.elementOf]
    · rfl
    all_goals simp
  | list a items | tuple a items =>
    rw [Tree.elementOf]
    · rfl
    all_goals simp
  | fault hcode | code hcode =>
    rw [Tree.elementOf, hcode]
    rfl
  | @mapping a entries hc hcode =>
    have hactive : a ∉ active := fun hm => ha a hm rfl
    have hfilter : (entries.map g.unfoldEntry).filter (!Tree.isChildrenEntry ·) =
        (entries.filter (!isChildrenEntry ·)).map g.unfoldEntry := by
      simp only [List.filter_map, Function.comp_def, isChildrenEntry_unfoldEntry]
    rw [Tree.elementOf, hcode, childrenIn_unfoldEntry, hfilter, attributes_unfoldEntry]
    · show (if a ∈ active then _ else _) = _
      rw [if_neg hactive]
      cases entries.find? isChildrenEntry <;> rfl
    · intro e he
      exact h.part ⟨a, _, rfl, hc, Graph.mem_parts_snd (List.mem_of_mem_filter he)⟩

theorem next_plain_children (h : g.Acyclic v) :
    ((Descent.plain g).next g).children active v = (g.unfold v).children := by
  simp only [Descent.next, Descent.plain]
  cases v with
  | scalar s =>
    rw [Graph.unfold_scalar, Tree.children]
    · rfl
    all_goals simp
  | container a =>
    rw [Graph.items?]
    cases hc : g.get? a with
    | none =>
      rw [Graph.unfold, Graph.unfoldWithin, hc, Tree.children]
      all_goals simp
    | some c =>
      rw [h.unfold_container hc]
      cases c with
      | list items | tuple items =>
        rw [Container.tree, Tree.children, List.mapM_map]
        rfl
      | set items | map entries =>
        rw [Container.tree, Tree.children]
        all_goals simp

/-! ## The way down -/

/-- The value of a call is not inside itself, and none of the containers that were entered on the way
to it is inside of it. -/
structure Apart (g : Graph) (c : Call) : Prop where
  acyclic : g.Acyclic c.task.value
  active : ∀ a ∈ c.active, ¬ ReflTransGen g.Contains c.task.value (.container a)

variable {c c' : Call}

theorem Apart.ne_container (h : Apart g c) : ∀ a ∈ c.active, c.task.value ≠ .container a := by
  intro a ha he
  have hself := h.active a ha
  rw [he] at hself
  exact hself .refl

/-- A call for a part of the value, with nothing entered. -/
theorem Apart.part (h : Apart g c) (hw : g.Contains c.task.value c'.task.value)
    (he : c'.active = c.active) : Apart g c' where
  acyclic := h.acyclic.part hw
  active a ha := fun hr => h.active a (he ▸ ha) (.head hw hr)

/-- A call for a part of a container, with the container entered. -/
theorem Apart.enter {a : Address} (h : Apart g c) (hv : c.task.value = .container a)
    (hw : g.Contains (.container a) c'.task.value) (he : c'.active = a :: c.active) :
    Apart g c' where
  acyclic := h.acyclic.part (hv ▸ hw)
  active b hb := by
    intro hr
    rw [he] at hb
    rcases List.mem_cons.mp hb with rfl | hb
    · exact (hv ▸ h.acyclic).not_reaches hw hr
    · exact h.active b hb (.head (hv ▸ hw) hr)

theorem contains_of_sequence {a : Address} {items : List Value} {w : Value}
    (hv : g.view v = .ok (.sequence a items)) (hw : w ∈ items) : g.Contains (.container a) w := by
  obtain ⟨-, hc | hc⟩ := shows_of_view hv
  · exact ⟨a, _, rfl, hc, hw⟩
  · exact ⟨a, _, rfl, hc, hw⟩

theorem contains_of_mapping {a : Address} {entries : List (Value × Value)} {e : Value × Value}
    (hv : g.view v = .ok (.mapping a entries)) (he : e ∈ entries) :
    g.Contains (.container a) e.2 :=
  ⟨a, _, rfl, (shows_of_view hv).2, Graph.mem_parts_snd he⟩

/-- **Values and entered containers stay apart.** -/
theorem Calls.apart (h : Calls g c c') (ha : Apart g c) : Apart g c' := by
  cases h with
  | dataItem hv _ hi | elementItem hv _ hi =>
    exact ha.enter (shows_of_view hv).1 (contains_of_sequence hv hi) rfl
  | dataEntry hv _ he =>
    exact ha.enter (shows_of_view hv).1 (contains_of_mapping hv he) rfl
  | elementConfig hv _ =>
    exact ha.enter (shows_of_view hv).1 (contains_of_mapping hv List.mem_cons_self) rfl
  | attributeValue hv _ he _ =>
    exact ha.enter (shows_of_view hv).1 (contains_of_mapping hv (List.mem_of_mem_filter he)) rfl
  | children hv _ he =>
    exact ha.enter (shows_of_view hv).1 (contains_of_mapping hv (List.mem_of_find?_eq_some he)) rfl
  | content _ _ | onlyChild _ => exact ⟨ha.acyclic, ha.active⟩
  | child hv hi =>
    obtain ⟨a, rfl, hc | hc⟩ := get?_of_items? hv
    · exact ha.part ⟨a, _, rfl, hc, hi⟩ rfl
    · exact ha.part ⟨a, _, rfl, hc, hi⟩ rfl

/-- One level of the compiler is one level of the recursion over trees. -/
theorem agreeAt_next_plain (h : Apart g c) :
    Descent.AgreeAt ((Descent.plain g).next g) (Descent.plain g) c := by
  have hne := h.ne_container
  obtain ⟨active, task⟩ := c
  cases task with
  | data v => exact next_plain_data h.acyclic hne
  | element v => exact next_plain_element h.acyclic hne
  | config v => exact next_plain_config h.acyclic hne
  | children v => exact next_plain_children h.acyclic

/-- The compiler is the recursion over trees, on the whole way down. -/
theorem agreeAt_plain (g : Graph) (c : Call) (h : Apart g c) :
    Descent.AgreeAt (Descent.compiler g) (Descent.plain g) c := by
  induction c using (wellFounded_calls g).induction with
  | _ c ih =>
    have hcalls : ∀ c', Calls g c c' → Descent.AgreeAt (Descent.compiler g) (Descent.plain g) c' :=
      fun c' hc => ih c' hc (hc.apart h)
    have hlevel := (Descent.next_congr hcalls).trans (agreeAt_next_plain h)
    exact Descent.AgreeAt.trans (Descent.AgreeAt.symm (Descent.next_compiler g c)) hlevel

theorem convert_eq_data (h : g.Acyclic v) : convert g v = (g.unfold v).data := by
  rw [convert, ← free_nil]
  exact agreeAt_plain g ⟨[], .data v⟩ ⟨h, by simp⟩

theorem element_eq_element (h : g.Acyclic v) : element g v = (g.unfold v).element := by
  rw [element, ← free_nil]
  exact agreeAt_plain g ⟨[], .element v⟩ ⟨h, by simp⟩

/-- **Sharing makes no difference.** A value that is not inside itself unfolds to a tree.  The compiler
makes of the value what the recursion over trees makes of that tree, as data and as part of a page,
and so does an instance that finds out by itself which containers it is inside of. -/
theorem compiles_as_tree (h : g.Acyclic v) (annotated : Bool) :
    (∃ t, g.Unfolds v t) ∧ ∀ t, g.Unfolds v t →
      convert g v = t.data ∧ element g v = t.element ∧
      Instance.perform ⟨annotated, []⟩ (.data g v) =
        some (do return .node (← t.data), ⟨annotated, []⟩) ∧
      Instance.perform ⟨annotated, []⟩ (.element g v) =
        some (do return .node (← t.element), ⟨annotated, []⟩) := by
  refine ⟨⟨_, h.unfolds⟩, fun t ht => ?_⟩
  obtain rfl := h.unfolds.unique ht
  have hdata := convert_eq_data h
  have helement := element_eq_element h
  refine ⟨hdata, helement, ?_, ?_⟩
  · rw [perform_fresh, Operation.answer, hdata]
  · rw [perform_fresh, Operation.answer, helement]

/-- A page with a style that is shared by an attribute and two configurations, and an element that is
a child twice. -/
def sharedStyle : Graph :=
  ⟨#[.map [(.text "div", .container 1)],
    .map [(.text "style", .container 4), (.text "children", .container 2)],
    .list [.container 3, .container 3],
    .map [(.text "p", .container 4)],
    .map [(.text "color", .text "red")]]⟩

theorem acyclic_sharedStyle : sharedStyle.Acyclic (.container 0) := by
  refine Graph.acyclic_of_ascending (fun a c b hc hb => ?_) _
  rcases a with _ | _ | _ | _ | _ | a <;> cases hc
  all_goals simp [sharedStyle, Container.parts] at hb <;> grind

theorem compiles_as_tree_sharedStyle :
    sharedStyle.Acyclic (.container 0) ∧ ∃ t, sharedStyle.Unfolds (.container 0) t ∧
      element sharedStyle (.container 0) = t.element := by
  obtain ⟨⟨t, ht⟩, htree⟩ := compiles_as_tree acyclic_sharedStyle false
  exact ⟨acyclic_sharedStyle, t, ht, (htree t ht).2.1⟩

example : (element sharedStyle (.container 0)).result =
    (let style := Node.object [.property (.name "color") (.text "red")]
     let paragraph := createElement (.text "p") style []
     .ok (createElement (.text "div") (.object [.property (.name "style") style])
      [paragraph, paragraph])) := by
  with_unfolding_all rfl

end Component

end Componentry
