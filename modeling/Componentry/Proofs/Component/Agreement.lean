import Componentry.Proofs.Component.Result
import Componentry.Proofs.Component.Sharing
import Componentry.Proofs.Outcome
import Componentry.Proofs.Snippet.Language

/-!
# Where the ways of the compiler agree

The same value can be met as part of a page, as data, as an attribute and as the content of an element,
and each of them has rules of its own.  Here they are compared where more than one of them applies.

**Main statements.** A value without maps other than code is the same as part of a page and as data, and
a map that can be data is the same as the attributes of an element (`page_and_attributes_as_data`).  The
content of an element may stand in the place of its configuration (`element_shorthand`).

All is stated for values that are not inside themselves, and proved for the trees that they unfold to.
-/

namespace Componentry

open Relation (ReflTransGen)
open Script (Node)
open Component

/-- A snippet is trimmed when it is parsed. -/
theorem Snippet.parse_trimmed (code : String) : parse (Text.trimmed code) = parse code := by
  rw [parse, parse, Text.trimmed, String.toList_ofList, ofChars, trim_trim, ← ofChars]

/-! ## Pages without elements -/

/-- All maps in the value are embedded code. -/
def Graph.MapsAreCode (g : Graph) (v : Value) : Prop :=
  ∀ a entries, ReflTransGen g.Contains v (.container a) → g.get? a = some (.map entries) →
    ∃ c, g.code? (.container a) = .ok (some c)

namespace Graph

variable {g : Graph} {v w : Value} {t : Tree}

theorem get?_of_entries? {entries : List (Value × Value)} (h : g.entries? v = some entries) :
    ∃ a, v = .container a ∧ g.get? a = some (.map entries) := by
  unfold entries? at h
  split at h
  · split at h
    · next hc =>
      cases h
      exact ⟨_, rfl, hc⟩
    · cases h
  · cases h

theorem MapsAreCode.part (h : g.MapsAreCode v) (hw : g.Contains v w) : g.MapsAreCode w :=
  fun a entries ha hc => h a entries (.head hw ha) hc

theorem code?_map {a : Address} {entries : List (Value × Value)} (h : g.get? a = some (.map entries)) :
    g.code? (.container a) = g.codeOfEntries? entries := by
  rw [code?, h]

/-- Without maps other than code the two recursions have the same cases. -/
theorem Unfolds.element_eq_data (h : g.Unfolds v t) (hv : g.MapsAreCode v) : t.element = t.data := by
  induction h with
  | scalar s => rw [Tree.element, Tree.data]
  | vacant _ => rw [Tree.element, Tree.data]
  | @container a c part hc hparts ih =>
    have hpart : ∀ w ∈ c.parts, (part w).element = (part w).data :=
      fun w hw => ih w hw (hv.part ⟨a, c, rfl, hc, hw⟩)
    cases c with
    | list items | tuple items =>
      have hitems : (items.map part).mapM (·.element) = (items.map part).mapM (·.data) :=
        Descent.mapM_congr (List.forall_mem_map.mpr hpart)
      rw [Container.tree, Tree.element, Tree.data, hitems]
    | set items => rw [Container.tree, Tree.element, Tree.data]
    | map entries =>
      obtain ⟨c, hcode⟩ := hv a entries .refl hc
      have htree : Container.tree part (.map entries) = .map (entries.map g.unfoldEntry) :=
        tree_congr fun w hw => (hparts w hw).unfold_eq.symm
      rw [code?_map hc, codeOfEntries?_unfold] at hcode
      rw [htree, Tree.element_of_code hcode, Tree.data_of_code hcode]

end Graph

/-! ## Attributes -/

namespace Tree

variable {key value : Tree} {entries : List (Tree × Tree)} {node : Node}

theorem data_of_code? {t : Tree} {c : Code} (h : t.code? = .ok (some c)) :
    t.data = liftM (Snippet.parse c.text) := by
  unfold code? at h
  split at h
  · cases h
    rw [data]
    rfl
  · exact data_of_code h
  · cases h

/-- What can be data can be told from code. -/
theorem exists_code?_of_data {t : Tree} (h : t.data.result = .ok node) : ∃ c, t.code? = .ok c := by
  cases t with
  | map entries =>
    cases hcode : codeOfEntries? entries with
    | ok c => exact ⟨c, hcode⟩
    | error f =>
      rw [data, hcode] at h
      cases h
  | scalar s => cases s <;> exact ⟨_, rfl⟩
  | _ => exact ⟨_, rfl⟩

/-- A value that can be data is the same node as an attribute, where raw code is parsed on its own. -/
theorem attributeProperty_eq {k : Node} (hkey : key.key = .ok k) (h : value.data.result = .ok node) :
    attributeProperty key value = do
      let key ← key.key
      return Node.property key (← value.data) := by
  obtain ⟨c, hc⟩ := exists_code?_of_data h
  unfold attributeProperty
  rw [hkey, hc]
  cases c with
  | none => rfl
  | some c =>
    obtain ⟨kind, code⟩ := c
    cases kind with
    | typing => rfl
    | raw =>
      have hparse : Snippet.parse code = .ok node := by
        rw [data_of_code? hc, result_liftM] at h
        exact h
      have hraw : rawAttribute code = pure node := by
        rw [rawAttribute, Snippet.parse_trimmed, hparse]
      rw [data_of_code? hc, hparse]
      simp only [liftM_ok_bind, hraw, pure_bind]

/-- **Attributes are data.** A map that can be data is the same node as the attributes of an element. -/
theorem attributes_eq_data (hne : entries ≠ []) (hcode : codeOfEntries? entries = .ok none)
    (h : (Tree.map entries).data.result = .ok node) : attributes entries = (Tree.map entries).data := by
  rw [data_of_mapping hcode] at h ⊢
  have hall : Succeeds (entries.mapM fun e => do
      let key ← e.1.key
      return Node.property key (← e.2.data.result)) := by
    simp only [Traced.result_bind, Traced.result_mapM, result_liftM] at h
    exact Gives.first (R := fun _ => True) ⟨node, h, trivial⟩
  have hone : ∀ e ∈ entries, attributeProperty e.1 e.2 = do
      let key ← e.1.key
      return Node.property key (← e.2.data) := by
    intro e he
    obtain ⟨k, hkey, hvalue⟩ := gives_bind_iff.mp (succeeds_mapM_iff.mp hall e he)
    obtain ⟨n, hn, -⟩ := gives_bind_iff.mp hvalue
    exact attributeProperty_eq hkey hn
  rw [attributes, Descent.mapM_congr hone]
  exact hne

end Tree

namespace Component

variable {g : Graph} {v : Value}

/-- The attributes in a map that is not empty. -/
theorem attributes_of_map {a : Address} {entries : List (Value × Value)}
    (hc : g.get? a = some (.map entries)) (hne : entries ≠ []) :
    attributes g (.container a) = attributesWith g (convert g) entries := by
  have hvoid : g.isVoid (.container a) = false := by
    rw [Graph.isVoid, hc]
    exact List.isEmpty_eq_false_iff.mpr hne
  rw [attributes, attributesFrom, hvoid, Graph.entries?, hc]
  rfl

theorem attributes_eq_convert {entries : List (Value × Value)} {node : Node} (h : g.Acyclic v)
    (hv : g.entries? v = some entries) (hne : entries ≠ []) (hcode : ∀ c, g.code? v ≠ .ok (some c))
    (hnode : (convert g v).result = .ok node) : attributes g v = convert g v := by
  obtain ⟨a, rfl, hc⟩ := Graph.get?_of_entries? hv
  have htree : g.unfold (.container a) = .map (entries.map g.unfoldEntry) := h.unfold_container hc
  have hvalues : ∀ e ∈ entries, g.Acyclic e.2 :=
    fun e he => h.part ⟨a, _, rfl, hc, Graph.mem_parts_snd he⟩
  rw [convert_eq_data h, htree] at hnode ⊢
  rw [h.code?_unfold, htree] at hcode
  have hmap : Tree.codeOfEntries? (entries.map g.unfoldEntry) = .ok none := by
    obtain ⟨c, hc⟩ := Tree.exists_code?_of_data hnode
    cases c with
    | none => exact hc
    | some c => exact absurd hc (hcode c)
  calc attributes g (.container a)
      = attributesWith g (convert g) entries := attributes_of_map hc hne
    _ = attributesWith g (fun v => (g.unfold v).data) entries :=
        Descent.attributesWith_congr fun e he _ => convert_eq_data (hvalues e he)
    _ = Tree.attributes (entries.map g.unfoldEntry) := (attributes_unfoldEntry hvalues).symm
    _ = (Tree.map (entries.map g.unfoldEntry)).data :=
        Tree.attributes_eq_data (by simpa using hne) hmap hnode

/-- **Pages, attributes and data agree.** Take a value that is not inside itself.  If all maps in it are
code, it becomes the same as part of a page and as data: the same node or the same fault.  If it is a map
itself, with entries and no code, and there is a node for it as data, then that is the node for the
attributes that it stands for, whatever is under its keys. -/
theorem page_and_attributes_as_data (h : g.Acyclic v) :
    (g.MapsAreCode v → element g v = convert g v) ∧
      ∀ entries, g.entries? v = some entries → entries ≠ [] → (∀ c, g.code? v ≠ .ok (some c)) →
        ∀ node, (convert g v).result = .ok node → attributes g v = convert g v := by
  constructor
  · intro hv
    rw [element_eq_element h, convert_eq_data h]
    exact h.unfolds.element_eq_data hv
  · intro entries hv hne hcode node hnode
    exact attributes_eq_convert h hv hne hcode hnode

/-- A list with code in both spellings, and with a list of its own. -/
def codeList : Graph :=
  ⟨#[.list [.scalar (.code ⟨.raw, " n + 1 "⟩), .container 1, .text "Hi $\x7bname\x7d", .container 2],
    .map [(.text "code", .text "() => next(n)"), (.text "type", .text "JSExpression")],
    .list [.scalar .null, .scalar (.int 7)]]⟩

/-- Attributes with raw code, a type, a list, a map and a text. -/
def looseAttributes : Graph :=
  ⟨#[.map [(.text "onClick", .scalar (.code ⟨.raw, " () => save(x) "⟩)),
      (.text "of", .scalar (.code ⟨.typing, "Theme"⟩)), (.text "sizes", .container 1),
      (.text "style", .container 2), (.text "aria-label", .text "Save $\x7bname\x7d")],
    .list [.scalar (.int 1), .scalar (.code ⟨.raw, "n"⟩)],
    .map [(.text "color", .text "red")]]⟩

theorem mapsAreCode_codeList : codeList.MapsAreCode (.container 0) := by
  intro a entries _ hc
  rcases a with _ | _ | _ | a <;> cases hc
  exact ⟨⟨.raw, "() => next(n)"⟩, rfl⟩

theorem page_and_attributes_as_data_codeList :
    codeList.MapsAreCode (.container 0) ∧
      element codeList (.container 0) = convert codeList (.container 0) ∧
      (∃ node, (convert looseAttributes (.container 0)).result = .ok node) ∧
      attributes looseAttributes (.container 0) = convert looseAttributes (.container 0) := by
  have hlist := page_and_attributes_as_data (v := .container 0)
    (Graph.acyclic_of_isAscending (g := codeList) (by decide) _)
  have hmap := page_and_attributes_as_data (v := .container 0)
    (Graph.acyclic_of_isAscending (g := looseAttributes) (by decide) _)
  obtain ⟨node, hnode⟩ : ∃ node, (convert looseAttributes (.container 0)).result = .ok node :=
    ⟨_, by with_unfolding_all rfl⟩
  refine ⟨mapsAreCode_codeList, hlist.1 mapsAreCode_codeList, ⟨node, hnode⟩, ?_⟩
  exact hmap.2 _ rfl (by simp) (by rintro c ⟨⟩) node hnode

end Component

/-! ## Content in the place of a configuration -/

/-- What is no map of attributes is the same as a configuration and as the children in one. -/
theorem Tree.elementOf_children {t : Tree}
    (h : ∀ entries, t = .map entries → codeOfEntries? entries ≠ .ok none) (tag : String) :
    t.elementOf tag = (Tree.map [(.scalar (.text "children"), t)]).elementOf tag := by
  have hlong : (Tree.map [(.scalar (.text "children"), t)]).elementOf tag = do
      return createElement (tagReference tag) .null (← t.children) := by
    rw [elementOf_of_mapping rfl, childrenIn]
    rfl
  rw [hlong]
  cases t with
  | scalar s =>
    cases s with
    | null =>
      rw [elementOf, children, element]
      · rfl
      all_goals simp
    | _ =>
      rw [elementOf]
      all_goals simp
  | map entries =>
    cases hcode : codeOfEntries? entries with
    | error f =>
      rw [elementOf, hcode, children, element.eq_def]
      · dsimp only
        rw [hcode]
        rfl
      all_goals simp
    | ok c =>
      cases c with
      | none => exact absurd hcode (h entries rfl)
      | some c => exact elementOf_of_code hcode tag
  | _ =>
    rw [elementOf]
    all_goals simp

/-- A tree that is a map is that of a map. -/
theorem Graph.Acyclic.codeOfEntries?_ne {g : Graph} {v : Value} (h : g.Acyclic v)
    (hv : ∀ entries, g.entries? v = some entries → g.code? v ≠ .ok none) :
    ∀ entries, g.unfold v = .map entries → Tree.codeOfEntries? entries ≠ .ok none := by
  intro entries htree hcode
  rw [h.code?_unfold, htree] at hv
  cases v with
  | scalar s => cases htree.symm.trans (g.unfold_scalar s)
  | container a =>
    cases hc : g.get? a with
    | none =>
      rw [unfold, unfoldWithin, hc] at htree
      cases htree
    | some c =>
      rw [h.unfold_container hc] at htree
      cases c with
      | map entries => exact hv entries (by rw [entries?, hc]) hcode
      | _ => cases htree

namespace Component

variable {g : Graph} {short long config : Address} {tag content : Value}

/-- An element becomes what its configuration becomes with its tag. -/
theorem element_of_single {a : Address} {config : Value} (ha : g.get? a = some (.map [(tag, config)]))
    (hc : g.Acyclic config) (hapart : ¬ ReflTransGen g.Contains config (.container a)) :
    element g (.container a) = (do (g.unfold config).elementOf (← g.display tag)) := by
  have hconfig : ∀ tag, (Descent.compiler g).config [a] tag config = (g.unfold config).elementOf tag :=
    agreeAt_plain g ⟨[a], .config config⟩ ⟨hc, List.forall_mem_singleton.mpr hapart⟩
  have hlevel : ((Descent.compiler g).next g).element [] (.container a) = _ :=
    Descent.next_compiler g ⟨[], .element (.container a)⟩
  have hview := view_mapping ha rfl
  rw [element, ← free_nil]
  refine hlevel.symm.trans ?_
  simp only [Descent.next, hview, liftM_ok_bind, hconfig]
  rfl

/-- **Shorthand.** Content that is not inside itself and no map, other than code, may stand in the place
of a configuration that holds nothing but it as the children: the element is the same, or the fault. -/
theorem element_shorthand (hshort : g.get? short = some (.map [(tag, content)]))
    (hlong : g.get? long = some (.map [(tag, .container config)]))
    (hconfig : g.get? config = some (.map [(.text "children", content)])) (hc : g.Acyclic content)
    (hm : ∀ entries, g.entries? content = some entries → g.code? content ≠ .ok none) :
    element g (.container short) = element g (.container long) := by
  have hin : g.Contains (.container config) content :=
    ⟨config, _, rfl, hconfig, by simp [Container.parts]⟩
  have hlong' : g.Contains (.container long) (.container config) :=
    ⟨long, _, rfl, hlong, by simp [Container.parts]⟩
  have hshort' : g.Contains (.container short) content :=
    ⟨short, _, rfl, hshort, by simp [Container.parts]⟩
  have hacyclic : g.Acyclic (.container config) := by
    refine Graph.acyclic_of_parts ?_
    rintro w ⟨_, _, ⟨⟩, hget, hw⟩
    cases hconfig.symm.trans hget
    rcases List.mem_pair.mp hw with rfl | rfl
    · exact (Graph.Unfolds.scalar _).acyclic
    · exact hc
  have htree : g.unfold (.container config) =
      .map [(.scalar (.text "children"), g.unfold content)] := by
    rw [hacyclic.unfold_container hconfig]
    simp only [Container.tree, List.map_cons, List.map_nil, Graph.unfold_scalar]
  rw [element_of_single hshort hc (hc.not_around hshort'),
    element_of_single hlong hacyclic (hacyclic.not_around hlong'), htree]
  have hcontent := Tree.elementOf_children (hc.codeOfEntries?_ne hm)
  simp only [hcontent]

/-- A list of items in short and in long, with an empty list among the items. -/
def itemList : Graph :=
  ⟨#[.map [(.text "ul", .container 3)],
    .map [(.text "ul", .container 2)],
    .map [(.text "children", .container 3)],
    .list [.container 4, .text "none", .container 5],
    .map [(.text "li", .scalar (.code ⟨.raw, "first"⟩))],
    .list []]⟩

theorem element_shorthand_itemList :
    itemList.Acyclic (.container 3) ∧
      element itemList (.container 0) = element itemList (.container 1) := by
  have hacyclic := Graph.acyclic_of_isAscending (g := itemList) (by decide) (.container 3)
  exact ⟨hacyclic, element_shorthand rfl rfl rfl hacyclic (by rintro entries ⟨⟩)⟩

example : (element itemList (.container 0)).result =
    .ok (createElement (.text "ul") .null
      [createElement (.text "li") .null [.name "first"], .text "none", .array []]) := by
  with_unfolding_all rfl

end Component

end Componentry
