import Componentry.Proofs.Component.Result
import Componentry.Proofs.Component.Span
import Componentry.Proofs.Document.Parts
import Componentry.Proofs.Outcome
import Componentry.Proofs.Script.DataLiteral

/-!
# Data literals

Plain data in a document is null, truth values, integers, texts, lists, and maps under texts.  As an
attribute it becomes a literal of the module.

**Main statement.** At every level the literal is read back as the data it was made from, with the
keys of its maps in their order (`dataLiteral?_convert`).

## What is left out

A text with a span is a template and a map with the two keys `type` and `code` may be embedded code.
A key that is a word and one line feed is printed like that word.
-/

namespace Componentry.Component

open Script

/-! ## Plain data -/

/-- Plain data: null, truth values, integers that are written with few enough digits, texts without
a span, lists, and maps under texts.  The keys of a map are not just `type` and `code`, and none of
them is a word and one line feed. -/
inductive IsData : Tree → Prop
  | null : IsData (.scalar .null)
  | bool (b : Bool) : IsData (.scalar (.bool b))
  | int {n : Int} (h : fewDigits n) : IsData (.scalar (.int n))
  | text {s : String} (h : ¬ HasSpan s.toList) : IsData (.scalar (.text s))
  | list {items : List Tree} (h : ∀ t ∈ items, IsData t) : IsData (.list items)
  | map {es : List (String × Tree)} (hcode : ¬ (es.map Prod.fst).Perm ["type", "code"])
    (hkeys : ∀ e ∈ es, ¬ IsBrokenWord e.1) (h : ∀ e ∈ es, IsData e.2) :
    IsData (.map (es.map textEntry))

/-! ### Unfolding backwards -/

section Unfold

variable {g : Graph} {fresh : List Address} {v : Value}

theorem eq_of_unfoldWithin_scalar {s : Scalar} (h : g.unfoldWithin fresh v = .scalar s) :
    v = .scalar s ∨ s = .null ∧ g.view v = .ok .null := by
  rcases g.unfoldWithin_cases fresh v with
    ⟨s', hv, hu⟩ | ⟨a, rfl, hc, hu⟩ | ⟨a, c, -, -, -, hu⟩ | ⟨kind, hu⟩
  · exact .inl (hv.trans (by rw [← Tree.scalar.inj (hu.symm.trans h)]))
  · exact .inr ⟨(Tree.scalar.inj (hu.symm.trans h)).symm, by rw [Graph.view, hc]⟩
  · cases c <;> cases hu.symm.trans h
  · cases hu.symm.trans h

theorem eq_scalar_of_unfoldWithin {s : Scalar} (h : g.unfoldWithin fresh v = .scalar s)
    (hs : s ≠ .null) : v = .scalar s :=
  (eq_of_unfoldWithin_scalar h).resolve_right fun hn => hs hn.1

theorem eq_of_unfoldWithin_list {items : List Tree} (h : g.unfoldWithin fresh v = .list items) :
    ∃ a values, v = .container a ∧ g.get? a = some (.list values) ∧ a ∈ fresh ∧
      values.map (g.unfoldWithin (fresh.erase a)) = items := by
  rcases g.unfoldWithin_cases fresh v with
    ⟨s, -, hu⟩ | ⟨a, -, -, hu⟩ | ⟨a, c, hv, hc, ha, hu⟩ | ⟨kind, hu⟩
  · cases hu.symm.trans h
  · cases hu.symm.trans h
  · cases c <;> cases hu.symm.trans h
    exact ⟨a, _, hv, hc, ha, rfl⟩
  · cases hu.symm.trans h

theorem eq_of_unfoldWithin_map {es : List (Tree × Tree)} (h : g.unfoldWithin fresh v = .map es) :
    ∃ a entries, v = .container a ∧ g.get? a = some (.map entries) ∧ a ∈ fresh ∧
      (entries.map fun e =>
        (g.unfoldWithin (fresh.erase a) e.1, g.unfoldWithin (fresh.erase a) e.2)) = es := by
  rcases g.unfoldWithin_cases fresh v with
    ⟨s, -, hu⟩ | ⟨a, -, -, hu⟩ | ⟨a, c, hv, hc, ha, hu⟩ | ⟨kind, hu⟩
  · cases hu.symm.trans h
  · cases hu.symm.trans h
  · cases c <;> cases hu.symm.trans h
    exact ⟨a, _, hv, hc, ha, rfl⟩
  · cases hu.symm.trans h

end Unfold

/-! ### Conversion -/

/-- Every value that unfolds to `t` becomes a literal of `t`. -/
def HasLiteral (t : Tree) : Prop :=
  ∀ (g : Graph) (fresh : List Address) (v : Value), g.unfoldWithin fresh v = t →
    ∃ node, (convertWithin g fresh v).result = .ok node ∧ IsLiteral node t

theorem propertyKey_text (g : Graph) (key : String) :
    propertyKey g (.text key) = .ok (keyNode key) := by
  rw [propertyKey, Graph.display, Graph.unfold, Graph.unfoldWithin]
  rfl

/-- Maps under other keys than `type` and `code` are no code. -/
theorem codeOfEntries?_eq_none {g : Graph} {entries : List (Value × Value)} {keys : List String}
    (hkeys : entries.map Prod.fst = keys.map .text) (h : ¬ keys.Perm ["type", "code"]) :
    g.codeOfEntries? entries = .ok none := by
  unfold Graph.codeOfEntries?
  split
  · next k₁ v₁ k₂ v₂ =>
    match keys, hkeys with
    | [s₁, s₂], hkeys =>
      cases hkeys
      have h₁ : ¬ (s₁ = "type" ∧ s₂ = "code") := by
        rintro ⟨rfl, rfl⟩
        exact h (.refl _)
      have h₂ : ¬ (s₁ = "code" ∧ s₂ = "type") := by
        rintro ⟨rfl, rfl⟩
        exact h (.swap _ _ _)
      simp [h₁, h₂]
  · rfl

theorem exists_items {g : Graph} {fresh : List Address} : ∀ {items : List Tree} {values : List Value},
    (∀ t ∈ items, HasLiteral t) → values.map (g.unfoldWithin fresh) = items →
    ∃ nodes, (values.mapM fun v => (convertWithin g fresh v).result) = .ok nodes ∧
      List.Forall₂ IsLiteral nodes items
  | [], [], _, _ => ⟨[], rfl, .nil⟩
  | t :: items, v :: values, h, he => by
    obtain ⟨hv, he⟩ := List.cons.inj he
    obtain ⟨ht, h⟩ := List.forall_mem_cons.mp h
    obtain ⟨node, hnode, hl⟩ := ht g fresh v hv
    obtain ⟨nodes, hnodes, hls⟩ := exists_items h he
    exact ⟨node :: nodes, mapM_cons_ok hnode hnodes, .cons hl hls⟩

theorem exists_entries {g : Graph} {fresh : List Address} :
    ∀ {es : List (String × Tree)} {entries : List (Value × Value)},
    (∀ e ∈ es, ¬ IsBrokenWord e.1) → (∀ e ∈ es, HasLiteral e.2) →
    (entries.map fun e => (g.unfoldWithin fresh e.1, g.unfoldWithin fresh e.2)) =
      es.map textEntry →
    ∃ ps, (entries.mapM fun e => do
        let key ← propertyKey g e.1
        return Node.property key (← (convertWithin g fresh e.2).result)) = .ok (properties ps) ∧
      List.Forall₂ IsEntry ps es ∧ entries.map Prod.fst = (es.map Prod.fst).map .text
  | [], [], _, _, _ => ⟨[], rfl, .nil, rfl⟩
  | (key, t) :: es, (k, v) :: entries, hk, h, he => by
    obtain ⟨hkv, hes⟩ := List.cons.inj he
    obtain ⟨hkey, hv⟩ := Prod.mk.inj hkv
    obtain ⟨hb, hk⟩ := List.forall_mem_cons.mp hk
    obtain ⟨ht, h⟩ := List.forall_mem_cons.mp h
    obtain rfl : k = .text key := eq_scalar_of_unfoldWithin hkey nofun
    obtain ⟨node, hnode, hl⟩ := ht g fresh v hv
    obtain ⟨ps, hps, hls, hkeys⟩ := exists_entries hk h hes
    refine ⟨(keyNode key, node) :: ps, mapM_cons_ok ?_ hps, .cons ⟨rfl, hb, hl⟩ hls, ?_⟩
    · rw [propertyKey_text, hnode]
      rfl
    · rw [List.map_cons, hkeys]
      rfl

/-- Plain data becomes a literal.  Unfolding and conversion enter the same containers, so the
induction is on the tree, for all values that unfold to it. -/
theorem IsData.hasLiteral {t : Tree} (h : IsData t) : HasLiteral t := by
  induction h with
  | null =>
    intro g fresh v hv
    have hview : g.view v = .ok .null := by
      rcases eq_of_unfoldWithin_scalar hv with rfl | ⟨-, hview⟩
      · rfl
      · exact hview
    exact ⟨.null, by rw [result_convertWithin, hview]; rfl, isLiteral_null⟩
  | bool b =>
    intro g fresh v hv
    obtain rfl := eq_scalar_of_unfoldWithin hv nofun
    exact ⟨.bool b, by rw [result_convertWithin]; rfl, isLiteral_bool b⟩
  | int hn =>
    intro g fresh v hv
    obtain rfl := eq_scalar_of_unfoldWithin hv nofun
    exact ⟨_, by rw [result_convertWithin]; rfl, isLiteral_int hn⟩
  | text hs =>
    intro g fresh v hv
    obtain rfl := eq_scalar_of_unfoldWithin hv nofun
    exact ⟨_, by rw [result_convertWithin]; exact interpolate_of_not_hasSpan hs, isLiteral_text _⟩
  | list _ ih =>
    intro g fresh v hv
    obtain ⟨a, values, rfl, hc, ha, he⟩ := eq_of_unfoldWithin_list hv
    obtain ⟨nodes, hnodes, hls⟩ := exists_items ih he
    have hview : g.view (.container a) = .ok (.sequence a values) := by rw [Graph.view, hc]
    refine ⟨.array nodes, ?_, isLiteral_list hls⟩
    rw [result_convertWithin, hview]
    show (if a ∈ fresh then _ else _) = _
    rw [if_pos ha, hnodes]
    rfl
  | map hcode hkeys _ ih =>
    intro g fresh v hv
    obtain ⟨a, entries, rfl, hc, ha, he⟩ := eq_of_unfoldWithin_map hv
    obtain ⟨ps, hps, hls, hks⟩ := exists_entries hkeys ih he
    have hview := view_mapping hc (codeOfEntries?_eq_none hks hcode)
    refine ⟨.object (properties ps), ?_, isLiteral_map hls⟩
    rw [result_convertWithin, hview]
    show (if a ∈ fresh then _ else _) = _
    rw [if_pos ha, hps]
    rfl

/-! ## Round trip -/

/-- The text of a literal is read as the data that it is a literal of. -/
theorem IsLiteral.dataLiteral?_eq {node : Node} {t : Tree} (h : IsLiteral node t)
    (annotated : Bool) (level : Int) :
    ∃ text, expressionText annotated level node = .ok text ∧ dataLiteral? text.toList = some t := by
  have hreadable : Readable annotated node := spells_expressionText h.legible
  obtain ⟨text, htext, hs⟩ := hreadable level
  have hlimit := h.reads (expressionTokens node).length [] le_rfl
  rw [List.append_nil] at hlimit
  exact ⟨text, htext, by rw [dataLiteral?, hs.tokens_eq]; simp [hlimit]⟩

/-- **Data survives.** Plain data is converted and printed at every level, and the text denotes the
data again, with the keys of every map in their order. -/
theorem dataLiteral?_convert (g : Graph) (v : Value) (h : IsData (g.unfold v)) (annotated : Bool)
    (level : Int) :
    ∃ node text, (convert g v).result = .ok node ∧
      expressionText annotated level node = .ok text ∧
      dataLiteral? text.toList = some (g.unfold v) := by
  obtain ⟨node, hnode, hl⟩ := h.hasLiteral g g.addresses v rfl
  obtain ⟨text, htext, hread⟩ := IsLiteral.dataLiteral?_eq hl annotated level
  exact ⟨node, text, hnode, htext, hread⟩

/-- A map with a list that is shared, a key that is no name, and a text with quotes, a backslash, a
line feed and braces that make no span. -/
def sharedList : Graph :=
  ⟨#[.map [(.text "data-x", .container 1), (.text "y", .container 1)],
    .list [.scalar (.int (-7)), .scalar .null, .text "\x7d\x7b\x7d \"\\\n"]]⟩

theorem isData_sharedList : IsData (sharedList.unfold (.container 0)) := by
  have hitems : IsData (.list [.scalar (.int (-7)), .scalar .null,
      .scalar (.text "\x7d\x7b\x7d \"\\\n")]) := by
    refine .list ?_
    simp only [List.forall_mem_cons, List.not_mem_nil, false_imp_iff, implies_true, and_true]
    exact ⟨.int (by decide), .null, .text (by decide)⟩
  have hmap := @IsData.map [("data-x", _), ("y", _)] (by decide)
    (by simp only [List.forall_mem_cons, List.not_mem_nil, false_imp_iff, implies_true]; decide)
    (List.forall_mem_cons.mpr ⟨hitems, List.forall_mem_cons.mpr ⟨hitems, by simp⟩⟩)
  simpa [sharedList, Graph.unfold, Graph.unfoldWithin, Graph.get?, Graph.addresses, textEntry,
    List.range_succ] using hmap

theorem dataLiteral?_convert_sharedList :
    IsData (sharedList.unfold (.container 0)) ∧ ∃ node text,
      (convert sharedList (.container 0)).result = .ok node ∧
      expressionText false 3 node = .ok text ∧
      dataLiteral? text.toList = some (sharedList.unfold (.container 0)) :=
  ⟨isData_sharedList, dataLiteral?_convert sharedList (.container 0) isData_sharedList false 3⟩

end Componentry.Component
