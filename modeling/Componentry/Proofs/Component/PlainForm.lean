import Componentry.Document.Plain
import Componentry.Proofs.Component.Sharing
import Componentry.Proofs.Document.Placing
import Componentry.Proofs.Outcome

/-!
# The two spellings of embedded code

In the plain form of a document embedded code is a map of its sort and its text.  The compiler knows
code in this spelling too, wherever it stands.

**Main statement.** A document under texts, in which no map has just the keys `type` and `code`, becomes
the same as its plain form, with the same notes, as data and as part of a page (`compiles_as_plain`).

`Tree.Alike` says that two trees become the same in every place where the compiler may meet them.  It
is a congruence: lists and maps of such trees are such trees.
-/

namespace Componentry

open Relation (ReflTransGen)
open Script (Node)
open Component

namespace Tree

/-! ## Trees that become the same -/

/-- The trees are the same code, if they are code, and become the same in every place: as data, as part
of a page, as the configuration of an element, and as its children. -/
structure Alike (t t' : Tree) : Prop where
  code : t'.code? = t.code?
  data : t'.data = t.data
  element : t'.element = t.element
  config : ∀ tag, t'.elementOf tag = t.elementOf tag
  children : t'.children = t.children

theorem alike_refl (t : Tree) : Alike t t :=
  ⟨rfl, rfl, rfl, fun _ => rfl, rfl⟩

theorem Alike.trans {t t' t'' : Tree} (h : Alike t t') (h' : Alike t' t'') : Alike t t'' where
  code := h'.code.trans h.code
  data := h'.data.trans h.data
  element := h'.element.trans h.element
  config tag := (h'.config tag).trans (h.config tag)
  children := h'.children.trans h.children

theorem mapM_forall₂ {α β : Type} {f : α → Traced β} {as as' : List α}
    (h : List.Forall₂ (fun a a' => f a' = f a) as as') : as'.mapM f = as.mapM f := by
  induction h with
  | nil => rfl
  | cons ha _ ih => rw [List.mapM_cons, List.mapM_cons, ha, ih]

/-! ### Lists -/

theorem alike_tuple (items : List Tree) : Alike (.tuple items) (.list items) where
  code := rfl
  data := by rw [Tree.data, Tree.data]
  element := by rw [Tree.element, Tree.element]
  config tag := by
    rw [elementOf, elementOf, Tree.children, Tree.children]
    all_goals simp
  children := by rw [Tree.children, Tree.children]

theorem alike_list {items items' : List Tree} (h : List.Forall₂ Alike items items') :
    Alike (.list items) (.list items') := by
  have hdata := mapM_forall₂ (h.imp fun _ _ ha => ha.data)
  have helement := mapM_forall₂ (h.imp fun _ _ ha => ha.element)
  have hchildren : (Tree.list items').children = (Tree.list items).children := by
    rw [Tree.children, Tree.children, helement]
  refine ⟨rfl, ?_, ?_, fun tag => ?_, hchildren⟩
  · rw [Tree.data, Tree.data, hdata]
  · rw [Tree.element, Tree.element, helement]
  · rw [elementOf, elementOf, hchildren]
    all_goals simp

/-! ### Maps -/

/-- The entries have the same key, and their values become the same. -/
def AlikeEntry (e e' : Tree × Tree) : Prop :=
  e'.1 = e.1 ∧ Alike e.2 e'.2

section Map

variable {entries entries' : List (Tree × Tree)}

theorem AlikeEntry.isChildrenEntry {e e' : Tree × Tree} (h : AlikeEntry e e') :
    isChildrenEntry e' = isChildrenEntry e := by
  rw [Tree.isChildrenEntry, h.1, Tree.isChildrenEntry]

theorem filter_of_alike (h : List.Forall₂ AlikeEntry entries entries') :
    List.Forall₂ AlikeEntry (entries.filter (!isChildrenEntry ·))
      (entries'.filter (!isChildrenEntry ·)) := by
  refine List.rel_filter (fun e e' he => ?_) h
  dsimp only
  rw [he.isChildrenEntry]

theorem attributes_of_alike (h : List.Forall₂ AlikeEntry entries entries') :
    attributes entries' = attributes entries := by
  have hone : ∀ e e', AlikeEntry e e' →
      attributeProperty e'.1 e'.2 = attributeProperty e.1 e.2 := by
    intro e e' he
    rw [attributeProperty, attributeProperty, he.1, he.2.code, he.2.data]
  have hall := mapM_forall₂ (h.imp hone)
  cases h with
  | nil => rfl
  | cons he hes =>
    rw [attributes, attributes, hall]
    all_goals simp

theorem childrenIn_of_alike (h : List.Forall₂ AlikeEntry entries entries') :
    childrenIn entries' = childrenIn entries := by
  induction h with
  | nil => rfl
  | cons he _ ih => rw [childrenIn, childrenIn, he.isChildrenEntry, he.2.children, ih]

theorem alike_map (h : List.Forall₂ AlikeEntry entries entries')
    (hc : codeOfEntries? entries = .ok none) (hc' : codeOfEntries? entries' = .ok none) :
    Alike (.map entries) (.map entries') := by
  have helement : (Tree.map entries').element = (Tree.map entries).element := by
    cases h with
    | nil => rfl
    | cons he _ => rw [element_of_mapping hc, element_of_mapping hc', he.1, funext he.2.config]
  refine ⟨hc'.trans hc.symm, ?_, helement, fun tag => ?_, ?_⟩
  · have hone : ∀ e e', AlikeEntry e e' → (do
          let key ← e'.1.key
          return Node.property key (← e'.2.data) : Traced Node) = do
        let key ← e.1.key
        return Node.property key (← e.2.data) := by
      intro e e' he
      rw [he.1, he.2.data]
    rw [data_of_mapping hc, data_of_mapping hc', mapM_forall₂ (h.imp hone)]
  · rw [elementOf_of_mapping hc, elementOf_of_mapping hc', childrenIn_of_alike h,
      attributes_of_alike (filter_of_alike h)]
  · rw [children_of_single, children_of_single, helement]
    all_goals simp

end Map

/-! ### Code -/

/-- The entries that spell embedded code in the plain form. -/
def codeEntries (c : Code) : List (Tree × Tree) :=
  [(.scalar (.text "type"), .scalar (.text c.kind.name)), (.scalar (.text "code"), .scalar (.text c.text))]

theorem codeOfEntries?_codeEntries (c : Code) : codeOfEntries? (codeEntries c) = .ok (some c) := by
  obtain ⟨kind, text⟩ := c
  cases kind <;> rfl

theorem whole_codeEntries (c : Code) : (Tree.map (codeEntries c)).Whole :=
  .map (List.forall_mem_cons.mpr ⟨.scalar _, List.forall_mem_singleton.mpr (.scalar _)⟩)
    (List.forall_mem_cons.mpr ⟨.scalar _, List.forall_mem_singleton.mpr (.scalar _)⟩)

/-- **Code and its plain form become the same.** -/
theorem alike_code (c : Code) : Alike (.scalar (.code c)) (.map (codeEntries c)) := by
  have hcode := codeOfEntries?_codeEntries c
  have helement : (Tree.map (codeEntries c)).element = (Tree.scalar (.code c)).element := by
    rw [element_of_code hcode, Tree.element]
    rfl
  have hchildren : (Tree.map (codeEntries c)).children = (Tree.scalar (.code c)).children := by
    rw [children_of_single, children_of_single, helement]
    all_goals simp
  refine ⟨hcode, ?_, helement, fun tag => ?_, hchildren⟩
  · rw [data_of_code hcode, Tree.data]
    rfl
  · rw [elementOf_of_code hcode, elementOf, hchildren]
    all_goals simp

/-! ## Plain forms -/

theorem plains_eq_mapM (items : List Tree) : plains items = items.mapM plain := by
  induction items with
  | nil => rw [plains]; rfl
  | cons t items ih => rw [plains, ih, List.mapM_cons]

theorem plainEntries_eq_mapM (entries : List (Tree × Tree)) :
    plainEntries entries = entries.mapM fun e => do
      let key ← e.1.display
      return (key, ← e.2.plain) := by
  induction entries with
  | nil => rw [plainEntries]; rfl
  | cons e entries ih =>
    rw [plainEntries, ih, List.mapM_cons]
    simp only [bind_assoc, pure_bind]

/-- A text as a key of a map. -/
abbrev textKey (key : String) : Tree :=
  .scalar (.text key)

theorem ofTexts_of_nodup {entries : List (String × Tree)} (h : (entries.map Prod.fst).Nodup) :
    ofTexts entries = .map (entries.map fun e => (textKey e.1, e.2)) := by
  rw [ofTexts, Entries.ofList_eq h]

/-- Maps under other keys than `type` and `code` are no code. -/
theorem codeOfEntries?_of_keys {entries : List (Tree × Tree)} {keys : List String}
    (hkeys : entries.map Prod.fst = keys.map textKey) (h : ¬ keys.Perm ["type", "code"]) :
    codeOfEntries? entries = .ok none := by
  rcases entries with _ | ⟨⟨k₁, t₁⟩, _ | ⟨⟨k₂, t₂⟩, _ | ⟨e, rest⟩⟩⟩
  · rfl
  · rfl
  · obtain ⟨s₁, s₂, rfl⟩ : ∃ s₁ s₂, keys = [s₁, s₂] :=
      List.length_eq_two.mp (by simpa using (congrArg List.length hkeys).symm)
    cases hkeys
    have h₁ : ¬ (s₁ = "type" ∧ s₂ = "code") := by
      rintro ⟨rfl, rfl⟩
      exact h (.refl _)
    have h₂ : ¬ (s₁ = "code" ∧ s₂ = "type") := by
      rintro ⟨rfl, rfl⟩
      exact h (.swap _ _ _)
    simp [codeOfEntries?, text?, h₁, h₂]
  · rfl

/-- Documents under texts: no container is inside itself, and the keys of a map are texts, no two of
them the same, and not just `type` and `code`. -/
inductive Keyed : Tree → Prop
  | scalar (s : Scalar) : Keyed (.scalar s)
  | list {items : List Tree} (h : ∀ t ∈ items, Keyed t) : Keyed (.list items)
  | tuple {items : List Tree} (h : ∀ t ∈ items, Keyed t) : Keyed (.tuple items)
  | set {items : List Tree} (h : ∀ t ∈ items, Whole t) : Keyed (.set items)
  | map {entries : List (Tree × Tree)} {keys : List String}
    (hkeys : entries.map Prod.fst = keys.map textKey) (hdistinct : keys.Nodup)
    (hcode : ¬ keys.Perm ["type", "code"]) (h : ∀ e ∈ entries, Keyed e.2) : Keyed (.map entries)

theorem forall_mem_right {α β : Type} {R : α → β → Prop} {p : β → Prop} {as : List α} {bs : List β}
    (h : List.Forall₂ R as bs) (hp : ∀ a b, R a b → p b) : ∀ b ∈ bs, p b := by
  intro b hb
  obtain ⟨a, -, hab⟩ := exists_mem_left h hb
  exact hp a b hab

/-- What the plain form of an entry is. -/
structure PlainEntry (e : Tree × Tree) (e' : String × Tree) : Prop where
  key : e.1 = textKey e'.1
  whole : e'.2.Whole
  alike : Alike e.2 e'.2

theorem exists_plainEntries {entries : List (Tree × Tree)} {keys : List String}
    (hkeys : entries.map Prod.fst = keys.map textKey)
    (h : ∀ e ∈ entries, Gives e.2.plain fun t => t.Whole ∧ Alike e.2 t) :
    Gives (plainEntries entries) (List.Forall₂ PlainEntry entries) := by
  rw [plainEntries_eq_mapM]
  refine gives_mapM_each fun e he => ?_
  obtain ⟨key, -, hkey⟩ := List.mem_map.mp (hkeys ▸ List.mem_map_of_mem he)
  obtain ⟨t, ht, hwhole, halike⟩ := h e he
  refine ⟨(key, t), ?_, hkey.symm, hwhole, halike⟩
  rw [← hkey, ht]
  rfl

theorem keys_of_plainEntries {entries : List (Tree × Tree)} {es : List (String × Tree)}
    (h : List.Forall₂ PlainEntry entries es) :
    entries.map Prod.fst = (es.map Prod.fst).map textKey := by
  induction h with
  | nil => rfl
  | cons he _ ih => rw [List.map_cons, List.map_cons, List.map_cons, he.key, ih]

theorem textKey_injective : Function.Injective textKey := by
  intro a b h
  cases h
  rfl

/-- **A document under texts has a plain form, and the two become the same.** -/
theorem Keyed.exists_plain {t : Tree} (h : t.Keyed) :
    Gives t.plain fun t' => t'.Whole ∧ Alike t t' := by
  induction h with
  | scalar s =>
    cases s with
    | code c =>
      rw [plain]
      refine gives_ok ?_
      rw [ofTexts_of_nodup]
      · exact ⟨whole_codeEntries c, alike_code c⟩
      · show ["type", "code"].Nodup
        decide
    | _ =>
      rw [plain]
      · exact gives_ok ⟨.scalar _, alike_refl _⟩
      all_goals simp
  | list _ ih =>
    obtain ⟨items', hitems', hforall⟩ := gives_mapM_each ih
    have hwhole := forall_mem_right hforall fun _ _ ht => ht.1
    have halike := hforall.imp fun _ _ ht => ht.2
    rw [plain, plains_eq_mapM, hitems']
    exact gives_pure ⟨.list hwhole, alike_list halike⟩
  | @tuple items _ ih =>
    obtain ⟨items', hitems', hforall⟩ := gives_mapM_each ih
    have hwhole := forall_mem_right hforall fun _ _ ht => ht.1
    have halike := hforall.imp fun _ _ ht => ht.2
    rw [plain, plains_eq_mapM, hitems']
    exact gives_pure ⟨.list hwhole, (alike_tuple items).trans (alike_list halike)⟩
  | set h =>
    rw [plain]
    · exact gives_ok ⟨.set h, alike_refl _⟩
    all_goals simp
  | @map entries keys hkeys hdistinct hcode _ ih =>
    obtain ⟨es, hes, hforall⟩ := exists_plainEntries hkeys ih
    obtain rfl : keys = es.map Prod.fst :=
      textKey_injective.list_map (hkeys.symm.trans (keys_of_plainEntries hforall))
    rw [plain, hes]
    refine gives_pure ?_
    rw [ofTexts_of_nodup hdistinct]
    have hentries : List.Forall₂ AlikeEntry entries (es.map fun e => (textKey e.1, e.2)) :=
      List.forall₂_map_right_iff.mpr (hforall.imp fun _ _ he => ⟨he.key.symm, he.alike⟩)
    refine ⟨.map ?_ ?_, alike_map hentries ?_ ?_⟩
    · exact List.forall_mem_map.mpr fun e _ => .scalar _
    · exact List.forall_mem_map.mpr (forall_mem_right hforall fun _ _ he => he.whole)
    · exact codeOfEntries?_of_keys hkeys hcode
    · refine codeOfEntries?_of_keys ?_ hcode
      simp only [List.map_map]
      rfl

end Tree

/-! ## Documents under texts -/

/-- The entries are under texts, and not just under `type` and `code`.  As in every map, no two of them
are under the same key. -/
structure TextKeys (entries : List (Value × Value)) : Prop where
  texts : ∀ e ∈ entries, ∃ key, e.1 = .text key
  distinct : (entries.map Prod.fst).Nodup
  not_code : ¬ (entries.map Prod.fst).Perm [.text "type", .text "code"]

theorem TextKeys.exists_keys {entries : List (Value × Value)} (h : TextKeys entries) :
    ∃ keys : List String, entries.map Prod.fst = keys.map .text ∧ keys.Nodup ∧
      ¬ keys.Perm ["type", "code"] := by
  have hkeys : ∀ {entries : List (Value × Value)}, (∀ e ∈ entries, ∃ key, e.1 = .text key) →
      ∃ keys : List String, entries.map Prod.fst = keys.map .text := by
    intro entries htexts
    induction entries with
    | nil => exact ⟨[], rfl⟩
    | cons e entries ih =>
      obtain ⟨⟨key, hkey⟩, hrest⟩ := List.forall_mem_cons.mp htexts
      obtain ⟨keys, hkeys⟩ := ih hrest
      exact ⟨key :: keys, by rw [List.map_cons, hkey, hkeys]; rfl⟩
  obtain ⟨keys, hkeys⟩ := hkeys h.texts
  refine ⟨keys, hkeys, ?_, fun hperm => ?_⟩
  · exact List.Nodup.of_map _ (hkeys ▸ h.distinct)
  · exact h.not_code (hkeys ▸ hperm.map Value.text)

/-- All maps in the value are under texts, and none of them just under `type` and `code`. -/
def Graph.TextKeyed (g : Graph) (v : Value) : Prop :=
  ∀ a entries, ReflTransGen g.Contains v (.container a) → g.get? a = some (.map entries) →
    TextKeys entries

namespace Graph

variable {g : Graph} {v w : Value} {t : Tree}

theorem TextKeyed.part (h : g.TextKeyed v) (hw : g.Contains v w) : g.TextKeyed w :=
  fun a entries ha hc => h a entries (.head hw ha) hc

theorem Unfolds.keyed (h : g.Unfolds v t) (hv : g.TextKeyed v) : t.Keyed := by
  induction h with
  | scalar s => exact .scalar s
  | vacant _ => exact .scalar .null
  | @container a c part hc hparts ih =>
    have hpart : ∀ w ∈ c.parts, (part w).Keyed := fun w hw => ih w hw (hv.part ⟨a, c, rfl, hc, hw⟩)
    cases c with
    | list items => exact .list (List.forall_mem_map.mpr hpart)
    | tuple items => exact .tuple (List.forall_mem_map.mpr hpart)
    | set items => exact .set (List.forall_mem_map.mpr fun w hw => (hparts w hw).whole)
    | map entries =>
      obtain ⟨keys, hkeys, hdistinct, hcode⟩ := (hv a entries .refl hc).exists_keys
      have htext : ∀ key ∈ keys, part (.text key) = Tree.textKey key := by
        intro key hkey
        obtain ⟨e, he, hfst⟩ := List.mem_map.mp (hkeys ▸ List.mem_map_of_mem hkey)
        exact (hparts _ (hfst ▸ mem_parts_fst he)).unique (.scalar (.text key))
      have hfst := calc (entries.map fun e => (part e.1, part e.2)).map Prod.fst
          = (entries.map Prod.fst).map part := by rw [List.map_map, List.map_map]; rfl
        _ = keys.map fun key => part (.text key) := by rw [hkeys, List.map_map]; rfl
        _ = keys.map Tree.textKey := List.map_congr_left htext
      exact .map hfst hdistinct hcode (List.forall_mem_map.mpr fun e he => hpart _ (mem_parts_snd he))

end Graph

/-! ## The compiler -/

namespace Component

variable {g : Graph} {v : Value}

/-- **Code is compiled alike in both spellings.** A value that is not inside itself and whose maps are
under texts, but not just under `type` and `code`, has a plain form.  Whatever value has that form, with
its code spelled out as maps, becomes what the first one becomes, as part of a page and as data: the
same node or the same fault, with the same notes. -/
theorem compiles_as_plain (h : g.Acyclic v) (hv : g.TextKeyed v) :
    ∃ t, g.plain v = .ok t ∧ (∃ (g' : Graph) (v' : Value), g'.Unfolds v' t) ∧
      ∀ (g' : Graph) (v' : Value), g'.Unfolds v' t →
        element g' v' = element g v ∧ convert g' v' = convert g v := by
  obtain ⟨t, ht, hwhole, halike⟩ := (h.unfolds.keyed hv).exists_plain
  refine ⟨t, ht, hwhole.exists_unfolds, fun g' v' hv' => ?_⟩
  rw [element_eq_element hv'.acyclic, convert_eq_data hv'.acyclic, hv'.unfold_eq,
    element_eq_element h, convert_eq_data h]
  exact ⟨halike.element, halike.data⟩

/-- A page with code as an attribute, inside an attribute, as a child and as the content of one. -/
def codePage : Graph :=
  ⟨#[.map [(.text "div", .container 1)],
    .map [(.text "onClick", .scalar (.code ⟨.raw, " () => save(x) "⟩)), (.text "style", .container 2),
      (.text "children", .container 3)],
    .map [(.text "of", .scalar (.code ⟨.typing, "Theme"⟩))],
    .list [.scalar (.code ⟨.raw, "count + 1"⟩), .container 4],
    .map [(.text "p", .scalar (.code ⟨.raw, "note"⟩))]]⟩

theorem acyclic_codePage : codePage.Acyclic (.container 0) :=
  Graph.acyclic_of_isAscending (by decide) _

theorem textKeyed_codePage : codePage.TextKeyed (.container 0) := by
  intro a entries _ hc
  rcases a with _ | _ | _ | _ | _ | a <;> cases hc
  all_goals exact ⟨by simp, by decide, by decide⟩

theorem compiles_as_plain_codePage :
    codePage.Acyclic (.container 0) ∧ codePage.TextKeyed (.container 0) ∧
      ∃ t g v, codePage.plain (.container 0) = .ok t ∧ Graph.Unfolds g v t ∧
        element g v = element codePage (.container 0) ∧
        convert g v = convert codePage (.container 0) := by
  obtain ⟨t, ht, ⟨g, v, hv⟩, halike⟩ := compiles_as_plain acyclic_codePage textKeyed_codePage
  exact ⟨acyclic_codePage, textKeyed_codePage, t, g, v, ht, hv, halike g v hv⟩

end Component

end Componentry
