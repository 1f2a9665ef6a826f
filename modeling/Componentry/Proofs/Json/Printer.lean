import Componentry.Json.Printer
import Componentry.Proofs.Component.PlainForm
import Componentry.Proofs.Document.Parse
import Componentry.Proofs.Script.Printable
import Componentry.Proofs.Yaml.ScalarKeys

/-!
# Documents as JSON

The plain form of a document is meant to have only what JSON has.  But dates, moments, octets and sets
stay what they are in it, and JSON has none of them; and an integer with too many digits has no text.

**Main statement.** A document has a plain form just when no key in it is an integer with too many
digits.  The form is JSON just when nothing in the document is foreign to it, and it can be printed just
when there is no such integer either (`printsAsJson_iff`).

What is under a key counts only if no later key in the map has the same text (`LastBy`).  Whether a tree
is JSON and whether it can be printed are both matters of its scalars (`Tree.Judges`), and so they are
found in the same places of the document.
-/

namespace Componentry

open Relation (ReflTransGen)

/-! ## The last under a key -/

section LastBy

variable {α β κ μ : Type} {key : α → κ} {key' : β → μ} {R : α → β → Prop} {p : α → Prop} {q : β → Prop}

/-- In lists whose items have corresponding keys, corresponding items are the last. -/
theorem forall_lastBy_iff {as : List α} {bs : List β} {f : μ → κ} (h : List.Forall₂ R as bs)
    (hf : Function.Injective f) (hkey : ∀ a b, R a b → key a = f (key' b))
    (hpq : ∀ a b, R a b → (p a ↔ q b)) :
    (∀ a, LastBy key as a → p a) ↔ ∀ b, LastBy key' bs b → q b := by
  induction h with
  | nil => simp only [not_lastBy_nil, false_imp_iff, implies_true]
  | @cons a b as bs hab hrest ih =>
    -- the first item is the last under its key in both lists or in none
    have hlast : (∀ a' ∈ as, key a' ≠ key a) ↔ ∀ b' ∈ bs, key' b' ≠ key' b := by
      refine forall_mem_iff hrest fun a' b' hab' => not_congr ?_
      rw [hkey _ _ hab, hkey _ _ hab', hf.eq_iff]
    simp only [lastBy_cons_iff, or_imp, forall_and, and_imp, forall_eq]
    rw [hlast, hpq _ _ hab, ih]

end LastBy

/-! ## Ways through a tree -/

namespace Tree

/-- The entries of a map. -/
def entries : Tree → List (Tree × Tree)
  | .map entries => entries
  | _ => []

/-- Lists and tuples hand on their items, and maps the values of some of their entries. -/
inductive Hands (chosen : List (Tree × Tree) → Tree × Tree → Prop) : Tree → Tree → Prop
  | item {items : List Tree} {t : Tree} (h : t ∈ items) : Hands chosen (.list items) t
  | member {items : List Tree} {t : Tree} (h : t ∈ items) : Hands chosen (.tuple items) t
  | value {entries : List (Tree × Tree)} {e : Tree × Tree} (h : chosen entries e) :
    Hands chosen (.map entries) e.2

/-- The tree is met on a way through lists, tuples and the values of maps. -/
def Meets : Tree → Tree → Prop :=
  ReflTransGen (Hands fun entries e => e ∈ entries)

/-- The tree is met on a way that leaves out what is under a key whose text comes again. -/
def Keeps : Tree → Tree → Prop :=
  ReflTransGen (Hands (LastBy fun e => e.1.display))

section Ways

variable {chosen : List (Tree × Tree) → Tree × Tree → Prop} {B : Tree → Prop} {t : Tree}

theorem forall_ways_iff : (∀ s, ReflTransGen (Hands chosen) t s → B s) ↔
    B t ∧ ∀ t', Hands chosen t t' → ∀ s, ReflTransGen (Hands chosen) t' s → B s := by
  constructor
  · intro h
    exact ⟨h t .refl, fun t' ht' s hs => h s (.head ht' hs)⟩
  · rintro ⟨ht, hparts⟩ s hs
    rcases hs.cases_head with rfl | ⟨t', ht', hs'⟩
    · exact ht
    · exact hparts t' ht' s hs'

theorem forall_leaf_iff (h : ∀ t', ¬ Hands chosen t t') :
    (∀ s, ReflTransGen (Hands chosen) t s → B s) ↔ B t := by
  rw [forall_ways_iff]
  exact ⟨And.left, fun ht => ⟨ht, fun t' ht' => absurd ht' (h t')⟩⟩

theorem forall_scalar_iff {k : Scalar} :
    (∀ s, ReflTransGen (Hands chosen) (.scalar k) s → B s) ↔ B (.scalar k) :=
  forall_leaf_iff (by rintro t' ⟨⟩)

theorem forall_set_iff {items : List Tree} :
    (∀ s, ReflTransGen (Hands chosen) (.set items) s → B s) ↔ B (.set items) :=
  forall_leaf_iff (by rintro t' ⟨⟩)

theorem forall_items_iff {items : List Tree} (h : ∀ t', Hands chosen t t' ↔ t' ∈ items) :
    (∀ s, ReflTransGen (Hands chosen) t s → B s) ↔
      B t ∧ ∀ t' ∈ items, ∀ s, ReflTransGen (Hands chosen) t' s → B s := by
  rw [forall_ways_iff]
  simp only [h]

theorem forall_list_iff {items : List Tree} :
    (∀ s, ReflTransGen (Hands chosen) (.list items) s → B s) ↔
      B (.list items) ∧ ∀ t ∈ items, ∀ s, ReflTransGen (Hands chosen) t s → B s := by
  refine forall_items_iff fun t' => ⟨fun h => ?_, .item⟩
  cases h with
  | item h => exact h

theorem forall_tuple_iff {items : List Tree} :
    (∀ s, ReflTransGen (Hands chosen) (.tuple items) s → B s) ↔
      B (.tuple items) ∧ ∀ t ∈ items, ∀ s, ReflTransGen (Hands chosen) t s → B s := by
  refine forall_items_iff fun t' => ⟨fun h => ?_, .member⟩
  cases h with
  | member h => exact h

theorem forall_map_iff {entries : List (Tree × Tree)} :
    (∀ s, ReflTransGen (Hands chosen) (.map entries) s → B s) ↔
      B (.map entries) ∧
        ∀ e, chosen entries e → ∀ s, ReflTransGen (Hands chosen) e.2 s → B s := by
  rw [forall_ways_iff]
  refine and_congr_right fun _ => ⟨fun h e he => h e.2 (.value he), fun h t' ht' => ?_⟩
  cases ht' with
  | @value _ e he => exact h e he

end Ways

/-! ## Which trees have a plain form -/

theorem succeeds_plainEntries_iff {entries : List (Tree × Tree)} :
    Succeeds (plainEntries entries) ↔
      ∀ e ∈ entries, Succeeds e.1.display ∧ Succeeds e.2.plain := by
  rw [plainEntries_eq_mapM, succeeds_mapM_iff]
  refine forall₂_congr fun e _ => ⟨fun h => ?_, fun h => h.1.bind fun _ => ?_⟩
  · obtain ⟨key, hkey, h⟩ := gives_bind_iff.mp h
    exact ⟨⟨key, hkey, trivial⟩, h.first⟩
  · exact succeeds_bind_pure_iff.mpr h.2

/-- A tree has a plain form just when the keys that are met have texts. -/
theorem Whole.succeeds_plain_iff {t : Tree} (h : t.Whole) :
    Succeeds t.plain ↔ ∀ s, t.Meets s → ∀ e ∈ s.entries, Succeeds e.1.display := by
  induction h with
  | scalar k =>
    refine iff_of_true ?_ (forall_scalar_iff.mpr (List.forall_mem_nil _))
    cases k <;> (rw [plain] <;> simp [succeeds_ok])
  | set h =>
    refine iff_of_true ?_ (forall_set_iff.mpr (List.forall_mem_nil _))
    rw [plain] <;> simp [succeeds_ok]
  | list _ ih =>
    rw [plain, plains_eq_mapM, succeeds_bind_pure_iff, succeeds_mapM_iff]
    refine (forall₂_congr ih).trans ?_
    exact (forall_list_iff.trans (and_iff_right (List.forall_mem_nil _))).symm
  | tuple _ ih =>
    rw [plain, plains_eq_mapM, succeeds_bind_pure_iff, succeeds_mapM_iff]
    refine (forall₂_congr ih).trans ?_
    exact (forall_tuple_iff.trans (and_iff_right (List.forall_mem_nil _))).symm
  | map _ _ _ ih =>
    rw [plain, succeeds_bind_pure_iff, succeeds_plainEntries_iff]
    refine Iff.trans ?_ forall_map_iff.symm
    exact (forall₂_congr fun e he => and_congr_right fun _ => ih e he).trans forall₂_and

/-! ## Judgements of plain trees -/

/-- Whether `Q` holds of a tree is a matter of its scalars; it does not hold of sets.  Other trees are
not plain, and nothing is said of them.  The number is the level of the tree. -/
structure Judges (ok : Scalar → Prop) (Q : Nat → Tree → Prop) : Prop where
  text : ∀ s, ok (.text s)
  scalar : ∀ n s, Q n (.scalar s) ↔ ok s
  set : ∀ n items, ¬ Q n (.set items)
  list : ∀ n items, Q n (.list items) ↔ ∀ t ∈ items, Q (n + 1) t
  map : ∀ n (entries : List (String × Tree)),
    Q n (.map (entries.map fun e => (textKey e.1, e.2))) ↔ ∀ e ∈ entries, Q (n + 1) e.2

/-- The tree itself does not stand against a judgement of its plain form.  Code is texts there. -/
def Bears (ok : Scalar → Prop) : Tree → Prop
  | .scalar (.code _) => True
  | .scalar s => ok s
  | .set _ => False
  | _ => True

section Judges

variable {ok : Scalar → Prop} {Q : Nat → Tree → Prop}

theorem Judges.ofTexts_iff (h : Judges ok Q) (n : Nat) (entries : List (String × Tree)) :
    Q n (ofTexts entries) ↔ ∀ e, LastBy Prod.fst entries e → Q (n + 1) e.2 := by
  refine (h.map n (Entries.ofList entries)).trans ?_
  simp only [Entries.mem_ofList_iff]

theorem Judges.code (h : Judges ok Q) (n : Nat) (c : Code) : Q n (.map (codeEntries c)) := by
  refine (h.map n [("type", .scalar (.text c.kind.name)), ("code", .scalar (.text c.text))]).mpr ?_
  refine List.forall_mem_cons.mpr ⟨?_, List.forall_mem_singleton.mpr ?_⟩
  · exact (h.scalar _ _).mpr (h.text _)
  · exact (h.scalar _ _).mpr (h.text _)

theorem plain_code (c : Code) : (Tree.scalar (.code c)).plain = .ok (.map (codeEntries c)) := by
  rw [plain, ofTexts_of_nodup]
  · rfl
  · show ["type", "code"].Nodup
    decide

/-- The judgement of several plain trees. -/
theorem forall_plains_iff {items ps : List Tree} {n : Nat} {B : Tree → Prop}
    (ih : ∀ t ∈ items, ∀ p, t.plain = .ok p → ∀ n, (Q n p ↔ B t))
    (hps : plains items = .ok ps) : (∀ p ∈ ps, Q n p) ↔ ∀ t ∈ items, B t := by
  rw [plains_eq_mapM, mapM_eq_ok_iff] at hps
  refine (forall_mem_iff ((List.forall₂_and_left _ _).mpr ⟨ih, hps⟩) fun t p htp => ?_).symm
  exact (htp.1 p htp.2 n).symm

theorem forall_plainEntries_iff {entries : List (Tree × Tree)} {es : List (String × Tree)} {n : Nat}
    {B : Tree × Tree → Prop} (ih : ∀ e ∈ entries, ∀ p, e.2.plain = .ok p → ∀ n, (Q n p ↔ B e))
    (hes : plainEntries entries = .ok es) :
    (∀ e, LastBy Prod.fst es e → Q n e.2) ↔
      ∀ e, LastBy (fun e => e.1.display) entries e → B e := by
  have hone : ∀ (e : Tree × Tree) (e' : String × Tree), (do
        let key ← e.1.display
        return (key, ← e.2.plain) : Except Fault (String × Tree)) = .ok e' →
      e.1.display = .ok e'.1 ∧ e.2.plain = .ok e'.2 := by
    intro e e' he
    obtain ⟨key, hkey, he⟩ := bind_eq_ok_iff.mp he
    obtain ⟨value, hvalue, he⟩ := bind_eq_ok_iff.mp he
    cases he
    exact ⟨hkey, hvalue⟩
  -- the texts of the keys are the names, so the same entries are the last under them
  rw [plainEntries_eq_mapM, mapM_eq_ok_iff] at hes
  have hpairs := (List.forall₂_and_left _ _).mpr ⟨ih, hes.imp hone⟩
  refine (forall_lastBy_iff hpairs (fun _ _ h => Except.ok.inj h) ?_ ?_).symm
  · exact fun e e' he => he.2.1
  · exact fun e e' he => (he.1 _ he.2.2 n).symm

/-- **A plain form is judged by what is kept of the tree.** -/
theorem Judges.plain_iff (h : Judges ok Q) {t : Tree} (ht : t.Whole) :
    ∀ p, t.plain = .ok p → ∀ n, (Q n p ↔ ∀ s, t.Keeps s → Bears ok s) := by
  induction ht with
  | scalar k =>
    intro p hp n
    refine Iff.trans ?_ forall_scalar_iff.symm
    cases k with
    | code c =>
      rw [plain_code] at hp
      cases hp
      exact iff_of_true (h.code n c) trivial
    | _ =>
      cases hp
      exact h.scalar n _
  | set _ =>
    intro p hp n
    cases hp
    exact iff_of_false (h.set n _) (fun hall => forall_set_iff.mp hall)
  | list _ ih =>
    intro p hp n
    rw [plain] at hp
    obtain ⟨ps, hps, hp⟩ := bind_eq_ok_iff.mp hp
    cases hp
    rw [h.list, forall_plains_iff ih hps]
    exact (forall_list_iff.trans (and_iff_right trivial)).symm
  | tuple _ ih =>
    intro p hp n
    rw [plain] at hp
    obtain ⟨ps, hps, hp⟩ := bind_eq_ok_iff.mp hp
    cases hp
    rw [h.list, forall_plains_iff ih hps]
    exact (forall_tuple_iff.trans (and_iff_right trivial)).symm
  | map _ _ _ ih =>
    intro p hp n
    rw [plain] at hp
    obtain ⟨es, hes, hp⟩ := bind_eq_ok_iff.mp hp
    cases hp
    rw [h.ofTexts_iff, forall_plainEntries_iff ih hes]
    exact (forall_map_iff.trans (and_iff_right trivial)).symm

end Judges

end Tree

/-! ## JSON -/

/-- The scalars of JSON. -/
def Scalar.IsJson : Scalar → Prop
  | .null | .bool _ | .int _ | .float _ | .text _ => True
  | _ => False

/-- The trees of JSON: its scalars, lists, and maps under texts. -/
inductive Tree.IsJson : Tree → Prop
  | scalar {s : Scalar} (h : s.IsJson) : IsJson (.scalar s)
  | list {items : List Tree} (h : ∀ t ∈ items, IsJson t) : IsJson (.list items)
  | map {entries : List (Tree × Tree)} (hk : ∀ e ∈ entries, ∃ key, e.1 = textKey key)
    (hv : ∀ e ∈ entries, IsJson e.2) : IsJson (.map entries)

/-- The tree is an integer with too many digits. -/
def Tree.IsOverlong : Tree → Prop
  | .scalar (.int n) => ¬ Script.fewDigits n
  | _ => False

/-- The tree is something that JSON does not have. -/
def Tree.IsForeign : Tree → Prop
  | .scalar (.date _) | .scalar (.time _) | .scalar (.moment _) | .scalar (.bytes _) | .set _ => True
  | _ => False

theorem judges_isJson : Tree.Judges Scalar.IsJson fun _ t => t.IsJson where
  text _ := trivial
  scalar n s := by
    constructor
    · rintro ⟨h⟩
      exact h
    · exact .scalar
  set n items := by rintro ⟨⟩
  list n items := by
    constructor
    · rintro ⟨⟩
      assumption
    · exact .list
  map n entries := by
    constructor
    · rintro ⟨⟩
      next hv => exact fun e he => hv _ (List.mem_map_of_mem he)
    · exact fun h => .map (List.forall_mem_map.mpr fun e _ => ⟨e.1, rfl⟩) (List.forall_mem_map.mpr h)

namespace Json

theorem textsAt_eq_mapM (level : Nat) (items : List Tree) :
    textsAt level items = items.mapM (textAt level) := by
  induction items with
  | nil => rw [textsAt]; rfl
  | cons t items ih => rw [textsAt, ih, List.mapM_cons]

theorem succeeds_entriesAt_iff {level : Nat} {entries : List (String × Tree)} :
    Succeeds (entriesAt level (entries.map fun e => (Tree.textKey e.1, e.2))) ↔
      ∀ e ∈ entries, Succeeds (textAt level e.2) := by
  induction entries with
  | nil =>
    rw [List.map_nil, entriesAt]
    exact iff_of_true (succeeds_ok _) (List.forall_mem_nil _)
  | cons e entries ih =>
    rw [List.map_cons, entriesAt, textAt, List.forall_mem_cons, ← ih]
    constructor
    · intro h
      obtain ⟨key, -, h⟩ := gives_bind_iff.mp h
      obtain ⟨value, hvalue, h⟩ := gives_bind_iff.mp h
      exact ⟨⟨value, hvalue, trivial⟩, h.first⟩
    · rintro ⟨hvalue, hrest⟩
      have hkey : Succeeds (scalarText (.text e.1)) := succeeds_ok _
      exact hkey.bind fun _ => hvalue.bind fun _ => succeeds_bind_pure_iff.mpr hrest

theorem judges_textAt :
    Tree.Judges (fun s => Succeeds (scalarText s)) fun n t => Succeeds (textAt n t) where
  text s := succeeds_ok _
  scalar n s := by rw [textAt]
  set n items := by
    rw [textAt]
    exact not_succeeds_error _
  list n items := by rw [textAt, succeeds_bind_pure_iff, textsAt_eq_mapM, succeeds_mapM_iff]
  map n entries := by rw [textAt, succeeds_bind_pure_iff, succeeds_entriesAt_iff]

end Json

theorem succeeds_integerText_iff {n : Int} : Succeeds (integerText n) ↔ Script.fewDigits n := by
  refine ⟨fun h => ?_, Script.succeeds_integerText⟩
  by_contra hmany
  rw [integerText, Text.integerText?, if_pos (Nat.not_le.mp hmany)] at h
  exact not_succeeds_error _ h

namespace Tree

theorem bears_isJson_iff (s : Tree) : Bears Scalar.IsJson s ↔ ¬ s.IsForeign := by
  cases s with
  | scalar k => cases k <;> simp [Bears, Scalar.IsJson, IsForeign]
  | _ => simp [Bears, IsForeign]

theorem bears_scalarText_iff (s : Tree) :
    Bears (fun k => Succeeds (Json.scalarText k)) s ↔ ¬ s.IsForeign ∧ ¬ s.IsOverlong := by
  cases s with
  | scalar k =>
    cases k <;>
      simp [Bears, Json.scalarText, IsForeign, IsOverlong, succeeds_ok, not_succeeds_error,
        succeeds_integerText_iff]
  | _ => simp [Bears, IsForeign, IsOverlong]

theorem succeeds_display_iff (k : Scalar) :
    Succeeds (Tree.scalar k).display ↔ ¬ (Tree.scalar k).IsOverlong := by
  cases k <;>
    simp [display, Scalar.display, Scalar.debug, IsOverlong, succeeds_ok, succeeds_integerText_iff]

end Tree

/-! ## Documents -/

/-- The maps that are met in the tree of a value are under scalars, if those in the value are. -/
theorem Graph.Unfolds.scalarKeys {g : Graph} {v : Value} {t : Tree} (h : g.Unfolds v t)
    (hv : g.ScalarKeyed v) : ∀ s, t.Meets s → ∀ e ∈ s.entries, ∃ k, e.1 = .scalar k := by
  induction h with
  | scalar s => exact Tree.forall_scalar_iff.mpr (List.forall_mem_nil _)
  | vacant _ => exact Tree.forall_scalar_iff.mpr (List.forall_mem_nil _)
  | @container a c part hc hparts ih =>
    have hpart : ∀ w ∈ c.parts, ∀ s, (part w).Meets s → ∀ e ∈ s.entries, ∃ k, e.1 = .scalar k :=
      fun w hw => ih w hw (hv.part ⟨a, c, rfl, hc, hw⟩)
    cases c with
    | list items =>
      exact Tree.forall_list_iff.mpr ⟨List.forall_mem_nil _, List.forall_mem_map.mpr hpart⟩
    | tuple items =>
      exact Tree.forall_tuple_iff.mpr ⟨List.forall_mem_nil _, List.forall_mem_map.mpr hpart⟩
    | set items => exact Tree.forall_set_iff.mpr (List.forall_mem_nil _)
    | map entries =>
      refine Tree.forall_map_iff.mpr ⟨List.forall_mem_map.mpr fun e he => ?_,
        List.forall_mem_map.mpr fun e he => hpart _ (Graph.mem_parts_snd he)⟩
      obtain ⟨k, hk⟩ := hv a entries .refl hc e he
      have hkey := hparts e.1 (Graph.mem_parts_fst he)
      rw [hk] at hkey ⊢
      exact ⟨k, hkey.unique (.scalar k)⟩

namespace Document

variable {text : String} {path : Option String} {d : Document} {t : Tree}

/-- **Which documents can be printed as JSON.**  Let nothing in a document be inside itself.  It has a
plain form just when no key in it is an integer with too many digits.  The plain form is JSON just when
no date, time, moment, octets or set is kept of the document, and it can be printed just when no integer
with too many digits is kept either. -/
theorem printsAsJson_iff (hparse : Document.parse text path = .ok d) (hacyclic : d.graph.Acyclic d.root)
    (ht : d.graph.unfold d.root = t) :
    (Succeeds (d.graph.plain d.root) ↔ ∀ s, t.Meets s → ∀ e ∈ s.entries, ¬ e.1.IsOverlong) ∧
    ∀ p, d.graph.plain d.root = .ok p →
      (p.IsJson ↔ ∀ s, t.Keeps s → ¬ s.IsForeign) ∧
      (Succeeds (Json.pretty p) ↔ ∀ s, t.Keeps s → ¬ s.IsForeign ∧ ¬ s.IsOverlong) := by
  subst ht
  have hunfolds := hacyclic.unfolds
  have hkeys := hunfolds.scalarKeys (Yaml.scalarKeyed_of_valueOfText (parse_eq_ok_iff.mp hparse).1)
  refine ⟨hunfolds.whole.succeeds_plain_iff.trans ?_, fun p hp => ⟨?_, ?_⟩⟩
  · refine forall₂_congr fun s hs => forall₂_congr fun e he => ?_
    obtain ⟨k, hk⟩ := hkeys s hs e he
    rw [hk]
    exact Tree.succeeds_display_iff k
  · refine (judges_isJson.plain_iff hunfolds.whole p hp 0).trans ?_
    exact forall₂_congr fun s _ => Tree.bears_isJson_iff s
  · refine (Json.judges_textAt.plain_iff hunfolds.whole p hp 0).trans ?_
    exact forall₂_congr fun s _ => Tree.bears_scalarText_iff s

/-- The first day of 2024. -/
def newYear : Scalar :=
  .date ⟨2024, 1, 1⟩

/-- What is spelled `render: 2024-01-01`. -/
def datedPage : Document :=
  ⟨⟨#[.map [(.text "render", .scalar newYear)]]⟩, .container 0⟩

theorem parse_datedPage : Document.parse "render: 2024-01-01" none = .ok datedPage := by
  have hparts : (Document.parse "render: 2024-01-01" none).toOption.map (fun d =>
      (d.graph.containers, d.root)) = some (datedPage.graph.containers, datedPage.root) := by
    decide +kernel
  obtain ⟨⟨⟨containers⟩, root⟩, hd, he⟩ := Option.map_eq_some_iff.mp hparts
  cases he
  exact toOption_eq_some_iff.mp hd

theorem acyclic_datedPage : datedPage.graph.Acyclic datedPage.root :=
  Graph.acyclic_of_isAscending (by decide) _

/-- The page as a tree. -/
def datedTree : Tree :=
  .map [(Tree.textKey "render", .scalar newYear)]

theorem unfold_datedPage : datedPage.graph.unfold datedPage.root = datedTree := by
  have hc : datedPage.graph.get? 0 = some (.map [(.text "render", .scalar newYear)]) := rfl
  refine (acyclic_datedPage.unfold_container hc).trans ?_
  simp [datedTree, Container.tree, Graph.unfold, Graph.unfoldWithin]

theorem keeps_datedTree : datedTree.Keeps (.scalar newYear) := by
  have hlast : LastBy (fun e : Tree × Tree => e.1.display) datedTree.entries
      (Tree.textKey "render", .scalar newYear) := .head (List.forall_mem_nil _)
  exact .single (.value hlast)

theorem plain_datedPage : datedPage.graph.plain datedPage.root = .ok datedTree := by
  rw [Graph.plain, unfold_datedPage]
  rfl

/-- A page that is a date has a plain form, which is not JSON and cannot be printed. -/
theorem printsAsJson_iff_date :
    Document.parse "render: 2024-01-01" none = .ok datedPage ∧
      datedPage.graph.Acyclic datedPage.root ∧ datedPage.graph.plain datedPage.root = .ok datedTree ∧
      ¬ datedTree.IsJson ∧ ¬ Succeeds (Json.pretty datedTree) := by
  obtain ⟨-, hplain⟩ := printsAsJson_iff parse_datedPage acyclic_datedPage unfold_datedPage
  obtain ⟨hjson, hprints⟩ := hplain datedTree plain_datedPage
  refine ⟨parse_datedPage, acyclic_datedPage, plain_datedPage, fun h => ?_, fun h => ?_⟩
  · exact hjson.mp h _ keeps_datedTree trivial
  · exact (hprints.mp h _ keeps_datedTree).1 trivial

end Document

end Componentry
