import Componentry.Proofs.Script.Annotation
import Componentry.Proofs.Script.OneLine
import Componentry.Proofs.Script.Shape
import Componentry.Proofs.Script.Shift

/-!
# Indentation

The printer takes a level of indentation and hands it on to the parts of a node: as it is in calls and
arrays, one higher between braces.  A node at a higher level has the same lines, moved to the right.

Some texts are printed as they are.  If such a text holds a line feed, nothing is put behind it, and the
rest of the text does not move.  `Node.HoldsFeed` says which texts these are: names, operators, kinds of
declarations, texts of templates, and a key that is a word and one line feed, which is taken for a name.

**Main statement.** Apart from names, operators, kinds of declarations and texts of templates with a
line feed in them, a node at level `n` is the node at level zero, shifted by `n` levels, if and only if
it has no such key (`indentation_shifts_iff`).  A property with the key `"a\n"` has one
(`indentation_shifts_iff_brokenKey`).

The proof follows the printer.  What is printed at two levels is compared piece by piece, and for each
node a line feed is left out just when one of the nodes that are printed with it holds one
(`expressionText_shifts`, `statementText_shifts`).
-/

namespace Componentry.Script

open Relation (ReflTransGen)

/-! ## What is printed as it is -/

/-- The parts of a node that are printed: of the expressions in a template only those that stand
behind a segment. -/
@[simp] def Node.printedParts : Node → List Node
  | .template ss es => ss ++ es.take ss.length
  | e => e.parts

/-- `part` is printed when `e` is. -/
def Node.Prints (e part : Node) : Prop :=
  ReflTransGen (fun e p => p ∈ e.printedParts) e part

/-- `P` holds of every node that is printed when `e` is. -/
def Node.PrintsAll (P : Node → Prop) (e : Node) : Prop :=
  ∀ part, e.Prints part → P part

/-- The texts of a node itself that are printed as they are: names, operators, the kinds of
declarations and the texts of templates. -/
@[simp] def Node.verbatim : Node → List String
  | .name n => [n]
  | .binary operator _ _ => [operator]
  | .declaration kind _ => [kind]
  | .segment raw _ => [raw]
  | _ => []

/-- The node is a property with a text as its key, and this is a word and one line feed. -/
@[simp] def Node.HasBrokenKey : Node → Prop
  | .property (.text key) _ => IsBrokenWord key
  | _ => False

/-- The node itself is printed with a line feed that it holds. -/
@[simp] def Node.HoldsFeed (e : Node) : Prop :=
  (∃ text ∈ e.verbatim, '\n' ∈ text.toList) ∨ e.HasBrokenKey

/-- A node that is printed when `e` is holds a line feed. -/
def Node.PrintsFeed (e : Node) : Prop :=
  ∃ part, e.Prints part ∧ part.HoldsFeed

/-- An import has names for its bindings and a text for its source. -/
def Node.IsTypedImport : Node → Prop
  | .importFrom bs source => (∀ b ∈ bs, PrintableBinding b) ∧ ∃ s, source = .text s
  | _ => True

namespace Node

/-- Line feeds are looked for in the node itself and in its parts. -/
theorem printsFeed_iff (e : Node) :
    e.PrintsFeed ↔ e.HoldsFeed ∨ ∃ p ∈ e.printedParts, p.PrintsFeed := by
  constructor
  · rintro ⟨part, hpart, hfeed⟩
    rcases hpart.cases_head with rfl | ⟨p, hp, hrest⟩
    · exact .inl hfeed
    · exact .inr ⟨p, hp, part, hrest, hfeed⟩
  · rintro (hfeed | ⟨p, hp, part, hrest, hfeed⟩)
    · exact ⟨e, .refl, hfeed⟩
    · exact ⟨part, .head hp hrest, hfeed⟩

theorem PrintsAll.self {P : Node → Prop} {e : Node} (h : e.PrintsAll P) : P e :=
  h e .refl

theorem PrintsAll.part {P : Node → Prop} {e p : Node} (h : e.PrintsAll P)
    (hp : p ∈ e.printedParts) : p.PrintsAll P :=
  fun part hpart => h part (.head hp hpart)

/-- What holds of every node inside a node holds of the printed ones. -/
theorem All.printsAll {P : Node → Prop} {e : Node} (h : e.All P) : e.PrintsAll P := by
  have hparts : ∀ e p : Node, p ∈ e.printedParts → p ∈ e.parts := by
    intro e p hp
    cases e with
    | template ss es =>
      rcases List.mem_append.mp hp with hs | he
      · exact List.mem_append_left _ hs
      · exact List.mem_append_right _ (List.mem_of_mem_take he)
    | _ => exact hp
  exact fun part hpart => h part (ReflTransGen.mono hparts _ _ hpart)

end Node

section Shifts

variable (n : Nat)

/-! ## Names, segments and keys -/

/-- One more text in front of others. -/
theorem together_cons {R : Prop → String → String → Prop} {p q : Prop} {x y : Except Fault String}
    {xs ys : Except Fault (List String)} (h : Together (R p) x y) (hs : Together (Each R q) xs ys) :
    Together (Each R (p ∨ q)) (do let s ← x; return s :: (← xs)) (do let s ← y; return s :: (← ys)) :=
  h.bind fun _ _ hst => hs.bind fun _ _ hsts => together_pure (.cons hst hsts)

theorem nameText_shifts (e : Node) : Together (Shifts n e.PrintsFeed) e.nameText e.nameText := by
  cases e with
  | name x => exact .ok ((Shifts.refl n x).congr (by simp [Node.printsFeed_iff (.name x), Node.parts]))
  | _ => exact .error _

theorem names_shift (es : List Node) :
    Together (Each (Shifts n) (∃ e ∈ es, e.PrintsFeed)) (es.mapM Node.nameText)
      (es.mapM Node.nameText) := by
  induction es with
  | nil => exact together_pure (Each.nil.congr (by simp))
  | cons e es ih =>
    rw [List.mapM_cons]
    exact (together_cons (nameText_shifts n e) ih).congr (by simp)

theorem parameterTexts_shift (annotated : Bool) (ps : List Node) :
    Together (Each (Shifts n) (∃ e ∈ ps, e.PrintsFeed)) (parameterTexts annotated ps)
      (parameterTexts annotated ps) := by
  refine (names_shift n ps).bind fun names names' h => together_pure ?_
  cases annotated with
  | false => exact h
  | true => exact h.map fun hst => hst.concat (by decide)

theorem patternText_shifts (e : Node) :
    Together (Shifts n e.PrintsFeed) e.patternText e.patternText := by
  cases e with
  | name x => exact nameText_shifts n (.name x)
  | arrayPattern es =>
    refine (names_shift n es).bind fun names names' h => together_pure ?_
    refine (((h.joined (by decide)).prepend (by decide)).concat (by decide)).congr ?_
    simp [Node.printsFeed_iff (.arrayPattern es), Node.parts]
  | _ => exact .error _

theorem raw_shifts (e : Node) :
    Together (fun s t => Shifts n e.PrintsFeed (String.ofList (escapeSegment s.toList))
      (String.ofList (escapeSegment t.toList))) e.raw e.raw := by
  cases e with
  | segment raw tail =>
    refine .ok ((Shifts.refl n _).congr ?_)
    rw [String.toList_ofList, mem_escapeSegment]
    simp [Node.printsFeed_iff (.segment raw tail), Node.parts]
  | _ => exact .error _

theorem segmentsText_shifts (ss : List Node) :
    Together (Shifts n (∃ s ∈ ss, s.PrintsFeed)) (segmentsText ss) (segmentsText ss) := by
  induction ss with
  | nil => exact .ok ((Shifts.const (s := "") (by decide)).congr (by simp))
  | cons s ss ih =>
    rw [segmentsText]
    refine (raw_shifts n s).bind fun _ _ hs => ih.bind fun _ _ hss => together_pure ?_
    exact (hs.append hss).congr (by simp)

theorem keyText_shifts (key value : Node) :
    Together (Shifts n ((Node.property key value).HoldsFeed ∨ key.PrintsFeed)) key.keyText
      key.keyText := by
  cases key with
  | name x => exact (nameText_shifts n (.name x)).congr (by simp)
  | text s =>
    refine .ok ((Shifts.refl n (shownKey s)).congr ?_)
    simp [mem_shownKey_iff, Node.printsFeed_iff (.text s), Node.parts]
  | _ => exact .error _

/-! ## Imports -/

theorem ensures_bindingTexts {bs : List Node} (h : ∀ b ∈ bs, PrintableBinding b) :
    Ensures (bindingTexts bs) fun texts =>
      ((∃ text ∈ texts.1, '\n' ∈ text.toList) ∨ ∃ text ∈ texts.2, '\n' ∈ text.toList) ↔
        ∃ b ∈ bs, b.PrintsFeed := by
  induction bs with
  | nil => exact ensures_ok (by simp)
  | cons b bs ih =>
    obtain ⟨hb, hbs⟩ := List.forall_mem_cons.mp h
    cases hb with
    | default x =>
      refine (ih hbs).bind fun texts htexts => ensures_pure ?_
      have hb : (Node.defaultBinding (.name x)).PrintsFeed ↔ '\n' ∈ x.toList := by
        simp [Node.printsFeed_iff (.defaultBinding _), Node.printsFeed_iff (.name x), Node.parts]
      rw [List.exists_mem_cons_iff, List.exists_mem_cons_iff, hb, ← htexts, or_assoc]
    | named x y =>
      refine (ih hbs).bind fun texts htexts => ensures_pure ?_
      have hb : (Node.namedBinding (.name x) (.name y)).PrintsFeed ↔
          '\n' ∈ x.toList ∨ '\n' ∈ y.toList := by
        simp [Node.printsFeed_iff (.namedBinding _ _), Node.printsFeed_iff (.name _), Node.parts]
      have htext : '\n' ∈ (if y == x then x else y ++ " as " ++ x).toList ↔
          '\n' ∈ x.toList ∨ '\n' ∈ y.toList := by
        split
        · next he => simp [beq_iff_eq.mp he]
        · simp [or_comm]
      rw [List.exists_mem_cons_iff, List.exists_mem_cons_iff, hb, htext, ← htexts, or_left_comm]

/-- An import is printed with a line feed just when one of its names holds one. -/
theorem ensures_importText {bs : List Node} (h : ∀ b ∈ bs, PrintableBinding b) (s : String) :
    Ensures (importText bs (Text.quoted s)) fun text =>
      '\n' ∈ text.toList ↔ ∃ b ∈ bs, b.PrintsFeed := by
  have hsource := not_mem_quoted s
  unfold importText
  split
  · exact ensures_ok (by simp [hsource])
  refine (ensures_bindingTexts h).bind fun texts htexts => ensures_pure ?_
  have hgroup : (∃ text ∈ if texts.2.isEmpty then [] else
        ["\x7b " ++ Text.joined ", " texts.2 ++ " \x7d"], '\n' ∈ text.toList) ↔
      ∃ text ∈ texts.2, '\n' ∈ text.toList := by
    split
    · next he => simp [List.isEmpty_iff.mp he]
    · simp [mem_joined]
  have hnames : (∃ text ∈ texts.1 ++ if texts.2.isEmpty then [] else
        ["\x7b " ++ Text.joined ", " texts.2 ++ " \x7d"], '\n' ∈ text.toList) ↔
      ∃ b ∈ bs, b.PrintsFeed := by
    simp only [List.mem_append, or_and_right, exists_or, hgroup, htexts]
  rw [← hnames, ← mem_joined ", " (by decide)]
  simp [hsource]

theorem importText_shifts {bs : List Node} (h : ∀ b ∈ bs, PrintableBinding b) (s : String) :
    Together (Shifts n (∃ b ∈ bs, b.PrintsFeed)) (importText bs (Text.quoted s))
      (importText bs (Text.quoted s)) := by
  refine (ensures_importText h s).together.imp ?_
  rintro text _ ⟨rfl, htext⟩
  exact (Shifts.refl n text).congr htext

/-! ## Trees -/

variable {annotated : Bool}

mutual

/-- **An expression is shifted from level to level, but for the line feeds that it holds.** -/
theorem expressionText_shifts {level : Int} (hl : 0 ≤ level) (e : Node)
    (he : e.PrintsAll Node.IsTypedImport) :
    Together (Shifts n e.PrintsFeed) (expressionText annotated level e)
      (expressionText annotated (level + n) e) := by
  -- between braces both texts are one level higher, and as far apart as before
  have hinner : 0 ≤ level + 1 := by omega
  have hnext : level + n + 1 = level + 1 + n := by omega
  cases e with
  | name x =>
    rw [expressionText, expressionText]
    exact nameText_shifts n (.name x)
  | text s =>
    rw [expressionText, expressionText]
    refine .ok ((Shifts.const (not_mem_quoted s)).congr ?_)
    simp [Node.printsFeed_iff (.text s), Node.parts]
  | number v =>
    rw [expressionText, expressionText]
    refine (ensures_numberText v).together.imp ?_
    rintro text _ ⟨rfl, htext⟩
    exact (Shifts.const htext).congr (by simp [Node.printsFeed_iff (.number v), Node.parts])
  | bool b =>
    rw [expressionText, expressionText]
    refine .ok ((Shifts.const (by cases b <;> decide)).congr ?_)
    simp [Node.printsFeed_iff (.bool b), Node.parts]
  | null =>
    rw [expressionText, expressionText]
    exact .ok ((Shifts.const (by decide)).congr (by simp [Node.printsFeed_iff .null, Node.parts]))
  | template ss es =>
    rw [expressionText, expressionText]
    refine (templateText_shifts hl ss es fun e hm => he.part (List.mem_append_right _ hm)).bind
      fun _ _ h => together_pure ?_
    refine ((h.prepend (by decide)).concat (by decide)).congr ?_
    simp [Node.printsFeed_iff (.template ss es), or_and_right, exists_or]
  | member o p =>
    rw [expressionText, expressionText]
    refine (expressionText_shifts hl o (he.part (by simp [Node.parts]))).bind fun _ _ ho =>
      (nameText_shifts n p).bind fun _ _ hp => together_pure ?_
    refine (((ho.parenthesizedIf _).concat (by decide)).append hp).congr ?_
    simp [Node.printsFeed_iff (.member o p), Node.parts]
  | call f as =>
    rw [expressionText, expressionText]
    have hparts : ∀ p ∈ f :: as, p.PrintsAll Node.IsTypedImport := fun p hp => he.part hp
    obtain ⟨hf, has⟩ := List.forall_mem_cons.mp hparts
    refine (expressionText_shifts hl f hf).bind fun _ _ hf =>
      (expressionTexts_shift hl as has).bind fun _ _ has => together_pure ?_
    refine ((hf.parenthesizedIf _).append (has.joined (by decide)).parenthesized).congr ?_
    simp [Node.printsFeed_iff (.call f as), Node.parts]
  | binary op l r =>
    rw [expressionText, expressionText]
    refine (expressionText_shifts hl l (he.part (by simp [Node.parts]))).bind fun _ _ hleft =>
      (expressionText_shifts hl r (he.part (by simp [Node.parts]))).bind fun _ _ hright =>
        together_pure ?_
    refine (((((hleft.parenthesizedIf _).concat (by decide)).append (Shifts.refl n op)).concat
      (by decide)).append (hright.parenthesizedIf _)).congr ?_
    simp [Node.printsFeed_iff (.binary op l r), Node.parts, or_assoc, or_left_comm]
  | arrow ps b =>
    have hb := he.part (List.mem_append_right ps List.mem_cons_self)
    have hparts : (Node.arrow ps b).PrintsFeed ↔ (∃ p ∈ ps, p.PrintsFeed) ∨ b.PrintsFeed := by
      simp [Node.printsFeed_iff (.arrow ps b), Node.parts, or_and_right, exists_or]
    have ih := expressionText_shifts hl b hb
    cases hblock : b.isBlock with
    | false =>
      rw [expressionText_arrow annotated level ps hblock, expressionText_arrow _ _ ps hblock]
      refine (names_shift n ps).bind fun _ _ hnames => ih.bind fun _ _ hbody => together_pure ?_
      refine (((hnames.joined (by decide)).parenthesized.concat (by decide)).append
        (hbody.parenthesizedIf _)).congr hparts.symm
    | true =>
      cases b with
      | block body =>
        rw [expressionText, expressionText, hnext]
        have hbody : ∀ s ∈ body, s.PrintsAll Node.IsTypedImport := fun s hs => hb.part hs
        refine (names_shift n ps).bind fun _ _ hnames =>
          (statementTexts_shift hinner body hbody).bind fun _ _ hlines => together_pure ?_
        refine (((hnames.joined (by decide)).parenthesized.concat (by decide)).append
          (hlines.blockText hl)).congr ?_
        rw [hparts]
        simp [Node.printsFeed_iff (.block body), Node.parts]
      | _ => cases hblock
  | array es =>
    rw [expressionText, expressionText]
    refine (expressionTexts_shift hl es fun e hm => he.part hm).bind fun _ _ h => together_pure ?_
    refine (((h.joined (by decide)).prepend (by decide)).concat (by decide)).congr ?_
    simp [Node.printsFeed_iff (.array es), Node.parts]
  | object ps =>
    rw [expressionText, expressionText, hnext]
    refine (propertyTexts_shift hinner ps fun p hm => he.part hm).bind fun _ _ h => together_pure ?_
    refine (h.objectText hl).congr ?_
    simp [Node.printsFeed_iff (.object ps), Node.parts]
  | _ =>
    simp only [expressionText]
    exact .error _

theorem expressionTexts_shift {level : Int} (hl : 0 ≤ level) : ∀ es : List Node,
    (∀ e ∈ es, e.PrintsAll Node.IsTypedImport) →
    Together (Each (Shifts n) (∃ e ∈ es, e.PrintsFeed)) (expressionTexts annotated level es)
      (expressionTexts annotated (level + n) es)
  | [], _ => by
    rw [expressionTexts, expressionTexts]
    exact .ok (Each.nil.congr (by simp))
  | e :: es, h => by
    obtain ⟨he, hes⟩ := List.forall_mem_cons.mp h
    rw [expressionTexts, expressionTexts]
    exact (together_cons (expressionText_shifts hl e he) (expressionTexts_shift hl es hes)).congr
      (by simp)

theorem templateText_shifts {level : Int} (hl : 0 ≤ level) : ∀ ss es : List Node,
    (∀ e ∈ es.take ss.length, e.PrintsAll Node.IsTypedImport) →
    Together (Shifts n ((∃ s ∈ ss, s.PrintsFeed) ∨ ∃ e ∈ es.take ss.length, e.PrintsFeed))
      (templateText annotated level ss es) (templateText annotated (level + n) ss es)
  | ss, [], _ => by
    rw [templateText, templateText]
    exact (segmentsText_shifts n ss).congr (by simp)
  | [], e :: es, _ => by
    rw [templateText, templateText]
    exact .ok ((Shifts.const (by decide)).congr (by simp))
  | s :: ss, e :: es, h => by
    rw [List.length_cons, List.take_succ_cons] at h
    obtain ⟨he, hes⟩ := List.forall_mem_cons.mp h
    rw [templateText, templateText]
    refine (raw_shifts n s).bind fun _ _ hs => (expressionText_shifts hl e he).bind fun _ _ he' =>
      (templateText_shifts hl ss es hes).bind fun _ _ hrest => together_pure ?_
    refine ((((hs.concat (by decide)).append he').concat (by decide)).append hrest).congr ?_
    simp [or_assoc, or_left_comm]

theorem propertyText_shifts {level : Int} (hl : 0 ≤ level) (p : Node)
    (hp : p.PrintsAll Node.IsTypedImport) :
    Together (ShiftsLine n p.PrintsFeed) (propertyText annotated level p)
      (propertyText annotated (level + n) p) := by
  cases p with
  | property k v =>
    rw [propertyText, propertyText]
    refine (keyText_shifts n k v).bind fun _ _ hk =>
      (expressionText_shifts hl v (hp.part (by simp [Node.parts]))).bind fun _ _ hv =>
        together_pure ?_
    refine ((((ShiftsLine.indent hl).append hk).concat (by decide)).append hv).congr ?_
    simp only [Node.printsFeed_iff (.property k v), false_or, or_assoc]
    simp [Node.parts]
  | _ =>
    simp only [propertyText]
    exact .error _

theorem propertyTexts_shift {level : Int} (hl : 0 ≤ level) : ∀ ps : List Node,
    (∀ p ∈ ps, p.PrintsAll Node.IsTypedImport) →
    Together (Each (ShiftsLine n) (∃ p ∈ ps, p.PrintsFeed)) (propertyTexts annotated level ps)
      (propertyTexts annotated (level + n) ps)
  | [], _ => by
    rw [propertyTexts, propertyTexts]
    exact .ok (Each.nil.congr (by simp))
  | p :: ps, h => by
    obtain ⟨hp, hps⟩ := List.forall_mem_cons.mp h
    rw [propertyTexts, propertyTexts]
    exact (together_cons (propertyText_shifts hl p hp) (propertyTexts_shift hl ps hps)).congr
      (by simp)

theorem declaratorText_shifts {level : Int} (hl : 0 ≤ level) (d : Node)
    (hd : d.PrintsAll Node.IsTypedImport) :
    Together (Shifts n d.PrintsFeed) (declaratorText annotated level d)
      (declaratorText annotated (level + n) d) := by
  cases d with
  | declarator t init =>
    cases init with
    | none =>
      rw [declaratorText, declaratorText]
      refine (patternText_shifts n t).congr ?_
      simp [Node.printsFeed_iff (.declarator t none), Node.parts]
    | some e =>
      rw [declaratorText, declaratorText]
      refine (patternText_shifts n t).bind fun _ _ ht =>
        (expressionText_shifts hl e (hd.part (by simp [Node.parts]))).bind fun _ _ he =>
          together_pure ?_
      refine ((ht.concat (by decide)).append he).congr ?_
      simp [Node.printsFeed_iff (.declarator t (some e)), Node.parts]
  | function name ps b =>
    rw [declaratorText, declaratorText]
    exact (patternText_shifts n name).bind fun _ _ _ => .error _
  | _ =>
    simp only [declaratorText]
    exact .error _

theorem declaratorTexts_shift {level : Int} (hl : 0 ≤ level) : ∀ ds : List Node,
    (∀ d ∈ ds, d.PrintsAll Node.IsTypedImport) →
    Together (Each (Shifts n) (∃ d ∈ ds, d.PrintsFeed)) (declaratorTexts annotated level ds)
      (declaratorTexts annotated (level + n) ds)
  | [], _ => by
    rw [declaratorTexts, declaratorTexts]
    exact .ok (Each.nil.congr (by simp))
  | d :: ds, h => by
    obtain ⟨hd, hds⟩ := List.forall_mem_cons.mp h
    rw [declaratorTexts, declaratorTexts]
    exact (together_cons (declaratorText_shifts hl d hd) (declaratorTexts_shift hl ds hds)).congr
      (by simp)

/-- **A statement is shifted from level to level, but for the line feeds that it holds.** -/
theorem statementText_shifts {level : Int} (hl : 0 ≤ level) (s : Node)
    (hs : s.PrintsAll Node.IsTypedImport) :
    Together (ShiftsLine n s.PrintsFeed) (statementText annotated level s)
      (statementText annotated (level + n) s) := by
  have hinner : 0 ≤ level + 1 := by omega
  have hnext : level + n + 1 = level + 1 + n := by omega
  cases s with
  -- the source is printed at level zero whatever the level is: it has to be on one line
  | importFrom bs source =>
    obtain ⟨hbs, text, rfl⟩ := hs.self
    rw [statementText, statementText, expressionText]
    refine (importText_shifts n hbs text).bind fun _ _ h => together_pure ?_
    refine ((ShiftsLine.indent hl).append h).congr ?_
    simp [Node.printsFeed_iff (.importFrom bs _), Node.printsFeed_iff (.text text), Node.parts,
      or_and_right, exists_or]
  | function name ps b =>
    rw [statementText, statementText, hnext]
    have hb := hs.part (p := b) (by simp [Node.parts])
    refine (parameterTexts_shift n annotated ps).bind fun _ _ hps =>
      (blockLines_shift hinner b hb).bind fun _ _ hlines =>
        (nameText_shifts n name).bind fun _ _ hname => together_pure ?_
    refine ((ShiftsLine.indent hl).append (functionText_shifts hname hps hlines hl)).congr ?_
    simp [Node.printsFeed_iff (.function name ps b), Node.parts, or_assoc, or_and_right, exists_or]
  | exportDefault e =>
    have he := hs.part (p := e) (by simp [Node.parts])
    have hparts : (Node.exportDefault e).PrintsFeed ↔ e.PrintsFeed := by
      simp [Node.printsFeed_iff (.exportDefault e), Node.parts]
    have ih := expressionText_shifts hl e he
    cases hfunction : e.isFunction with
    | false =>
      rw [statementText_export annotated level hfunction, statementText_export _ _ hfunction]
      refine ih.bind fun _ _ h => together_pure ?_
      refine ((((ShiftsLine.indent hl).concat (by decide)).append h).concat (by decide)).congr ?_
      rw [hparts, false_or]
    | true =>
      cases e with
      | function name ps b =>
        rw [statementText, statementText, hnext]
        have hb := he.part (p := b) (by simp [Node.parts])
        refine (parameterTexts_shift n annotated ps).bind fun _ _ hps =>
          (blockLines_shift hinner b hb).bind fun _ _ hlines =>
            (nameText_shifts n name).bind fun _ _ hname => together_pure ?_
        refine (((ShiftsLine.indent hl).concat (by decide)).append
          (functionText_shifts hname hps hlines hl)).congr ?_
        rw [hparts]
        simp [Node.printsFeed_iff (.function name ps b), Node.parts, or_assoc, or_and_right, exists_or]
      | _ => cases hfunction
  | declaration kind ds =>
    rw [statementText, statementText]
    refine (declaratorTexts_shift hl ds fun d hm => hs.part hm).bind fun _ _ h => together_pure ?_
    refine (((((ShiftsLine.indent hl).append (.refl n kind)).concat (by decide)).append
      (h.joined (by decide))).concat (by decide)).congr ?_
    simp [Node.printsFeed_iff (.declaration kind ds), Node.parts]
  | result e =>
    cases e with
    | none =>
      rw [statementText, statementText]
      refine .ok (((ShiftsLine.indent hl).concat (by decide)).congr ?_)
      simp [Node.printsFeed_iff (.result none), Node.parts]
    | some e =>
      rw [statementText, statementText]
      refine (expressionText_shifts hl e (hs.part (by simp [Node.parts]))).bind fun _ _ h =>
        together_pure ?_
      refine ((((ShiftsLine.indent hl).concat (by decide)).append h).concat (by decide)).congr ?_
      simp [Node.printsFeed_iff (.result (some e)), Node.parts]
  | expression e =>
    rw [statementText, statementText]
    refine (expressionText_shifts hl e (hs.part (by simp [Node.parts]))).bind fun _ _ h =>
      together_pure ?_
    refine ((ShiftsLine.indent hl).append h.expressionLine).congr ?_
    simp [Node.printsFeed_iff (.expression e), Node.parts]
  | block b =>
    rw [statementText, statementText, hnext]
    refine (statementTexts_shift hinner b fun s hm => hs.part hm).bind fun _ _ h => together_pure ?_
    refine ((ShiftsLine.indent hl).append (h.blockText hl)).congr ?_
    simp [Node.printsFeed_iff (.block b), Node.parts]
  | empty =>
    rw [statementText, statementText]
    refine .ok (((ShiftsLine.indent hl).concat (by decide)).congr ?_)
    simp [Node.printsFeed_iff .empty, Node.parts]
  | _ =>
    simp only [statementText]
    exact .error _

theorem blockLines_shift {level : Int} (hl : 0 ≤ level) (b : Node)
    (hb : b.PrintsAll Node.IsTypedImport) :
    Together (Each (ShiftsLine n) b.PrintsFeed) (blockLines annotated level b)
      (blockLines annotated (level + n) b) := by
  cases b with
  | block b | program b =>
    rw [blockLines, blockLines]
    refine (statementTexts_shift hl b fun s hm => hb.part hm).congr ?_
    rw [Node.printsFeed_iff]
    simp [Node.parts]
  | _ =>
    simp only [blockLines]
    exact .error _

theorem statementTexts_shift {level : Int} (hl : 0 ≤ level) : ∀ ss : List Node,
    (∀ s ∈ ss, s.PrintsAll Node.IsTypedImport) →
    Together (Each (ShiftsLine n) (∃ s ∈ ss, s.PrintsFeed)) (statementTexts annotated level ss)
      (statementTexts annotated (level + n) ss)
  | [], _ => by
    rw [statementTexts, statementTexts]
    exact .ok (Each.nil.congr (by simp))
  | s :: ss, h => by
    obtain ⟨hs, hss⟩ := List.forall_mem_cons.mp h
    rw [statementTexts, statementTexts]
    exact (together_cons (statementText_shifts hl s hs) (statementTexts_shift hl ss hss)).congr
      (by simp)

end

end Shifts

/-! ## Levels -/

/-- If no text that is printed as it is holds a line feed, then only keys do. -/
theorem Node.not_printsFeed_iff {e : Node}
    (h : e.PrintsAll fun part => ∀ text ∈ part.verbatim, '\n' ∉ text.toList) :
    ¬ e.PrintsFeed ↔ e.PrintsAll fun part => ¬ part.HasBrokenKey := by
  constructor
  · intro hfeed part hpart hkey
    exact hfeed ⟨part, hpart, .inr hkey⟩
  · rintro hkeys ⟨part, hpart, ⟨text, htext, hmem⟩ | hkey⟩
    · exact h part hpart text htext hmem
    · exact hkeys part hpart hkey

/-- **Indentation is a shift, but for broken keys.** Let imports have names and texts, and let no name,
operator, kind of declaration or text of a template hold a line feed.  An expression at level `n` is the
expression at level zero with `2 * n` spaces behind every line feed, and a statement has these spaces in
front as well; if there is no text at one level, there is none at the other, for the same reason.  For
`n` other than zero and a node that has a text, this holds if and only if no property in it has a key
that is a word and one line feed. -/
theorem indentation_shifts_iff (annotated : Bool) (n : Nat) (node : Node)
    (himports : node.PrintsAll Node.IsTypedImport)
    (hverbatim : node.PrintsAll fun part => ∀ text ∈ part.verbatim, '\n' ∉ text.toList) :
    (expressionText annotated n node = (expressionText annotated 0 node).map (shifted n) ↔
      (Succeeds (expressionText annotated 0 node) → n ≠ 0 →
        node.PrintsAll fun part => ¬ part.HasBrokenKey)) ∧
    (statementText annotated n node =
        (statementText annotated 0 node).map (fun text => String.ofList (margin n) ++ shifted n text) ↔
      (Succeeds (statementText annotated 0 node) → n ≠ 0 →
        node.PrintsAll fun part => ¬ part.HasBrokenKey)) := by
  have hexpression : Together (Shifts n node.PrintsFeed) (expressionText annotated 0 node)
      (expressionText annotated (0 + n) node) := expressionText_shifts n (Int.le_refl 0) node himports
  have hstatement : Together (ShiftsLine n node.PrintsFeed) (statementText annotated 0 node)
      (statementText annotated (0 + n) node) := statementText_shifts n (Int.le_refl 0) node himports
  rw [Int.zero_add] at hexpression hstatement
  rw [← Node.not_printsFeed_iff hverbatim]
  exact ⟨hexpression.eq_map_iff fun _ _ h => h.eq_shifted_iff,
    hstatement.eq_map_iff fun _ _ h => h.eq_shifted_iff⟩

/-- The line feed of a key is not followed by indentation. -/
theorem indentation_shifts_iff_brokenKey :
    expressionText false 0 (.object [.property (.text "a\n") (.bool true)]) =
      .ok "\x7b\n  a\n: true\n\x7d" ∧
    expressionText false 1 (.object [.property (.text "a\n") (.bool true)]) ≠
      .ok (shifted 1 "\x7b\n  a\n: true\n\x7d") := by
  have htext : expressionText false 0 (.object [.property (.text "a\n") (.bool true)]) =
      .ok "\x7b\n  a\n: true\n\x7d" := by
    rw [expressionText, propertyTexts, propertyText, propertyTexts, expressionText]
    decide
  have himports : (Node.object [.property (.text "a\n") (.bool true)]).All Node.IsTypedImport := by
    simp [Node.All.iff_forall_parts, Node.parts, Node.IsTypedImport]
  have hverbatim : (Node.object [.property (.text "a\n") (.bool true)]).All fun part =>
      ∀ text ∈ part.verbatim, '\n' ∉ text.toList := by
    simp [Node.All.iff_forall_parts, Node.parts]
  have hbroken : IsBrokenWord "a\n" := ⟨"a".toList, by decide, by decide⟩
  refine ⟨htext, fun hshift => ?_⟩
  have hiff := (indentation_shifts_iff false 1 _ himports.printsAll hverbatim.printsAll).1
  rw [htext] at hiff
  have hkeys := hiff.mp hshift (succeeds_ok _) Nat.one_ne_zero
  exact hkeys _ (.single List.mem_cons_self) hbroken

end Componentry.Script
