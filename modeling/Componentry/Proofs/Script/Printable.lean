import Componentry.Proofs.Decimal.Double
import Componentry.Proofs.Outcome
import Componentry.Script.Printer

/-!
# Printing never fails on printable trees

**Main statements.** A printable expression has a text at every level (`Printable.hasText`), and so
have the statements made of such expressions (`PrintableStatement.succeeds`) and the modules made of
such statements (`succeeds_moduleText`).

Where a tree is not well put together, or holds an integer with too many digits, printing is a fault.
Printable trees are those that are put together the way the compiler does it.  A double always has a
text: one that is an integer has at most 309 digits.
-/

namespace Componentry.Script

/-- The integers that are written with few enough digits. -/
def fewDigits (n : Int) : Prop :=
  n.natAbs.repr.length ≤ Text.digitLimit

instance (n : Int) : Decidable (fewDigits n) :=
  inferInstanceAs (Decidable (_ ≤ _))

/-! ## Numbers -/

theorem succeeds_integerText {n : Int} (h : fewDigits n) : Succeeds (integerText n) := by
  rw [integerText, Text.integerText?, if_neg (Nat.not_lt.mpr h)]
  exact succeeds_ok _

theorem fewDigits_of_lt {n : Int} {k : Nat} (h : n.natAbs < Nat.pow 10 k)
    (hk : 0 < k ∧ k ≤ Text.digitLimit) : fewDigits n :=
  Nat.le_trans ((Nat.length_repr_le_iff hk.1).mpr h) hk.2

theorem two_pow_le (k : Nat) : Nat.pow 2 k ≤ Nat.pow 10 k :=
  Nat.pow_le_pow_left (by decide) k

/-- A double that is an integer has at most 1024 binary digits. -/
theorem natAbs_toInt?_lt {x : Double} {n : Int} (h : x.toInt? = some n) :
    ∃ k, (0 < k ∧ k ≤ 1024) ∧ n.natAbs < Nat.pow 2 k := by
  unfold Double.toInt? at h
  split at h
  · cases h
  · next hf =>
    have hexponent := Double.exponent_le (by simpa using hf)
    have hsignificand : x.significand < Nat.pow 2 53 := x.significand_lt
    obtain ⟨_, hmagnitude, rfl⟩ := Option.map_eq_some_iff.mp h
    obtain ⟨m, hm, he⟩ := Option.bind_eq_some_iff.mp hmagnitude
    cases he
    have habs : (if x.isNegative then -(m : Int) else m).natAbs = m := by
      split <;> simp
    rw [habs]
    -- with an exponent the significand is shifted, without one only a part of it is left
    split at hm
    · cases hm
      refine ⟨53 + x.exponent.toNat, by omega, ?_⟩
      calc x.significand <<< x.exponent.toNat
          = x.significand * Nat.pow 2 x.exponent.toNat := Nat.shiftLeft_eq _ _
        _ < Nat.pow 2 53 * Nat.pow 2 x.exponent.toNat :=
          Nat.mul_lt_mul_of_pos_right hsignificand (Nat.pow_pos (by decide))
        _ = Nat.pow 2 (53 + x.exponent.toNat) := (Nat.pow_add 2 53 _).symm
    · refine ⟨53, by decide, ?_⟩
      dsimp only at hm
      split at hm
      · cases hm
        exact Nat.lt_of_le_of_lt (Nat.div_le_self _ _) hsignificand
      · cases hm

/-- Every double has a text. -/
theorem succeeds_floatText (x : Double) : Succeeds (Number.text (.float x)) := by
  rw [Number.text]
  split
  · exact succeeds_ok _
  · split
    · exact succeeds_ok _
    · split
      · next n hn =>
        obtain ⟨k, ⟨hk, hk'⟩, hlt⟩ := natAbs_toInt?_lt hn
        have hlimit : 1024 ≤ Text.digitLimit := by decide
        exact succeeds_integerText
          (fewDigits_of_lt (Nat.lt_of_lt_of_le hlt (two_pow_le k)) ⟨hk, Nat.le_trans hk' hlimit⟩)
      · exact succeeds_ok _

/-! ## Expressions -/

/-- The expressions that have a text at every level. -/
inductive Printable : Node → Prop
  | name (n : String) : Printable (.name n)
  | text (s : String) : Printable (.text s)
  | int {n : Int} (h : fewDigits n) : Printable (.number (.int n))
  | float (x : Double) : Printable (.number (.float x))
  | bool (b : Bool) : Printable (.bool b)
  | null : Printable .null
  | template (segments : List (String × Bool)) {expressions : List Node}
    (h : ∀ e ∈ expressions, Printable e) :
    Printable (.template (segments.map fun s => .segment s.1 s.2) expressions)
  | member {object : Node} (h : Printable object) (p : String) :
    Printable (.member object (.name p))
  | call {callee : Node} {arguments : List Node} (h : Printable callee)
    (ha : ∀ a ∈ arguments, Printable a) : Printable (.call callee arguments)
  | binary (operator : String) {left right : Node} (hl : Printable left) (hr : Printable right) :
    Printable (.binary operator left right)
  | arrow (params : List String) {body : Node} (h : Printable body) :
    Printable (.arrow (params.map .name) body)
  | arrowBlock (params : List String) {body : List Node} (h : ∀ e ∈ body, Printable e) :
    Printable (.arrow (params.map .name) (.block (body.map .expression)))
  | array {elements : List Node} (h : ∀ e ∈ elements, Printable e) : Printable (.array elements)
  | object {entries : List (String × Bool × Node)} (h : ∀ e ∈ entries, Printable e.2.2) :
    Printable (.object (entries.map fun e =>
      .property (if e.2.1 then .name e.1 else .text e.1) e.2.2))

/-- The properties of objects that have a text. -/
def PrintableProperty (p : Node) : Prop :=
  ∃ (key : String) (isName : Bool) (value : Node),
    p = .property (if isName then .name key else .text key) value ∧ Printable value

theorem printable_object {properties : List Node} (h : ∀ p ∈ properties, PrintableProperty p) :
    Printable (.object properties) := by
  obtain ⟨entries, rfl, hs⟩ : ∃ entries : List (String × Bool × Node),
      properties = (entries.map fun e => .property (if e.2.1 then .name e.1 else .text e.1) e.2.2) ∧
      ∀ e ∈ entries, Printable e.2.2 := by
    induction properties with
    | nil => exact ⟨[], rfl, nofun⟩
    | cons p properties ih =>
      obtain ⟨⟨key, isName, value, rfl, hv⟩, hps⟩ := List.forall_mem_cons.mp h
      obtain ⟨entries, rfl, hs⟩ := ih hps
      exact ⟨(key, isName, value) :: entries, rfl, List.forall_mem_cons.mpr ⟨hv, hs⟩⟩
  exact .object hs

section Succeeds

variable (annotated : Bool)

/-- The expression has a text at every level. -/
def HasText (e : Node) : Prop :=
  ∀ level : Int, Succeeds (expressionText annotated level e)

variable {annotated}

theorem mapM_nameText : ∀ names : List String, (names.map Node.name).mapM Node.nameText = .ok names
  | [] => rfl
  | n :: names => by
    rw [List.map_cons, List.mapM_cons, mapM_nameText names]
    rfl

theorem succeeds_expressionTexts (level : Int) : ∀ {es : List Node},
    (∀ e ∈ es, HasText annotated e) → Succeeds (expressionTexts annotated level es)
  | [], _ => by
    rw [expressionTexts]
    exact succeeds_ok _
  | e :: es, h => by
    obtain ⟨he, hes⟩ := List.forall_mem_cons.mp h
    rw [expressionTexts]
    exact (he level).bind fun _ =>
      (succeeds_expressionTexts level hes).bind fun _ => succeeds_pure _

theorem succeeds_segmentsText : ∀ segments : List (String × Bool),
    Succeeds (segmentsText (segments.map fun s => .segment s.1 s.2))
  | [] => succeeds_ok _
  | _ :: segments => (succeeds_segmentsText segments).bind fun _ => succeeds_pure _

theorem succeeds_templateText (level : Int) : ∀ (segments : List (String × Bool)) {es : List Node},
    (∀ e ∈ es, HasText annotated e) →
    Succeeds (templateText annotated level (segments.map fun s => .segment s.1 s.2) es)
  | segments, [], _ => by
    rw [templateText]
    exact succeeds_segmentsText segments
  | [], e :: es, _ => by
    rw [List.map_nil, templateText]
    exact succeeds_ok _
  | s :: segments, e :: es, h => by
    obtain ⟨he, hes⟩ := List.forall_mem_cons.mp h
    rw [List.map_cons, templateText]
    exact (succeeds_ok s.1).bind fun _ => (he level).bind fun _ =>
      (succeeds_templateText level segments hes).bind fun _ => succeeds_pure _

theorem succeeds_propertyTexts (level : Int) : ∀ {entries : List (String × Bool × Node)},
    (∀ e ∈ entries, HasText annotated e.2.2) →
    Succeeds (propertyTexts annotated level (entries.map fun e =>
      .property (if e.2.1 then .name e.1 else .text e.1) e.2.2))
  | [], _ => by
    rw [List.map_nil, propertyTexts]
    exact succeeds_ok _
  | (key, isName, value) :: entries, h => by
    obtain ⟨hv, hvs⟩ := List.forall_mem_cons.mp h
    have hkey : Succeeds (Node.keyText (if isName then .name key else .text key)) := by
      cases isName <;> exact succeeds_ok _
    rw [List.map_cons, propertyTexts, propertyText]
    exact (hkey.bind fun _ => (hv level).bind fun _ => succeeds_pure _).bind fun _ =>
      (succeeds_propertyTexts level hvs).bind fun _ => succeeds_pure _

theorem succeeds_expressionStatements (level : Int) : ∀ {es : List Node},
    (∀ e ∈ es, HasText annotated e) →
    Succeeds (statementTexts annotated level (es.map .expression))
  | [], _ => by
    rw [List.map_nil, statementTexts]
    exact succeeds_ok _
  | e :: es, h => by
    obtain ⟨he, hes⟩ := List.forall_mem_cons.mp h
    rw [List.map_cons, statementTexts, statementText]
    exact ((he level).bind fun _ => succeeds_pure _).bind fun _ =>
      (succeeds_expressionStatements level hes).bind fun _ => succeeds_pure _

/-- **A printable expression has a text at every level.** -/
theorem Printable.hasText {e : Node} (h : Printable e) : HasText annotated e := by
  induction h with
  | name | text | bool | null =>
    intro level
    rw [expressionText]
    exact succeeds_ok _
  | int h =>
    intro level
    rw [expressionText]
    exact succeeds_integerText h
  | float x =>
    intro level
    rw [expressionText]
    exact succeeds_floatText x
  | template segments _ ih =>
    intro level
    rw [expressionText]
    exact (succeeds_templateText level segments ih).bind fun _ => succeeds_pure _
  | member _ p ih =>
    intro level
    rw [expressionText]
    exact (ih level).bind fun _ => succeeds_pure _
  | call _ _ ih iha =>
    intro level
    rw [expressionText]
    exact (ih level).bind fun _ =>
      (succeeds_expressionTexts level iha).bind fun _ => succeeds_pure _
  | binary operator _ _ ihl ihr =>
    intro level
    rw [expressionText]
    exact (ihl level).bind fun _ => (ihr level).bind fun _ => succeeds_pure _
  | arrow params hb ih =>
    intro level
    rw [expressionText, mapM_nameText]
    · exact (ih level).bind fun _ => succeeds_pure _
    · rintro body rfl
      cases hb
  | arrowBlock params _ ih =>
    intro level
    rw [expressionText, mapM_nameText]
    exact (succeeds_expressionStatements (level + 1) ih).bind fun _ => succeeds_pure _
  | array _ ih =>
    intro level
    rw [expressionText]
    exact (succeeds_expressionTexts level ih).bind fun _ => succeeds_pure _
  | object _ ih =>
    intro level
    rw [expressionText]
    exact (succeeds_propertyTexts (level + 1) ih).bind fun _ => succeeds_pure _

end Succeeds

/-! ## Statements -/

/-- The bindings of an import that have a text. -/
inductive PrintableBinding : Node → Prop
  | default (n : String) : PrintableBinding (.defaultBinding (.name n))
  | named (n m : String) : PrintableBinding (.namedBinding (.name n) (.name m))

/-- The statements that have a text at every level. -/
inductive PrintableStatement : Node → Prop
  | empty : PrintableStatement .empty
  | result {e : Node} (h : Printable e) : PrintableStatement (.result (some e))
  | expression {e : Node} (h : Printable e) : PrintableStatement (.expression e)
  | declaration (kind : String) (names : List String) {init : Node} (h : Printable init) :
    PrintableStatement
      (.declaration kind [.declarator (.arrayPattern (names.map .name)) (some init)])
  | importFrom {bindings : List Node} (h : ∀ b ∈ bindings, PrintableBinding b) (source : String) :
    PrintableStatement (.importFrom bindings (.text source))
  | function (name : String) (params : List String) {body : List Node}
    (h : ∀ s ∈ body, PrintableStatement s) :
    PrintableStatement (.function (.name name) (params.map .name) (.block body))
  | exportName (name : String) : PrintableStatement (.exportDefault (.name name))

theorem patternText_names (names : List String) :
    (Node.arrayPattern (names.map .name)).patternText = .ok ("[" ++ Text.joined ", " names ++ "]") := by
  rw [Node.patternText, mapM_nameText]
  rfl

theorem succeeds_bindingTexts : ∀ {bindings : List Node}, (∀ b ∈ bindings, PrintableBinding b) →
    Succeeds (bindingTexts bindings)
  | [], _ => succeeds_ok _
  | b :: bindings, h => by
    obtain ⟨hb, hbs⟩ := List.forall_mem_cons.mp h
    have hrest := succeeds_bindingTexts hbs
    cases hb with
    | default n => exact hrest.bind fun _ => succeeds_pure _
    | named n m => exact hrest.bind fun _ => succeeds_pure _

theorem succeeds_importText {bindings : List Node} (h : ∀ b ∈ bindings, PrintableBinding b)
    (source : String) : Succeeds (importText bindings source) := by
  unfold importText
  split
  · exact succeeds_ok _
  · exact (succeeds_bindingTexts h).bind fun _ => succeeds_pure _

theorem succeeds_statementTexts {annotated : Bool} {level : Int} : ∀ {statements : List Node},
    (∀ s ∈ statements, Succeeds (statementText annotated level s)) →
    Succeeds (statementTexts annotated level statements)
  | [], _ => by
    rw [statementTexts]
    exact succeeds_ok _
  | s :: statements, h => by
    obtain ⟨hs, hss⟩ := List.forall_mem_cons.mp h
    rw [statementTexts]
    exact hs.bind fun _ => (succeeds_statementTexts hss).bind fun _ => succeeds_pure _

/-- A printable statement has a text at every level. -/
theorem PrintableStatement.succeeds {annotated : Bool} {s : Node} (h : PrintableStatement s) :
    ∀ level : Int, Succeeds (statementText annotated level s) := by
  induction h with
  | empty =>
    intro level
    rw [statementText]
    exact succeeds_ok _
  | result h | expression h =>
    intro level
    rw [statementText]
    exact (h.hasText level).bind fun _ => succeeds_pure _
  | declaration kind names h =>
    intro level
    rw [statementText, declaratorTexts, declaratorTexts, declaratorText, patternText_names]
    exact (Succeeds.bind (Succeeds.bind (succeeds_ok _) fun _ => (h.hasText level).bind fun _ =>
      succeeds_pure _) fun _ => succeeds_pure _).bind fun _ => succeeds_pure _
  | importFrom h source =>
    intro level
    rw [statementText, expressionText]
    exact (succeeds_importText h _).bind fun _ => succeeds_pure _
  | function name params _ ih =>
    intro level
    rw [statementText, parameterTexts, mapM_nameText, blockLines]
    exact (succeeds_statementTexts fun s hs => ih s hs (level + 1)).bind fun _ => succeeds_pure _
  | exportName name =>
    intro level
    rw [statementText, expressionText]
    · exact succeeds_ok _
    · simp

/-- **A module of printable statements has a text.** -/
theorem succeeds_moduleText (annotated : Bool) {body : List Node}
    (h : ∀ s ∈ body, PrintableStatement s) : Succeeds (moduleText annotated (.program body)) := by
  rw [moduleText, blockLines]
  exact (succeeds_statementTexts fun s hs => (h s hs).succeeds 0).bind fun _ => succeeds_pure _

end Componentry.Script
