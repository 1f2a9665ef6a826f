import Componentry.Proofs.Script.Grammar

/-!
# The grammar is unambiguous

**Main statement.** The tokens of an expression have one tree (`Reads.unique`).

## How it is proved

A phrase is compared with another one that starts at the same place of the same tokens.  What
follows either of them does not extend it (`Ends`), and then both phrases are the same
(`Unambiguous`).  The induction is on the number of tokens that are left, and below that from the
primary expressions up to the loosest category.

Left recursion is a head with steps behind it (`Reads.exists_suffixes`, `Reads.exists_operations`);
heads and steps are compared one by one (`unambiguous_of_steps`).
-/

namespace Componentry.Script

/-! ## What extends a phrase -/

/-- Whether a mark behind a phrase of the category may belong to a longer one. -/
def Category.isExtendedBy (c : Category) (m : String) : Bool :=
  match c with
  | .primary => false
  | .leftHand => m == "." || m == "("
  | .binary k => m == "." || m == "(" || (operatorLevel? m).any (k ≤ ·)
  | .assignment | .property => m == "." || m == "(" || (operatorLevel? m).isSome || m == "=>"

/-- What follows a phrase of the category does not extend it. -/
def Ends (c : Category) (rest : List Token) : Prop :=
  ∀ m more, rest = .mark m :: more → c.isExtendedBy m = false

/-- At most `n` tokens start with at most one phrase of the category, if what follows it does not
extend it. -/
def Unambiguous (c : Category) (n : Nat) : Prop :=
  ∀ ⦃ts ts' rest rest' : List Token⦄ ⦃e e' : Node⦄, (ts ++ rest).length ≤ n →
    Reads c ts e → Reads c ts' e' → ts ++ rest = ts' ++ rest' → Ends c rest → Ends c rest' →
    ts = ts' ∧ e = e'

/-! ### Steps one after another -/

section Steps

variable {σ : Type} {toks : σ → List Token} {IsStep : σ → Prop} {Stop : List Token → Prop}

/-- The tokens stop, or go on with a step. -/
def StopsOrSteps (toks : σ → List Token) (IsStep : σ → Prop) (Stop : List Token → Prop)
    (u : List Token) : Prop :=
  Stop u ∨ ∃ s u', IsStep s ∧ u = toks s ++ u'

theorem stopsOrSteps_flatMap {steps : List σ} {rest : List Token} (h : ∀ s ∈ steps, IsStep s)
    (hrest : Stop rest) : StopsOrSteps toks IsStep Stop (steps.flatMap toks ++ rest) := by
  cases steps with
  | nil => exact .inl hrest
  | cons s steps =>
    refine .inr ⟨s, steps.flatMap toks ++ rest, h s List.mem_cons_self, ?_⟩
    rw [List.flatMap_cons, List.append_assoc]

/-- Steps one after another are determined, if each single one is and none of them starts where the
tokens stop. -/
theorem flatMap_unique {n : Nat} (hstart : ∀ s u, IsStep s → ¬ Stop (toks s ++ u))
    (hstep : ∀ s s' u u', (toks s ++ u).length ≤ n → IsStep s → IsStep s' →
      StopsOrSteps toks IsStep Stop u → StopsOrSteps toks IsStep Stop u' →
      toks s ++ u = toks s' ++ u' → s = s') :
    ∀ {steps steps' : List σ} {rest rest' : List Token},
    (steps.flatMap toks ++ rest).length ≤ n → (∀ s ∈ steps, IsStep s) →
    (∀ s ∈ steps', IsStep s) → Stop rest → Stop rest' →
    steps.flatMap toks ++ rest = steps'.flatMap toks ++ rest' → steps = steps'
  | [], [], _, _, _, _, _, _, _, _ => rfl
  -- where one row of steps is at its end, the other one cannot go on
  | [], s' :: steps', rest, rest', _, _, hs', hr, _, he => by
    rw [List.flatMap_nil, List.nil_append, List.flatMap_cons, List.append_assoc] at he
    exact absurd (he ▸ hr) (hstart s' _ (hs' s' List.mem_cons_self))
  | s :: steps, [], rest, rest', _, hs, _, _, hr', he => by
    rw [List.flatMap_nil, List.nil_append, List.flatMap_cons, List.append_assoc] at he
    exact absurd (he ▸ hr') (hstart s _ (hs s List.mem_cons_self))
  | s :: steps, s' :: steps', rest, rest', hn, hs, hs', hr, hr', he => by
    obtain ⟨hs, hss⟩ := List.forall_mem_cons.mp hs
    obtain ⟨hs', hss'⟩ := List.forall_mem_cons.mp hs'
    rw [List.flatMap_cons, List.append_assoc] at hn he
    rw [List.flatMap_cons, List.append_assoc] at he
    obtain rfl := hstep s s' _ _ hn hs hs' (stopsOrSteps_flatMap hss hr)
      (stopsOrSteps_flatMap hss' hr') he
    rw [List.length_append] at hn
    rw [flatMap_unique hstart hstep (by omega) hss hss' hr hr' (List.append_cancel_left he)]

/-! ### Lists -/

/-- The tokens go on with a comma or with the mark `m`. -/
def Delimited (m : String) (u : List Token) : Prop :=
  ∃ more, u = .mark "," :: more ∨ u = .mark m :: more

/-- The items of a list up to a closing mark are determined, if each single one is and none of them
starts with that mark. -/
theorem separated_unique {n : Nat} {m : String} (hm : m ≠ ",")
    (hstart : ∀ s u more, IsStep s → toks s ++ u ≠ .mark m :: more)
    (hitem : ∀ s s' u u', (toks s ++ u).length ≤ n → IsStep s → IsStep s' →
      Delimited m u → Delimited m u' → toks s ++ u = toks s' ++ u' → s = s')
    {items items' : List σ} {rest rest' : List Token}
    (hn : (separated (items.map toks) ++ .mark m :: rest).length ≤ n)
    (hs : ∀ s ∈ items, IsStep s) (hs' : ∀ s ∈ items', IsStep s)
    (he : separated (items.map toks) ++ .mark m :: rest =
      separated (items'.map toks) ++ .mark m :: rest') : items = items' := by
  have hdelimited : ∀ {u}, StopsOrSteps (fun s => .mark "," :: toks s) IsStep
      (fun u => ∃ more, u = .mark m :: more) u → Delimited m u := by
    rintro u (⟨more, rfl⟩ | ⟨s, u', -, rfl⟩)
    · exact ⟨more, .inr rfl⟩
    · exact ⟨_, .inl rfl⟩
  cases items with
  | nil =>
    cases items' with
    | nil => rfl
    | cons s' items' =>
      simp only [List.map_nil, List.map_cons, separated, List.nil_append, List.append_assoc] at he
      exact absurd he.symm (hstart s' _ _ (hs' s' List.mem_cons_self))
  | cons s items =>
    cases items' with
    | nil =>
      simp only [List.map_nil, List.map_cons, separated, List.nil_append, List.append_assoc] at he
      exact absurd he (hstart s _ _ (hs s List.mem_cons_self))
    | cons s' items' =>
      obtain ⟨hs, hss⟩ := List.forall_mem_cons.mp hs
      obtain ⟨hs', hss'⟩ := List.forall_mem_cons.mp hs'
      simp only [List.map_cons, separated, List.flatMap_map, List.append_assoc] at hn he
      obtain rfl := hitem s s' _ _ hn hs hs'
        (hdelimited (stopsOrSteps_flatMap hss ⟨rest, rfl⟩))
        (hdelimited (stopsOrSteps_flatMap hss' ⟨rest', rfl⟩)) he
      rw [List.length_append] at hn
      congr 1
      refine @flatMap_unique _ (fun s => .mark "," :: toks s) IsStep
        (fun u => ∃ more, u = .mark m :: more) n ?_ ?_ _ _ _ _ (by omega) hss hss'
        ⟨rest, rfl⟩ ⟨rest', rfl⟩ (List.append_cancel_left he)
      · rintro s u - ⟨more, hu⟩
        exact hm (Token.mark.inj (List.cons.inj hu).1).symm
      · intro s s' u u' hl hs hs' hu hu' he
        rw [List.cons_append, List.length_cons] at hl
        exact hitem s s' u u' (by omega) hs hs' (hdelimited hu) (hdelimited hu') (List.cons.inj he).2

end Steps

/-- The phrases of a list up to a closing mark are determined. -/
theorem Unambiguous.parts_unique {c : Category} {n : Nat} {m : String} (h : Unambiguous c n)
    (hm : m ≠ "," ∧ isStart (.mark m) = false ∧ c.isExtendedBy "," = false ∧
      c.isExtendedBy m = false)
    {parts parts' : List (List Token × Node)} {rest rest' : List Token}
    (hn : (separated (parts.map Prod.fst) ++ .mark m :: rest).length ≤ n)
    (hp : ∀ p ∈ parts, Reads c p.1 p.2) (hp' : ∀ p ∈ parts', Reads c p.1 p.2)
    (he : separated (parts.map Prod.fst) ++ .mark m :: rest =
      separated (parts'.map Prod.fst) ++ .mark m :: rest') : parts = parts' := by
  have hends : ∀ {u}, Delimited m u → Ends c u := by
    rintro u ⟨more, rfl | rfl⟩ m' more' hu
    · obtain rfl := Token.mark.inj (List.cons.inj hu).1
      exact hm.2.2.1
    · obtain rfl := Token.mark.inj (List.cons.inj hu).1
      exact hm.2.2.2
  refine separated_unique hm.1 ?_ ?_ hn hp hp' he
  · intro p u more hr hu
    obtain ⟨t, ts, hts, ht⟩ := hr.exists_cons
    rw [hts] at hu
    rw [(List.cons.inj hu).1, hm.2.1] at ht
    cases ht
  · intro p p' u u' hl hr hr' hu hu' he
    exact Prod.ext_iff.mpr (h hl hr hr' he (hends hu) (hends hu'))

/-! ## The categories one by one -/

/-- The tree of a token that is a primary expression. -/
def atomNode : Token → Node
  | .word w =>
    if w = "null" then .null
    else if w = "true" then .bool true
    else if w = "false" then .bool false
    else .name w
  | .text s => .text s
  | .number n => .number (.int n)
  | .mark _ => .empty

theorem Atom.eq_atomNode {t : Token} {e : Node} (h : Atom t e) : e = atomNode t := by
  cases h with
  | @reference w h =>
    have hne : ∀ {v}, v ∈ reservedWords → w ≠ v := fun hv he => h (he ▸ hv)
    rw [atomNode, if_neg (hne (by decide)), if_neg (hne (by decide)), if_neg (hne (by decide))]
  | null => rfl
  | bool b => cases b <;> rfl
  | text s => rfl
  | number n => rfl

theorem Atom.ne_mark {t : Token} {e : Node} (h : Atom t e) (m : String) : t ≠ .mark m := by
  cases h <;> exact Token.noConfusion

theorem unambiguous_property {n : Nat} (h : Unambiguous .assignment n) :
    Unambiguous .property n := by
  intro ts ts' rest rest' e e' hl hr hr' he hrest hrest'
  have hassign : ∀ {us us' : List Token} {a a' : Node}, us.length + 2 ≤ ts.length →
      Reads .assignment us a → Reads .assignment us' a' → us ++ rest = us' ++ rest' →
      us = us' ∧ a = a' := by
    intro us us' a a' hu hr hr' he
    rw [List.length_append] at hl
    exact h (by rw [List.length_append]; omega) hr hr' he hrest hrest'
  cases hr with
  | named k hr =>
    cases hr' with
    | named k' hr' =>
      simp only [List.cons_append, List.cons.injEq, Token.word.injEq, true_and] at he
      obtain ⟨rfl, he⟩ := he
      obtain ⟨rfl, rfl⟩ := hassign (by simp) hr hr' he
      exact ⟨rfl, rfl⟩
    | quoted s' hr' => simp at he
  | quoted s hr =>
    cases hr' with
    | named k' hr' => simp at he
    | quoted s' hr' =>
      simp only [List.cons_append, List.cons.injEq, Token.text.injEq, true_and] at he
      obtain ⟨rfl, he⟩ := he
      obtain ⟨rfl, rfl⟩ := hassign (by simp) hr hr' he
      exact ⟨rfl, rfl⟩

theorem unambiguous_primary {n : Nat} (h : ∀ m < n, Unambiguous .assignment m) :
    Unambiguous .primary n := by
  intro ts ts' rest rest' e e' hl hr hr' he _ _
  -- the first token tells the productions apart
  cases hr with
  | atom ha =>
    cases hr' with
    | atom ha' =>
      obtain ⟨rfl, -⟩ := List.cons.inj he
      exact ⟨rfl, ha.eq_atomNode.trans ha'.eq_atomNode.symm⟩
    | _ => exact absurd (List.cons.inj he).1 (ha.ne_mark _)
  | array hp =>
    cases hr' with
    | array hp' =>
      simp only [List.cons_append, List.append_assoc, List.nil_append, List.length_cons] at hl he
      obtain rfl := (h _ hl).parts_unique (by decide) (Nat.le_refl _) hp hp' (List.cons.inj he).2
      exact ⟨rfl, rfl⟩
    | atom ha' => exact absurd (List.cons.inj he).1.symm (ha'.ne_mark _)
    | _ => simp at he
  | object hp =>
    cases hr' with
    | object hp' =>
      simp only [List.cons_append, List.append_assoc, List.nil_append, List.length_cons] at hl he
      obtain rfl := (unambiguous_property (h _ hl)).parts_unique (by decide) (Nat.le_refl _) hp hp'
        (List.cons.inj he).2
      exact ⟨rfl, rfl⟩
    | atom ha' => exact absurd (List.cons.inj he).1.symm (ha'.ne_mark _)
    | _ => simp at he
  | grouped hg =>
    cases hr' with
    | grouped hg' =>
      simp only [List.cons_append, List.append_assoc, List.nil_append, List.length_cons] at hl he
      have hends : ∀ rest, Ends .assignment (.mark ")" :: rest) := by
        rintro rest m more hm
        obtain rfl := Token.mark.inj (List.cons.inj hm).1
        decide
      obtain ⟨rfl, rfl⟩ := h _ hl (Nat.le_refl _) hg hg' (List.cons.inj he).2 (hends _) (hends _)
      exact ⟨rfl, rfl⟩
    | atom ha' => exact absurd (List.cons.inj he).1.symm (ha'.ne_mark _)
    | _ => simp at he

/-- A category whose phrases are phrases of another one with steps behind them. -/
theorem unambiguous_of_steps {c c₀ : Category} {n : Nat} {σ : Type} {toks : σ → List Token}
    {apply : Node → σ → Node} {IsStep : σ → Prop} (h₀ : Unambiguous c₀ n)
    (hsteps : ∀ {ts e}, Reads c ts e → ∃ (ts₀ : List Token) (e₀ : Node) (steps : List σ),
      Reads c₀ ts₀ e₀ ∧ (∀ s ∈ steps, IsStep s) ∧ ts = ts₀ ++ steps.flatMap toks ∧
        e = steps.foldl apply e₀)
    (hends : ∀ {u}, StopsOrSteps toks IsStep (Ends c) u → Ends c₀ u)
    (hstart : ∀ s u, IsStep s → ¬ Ends c (toks s ++ u))
    (hstep : ∀ s s' u u', (toks s ++ u).length ≤ n → IsStep s → IsStep s' →
      StopsOrSteps toks IsStep (Ends c) u → StopsOrSteps toks IsStep (Ends c) u' →
      toks s ++ u = toks s' ++ u' → s = s') : Unambiguous c n := by
  intro ts ts' rest rest' e e' hl hr hr' he hrest hrest'
  obtain ⟨ts₀, e₀, steps, hr₀, hs, rfl, rfl⟩ := hsteps hr
  obtain ⟨ts₀', e₀', steps', hr₀', hs', rfl, rfl⟩ := hsteps hr'
  simp only [List.append_assoc] at hl he
  obtain ⟨rfl, rfl⟩ := h₀ hl hr₀ hr₀' he (hends (stopsOrSteps_flatMap hs hrest))
    (hends (stopsOrSteps_flatMap hs' hrest'))
  rw [List.length_append] at hl
  obtain rfl := flatMap_unique hstart hstep (by omega) hs hs' hrest hrest'
    (List.append_cancel_left he)
  exact ⟨rfl, rfl⟩

/-! ### Members and calls -/

/-- A member access or a call without what it stands behind. -/
inductive Suffix where
  | member (p : String)
  | call (parts : List (List Token × Node))

namespace Suffix

def tokens : Suffix → List Token
  | .member p => [.mark ".", .word p]
  | .call parts => .mark "(" :: (separated (parts.map Prod.fst) ++ [.mark ")"])

def apply (e : Node) : Suffix → Node
  | .member p => .member e (.name p)
  | .call parts => .call e (parts.map Prod.snd)

def IsStep : Suffix → Prop
  | .member _ => True
  | .call parts => ∀ p ∈ parts, Reads .assignment p.1 p.2

end Suffix

theorem Reads.exists_suffixes {ts : List Token} {e : Node} (h : Reads .leftHand ts e) :
    ∃ (ts₀ : List Token) (e₀ : Node) (steps : List Suffix), Reads .primary ts₀ e₀ ∧
      (∀ s ∈ steps, Suffix.IsStep s) ∧ ts = ts₀ ++ steps.flatMap Suffix.tokens ∧
      e = steps.foldl Suffix.apply e₀ := by
  generalize hc : Category.leftHand = c at h
  induction h with
  | ofPrimary h => exact ⟨_, _, [], h, by simp, by simp, rfl⟩
  | member _ p ih =>
    obtain ⟨ts₀, e₀, steps, h₀, hs, rfl, rfl⟩ := ih hc
    refine ⟨ts₀, e₀, steps ++ [.member p], h₀, ?_, by simp [Suffix.tokens], by simp [Suffix.apply]⟩
    exact List.forall_mem_append.mpr ⟨hs, List.forall_mem_singleton.mpr trivial⟩
  | @call _ _ parts _ ha ih _ =>
    obtain ⟨ts₀, e₀, steps, h₀, hs, rfl, rfl⟩ := ih hc
    refine ⟨ts₀, e₀, steps ++ [.call parts], h₀, ?_, by simp [Suffix.tokens], by simp [Suffix.apply]⟩
    exact List.forall_mem_append.mpr ⟨hs, List.forall_mem_singleton.mpr ha⟩
  | _ => cases hc

theorem Suffix.not_ends (s : Suffix) (u : List Token) : ¬ Ends .leftHand (s.tokens ++ u) := by
  cases s with
  | member p => exact fun h => Bool.noConfusion (h "." _ rfl)
  | call parts => exact fun h => Bool.noConfusion (h "(" _ rfl)

theorem unambiguous_leftHand {n : Nat} (h₀ : Unambiguous .primary n)
    (h : ∀ m < n, Unambiguous .assignment m) : Unambiguous .leftHand n := by
  refine unambiguous_of_steps h₀ Reads.exists_suffixes (fun _ _ _ _ => rfl)
    (fun s u _ => s.not_ends u) ?_
  intro s s' u u' hl hs hs' _ _ he
  cases s with
  | member p =>
    cases s' with
    | member p' =>
      simp only [Suffix.tokens, List.cons_append, List.cons.injEq, Token.word.injEq,
        true_and] at he
      rw [he.1]
    | call parts' => simp [Suffix.tokens] at he
  | call parts =>
    cases s' with
    | member p' => simp [Suffix.tokens] at he
    | call parts' =>
      simp only [Suffix.tokens, List.cons_append, List.append_assoc, List.nil_append,
        List.length_cons] at hl he
      rw [(h _ hl).parts_unique (by decide) (Nat.le_refl _) hs hs' (List.cons.inj he).2]

/-! ### Binary operations -/

/-- An operator and its right operand. -/
structure Operation where
  operator : String
  phrase : List Token
  operand : Node

namespace Operation

def tokens (s : Operation) : List Token :=
  .mark s.operator :: s.phrase

def apply (e : Node) (s : Operation) : Node :=
  .binary s.operator e s.operand

def IsStep (k : Nat) (s : Operation) : Prop :=
  operatorLevel? s.operator = some k ∧ Reads (.binary (k + 1)) s.phrase s.operand

end Operation

theorem Reads.exists_operations {k : Nat} {ts : List Token} {e : Node} (hk : k ≤ 10)
    (h : Reads (.binary k) ts e) :
    ∃ (ts₀ : List Token) (e₀ : Node) (steps : List Operation), Reads (.binary (k + 1)) ts₀ e₀ ∧
      (∀ s ∈ steps, Operation.IsStep k s) ∧ ts = ts₀ ++ steps.flatMap Operation.tokens ∧
      e = steps.foldl Operation.apply e₀ := by
  generalize hc : Category.binary k = c at h
  induction h with
  | ofLeftHand =>
    cases hc
    omega
  | ofTighter _ h =>
    cases hc
    exact ⟨_, _, [], h, by simp, by simp, rfl⟩
  | @operation _ operator _ rs _ r ho _ hr ih _ =>
    cases hc
    obtain ⟨ts₀, e₀, steps, h₀, hs, rfl, rfl⟩ := ih rfl
    refine ⟨ts₀, e₀, steps ++ [⟨operator, rs, r⟩], h₀, ?_, by simp [Operation.tokens],
      by simp [Operation.apply]⟩
    exact List.forall_mem_append.mpr ⟨hs, List.forall_mem_singleton.mpr ⟨ho, hr⟩⟩
  | _ => cases hc

/-- What does not extend a phrase does not extend a tighter one. -/
theorem Ends.tighter {k : Nat} {u : List Token} (h : Ends (.binary k) u) :
    Ends (.binary (k + 1)) u := by
  intro m more hu
  have hm := h m more hu
  simp only [Category.isExtendedBy, Bool.or_eq_false_iff] at hm ⊢
  refine ⟨hm.1, ?_⟩
  cases hl : operatorLevel? m with
  | none => rfl
  | some l =>
    have hkl := hm.2
    simp only [hl, Option.any_some, decide_eq_false_iff_not] at hkl ⊢
    omega

theorem ne_of_operatorLevel? {o m : String} {k : Nat} (h : operatorLevel? o = some k)
    (hm : operatorLevel? m = none) : o ≠ m := by
  rintro rfl
  cases hm.symm.trans h

theorem Operation.ends_tighter {k : Nat} {s : Operation} (h : s.IsStep k) (u : List Token) :
    Ends (.binary (k + 1)) (s.tokens ++ u) := by
  intro m more hu
  obtain rfl := Token.mark.inj (List.cons.inj hu).1
  have hp : s.operator ≠ "." := ne_of_operatorLevel? h.1 (by decide)
  have ho : s.operator ≠ "(" := ne_of_operatorLevel? h.1 (by decide)
  simp [Category.isExtendedBy, h.1, hp, ho]

theorem unambiguous_binary {k n : Nat} (hk : k ≤ 10) (h₀ : Unambiguous (.binary (k + 1)) n) :
    Unambiguous (.binary k) n := by
  have hends : ∀ {u}, StopsOrSteps Operation.tokens (Operation.IsStep k) (Ends (.binary k)) u →
      Ends (.binary (k + 1)) u := by
    rintro u (hu | ⟨s, u', hs, rfl⟩)
    · exact hu.tighter
    · exact Operation.ends_tighter hs u'
  refine unambiguous_of_steps h₀ (Reads.exists_operations hk) hends ?_ ?_
  · intro s u hs hu
    have := hu s.operator _ rfl
    simp [Category.isExtendedBy, hs.1] at this
  · rintro ⟨o, rs, r⟩ ⟨o', rs', r'⟩ u u' hl hs hs' hu hu' he
    simp only [Operation.tokens, List.cons_append, List.cons.injEq, Token.mark.injEq,
      List.length_cons] at hl he
    obtain ⟨rfl, he⟩ := he
    obtain ⟨rfl, rfl⟩ := h₀ (Nat.le_of_succ_le hl) hs.2 hs'.2 he (hends hu) (hends hu')
    rfl

/-! ### Arrow functions

The parameters of an arrow function look like the start of another expression.  The arrow tells them
apart: behind a primary expression there is none. -/

/-- Whether a mark joins a primary expression to what follows it. -/
def isLink (m : String) : Bool :=
  m == "." || m == "(" || (operatorLevel? m).isSome

/-- The tokens are none, or start with a mark that joins them to a primary expression. -/
def Linked (more : List Token) : Prop :=
  ∀ t more', more = t :: more' → ∃ m, t = .mark m ∧ isLink m = true

theorem linked_append {more us : List Token} {m : String} (h : Linked more)
    (hm : isLink m = true) : Linked (more ++ .mark m :: us) := by
  intro t more' he
  cases more with
  | nil => exact ⟨m, (List.cons.inj he).1.symm, hm⟩
  | cons t' more =>
    obtain ⟨m', hm'⟩ := h t' more rfl
    exact ⟨m', (List.cons.inj he).1 ▸ hm'⟩

theorem Reads.exists_primary {c : Category} {ts : List Token} {e : Node} (h : Reads c ts e)
    (hc : c ≠ .assignment ∧ c ≠ .property) :
    ∃ ts₀ e₀ more, Reads .primary ts₀ e₀ ∧ ts = ts₀ ++ more ∧ Linked more := by
  have hnil : Linked [] := by simp [Linked]
  induction h with
  | atom h => exact ⟨_, _, [], .atom h, rfl, hnil⟩
  | array h => exact ⟨_, _, [], .array h, by simp, hnil⟩
  | object h => exact ⟨_, _, [], .object h, by simp, hnil⟩
  | grouped h => exact ⟨_, _, [], .grouped h, by simp, hnil⟩
  | named | quoted => exact absurd rfl hc.2
  | ofPrimary _ ih | ofLeftHand _ ih | ofTighter _ _ ih => exact ih (by simp)
  | member _ _ ih | call _ _ ih _ =>
    obtain ⟨ts₀, e₀, more, h₀, rfl, hm⟩ := ih (by simp)
    exact ⟨ts₀, e₀, _, h₀, List.append_assoc .., linked_append hm (by decide)⟩
  | operation ho _ _ ih _ =>
    obtain ⟨ts₀, e₀, more, h₀, rfl, hm⟩ := ih (by simp)
    exact ⟨ts₀, e₀, _, h₀, List.append_assoc .., linked_append hm (by simp [isLink, ho])⟩
  | ofBinary | arrow | arrowBlock => exact absurd rfl hc.1

/-- A primary expression that starts with a word is that word. -/
theorem Reads.eq_word {ts us rest : List Token} {w : String} {e : Node} (h : Reads .primary ts e)
    (he : ts ++ us = .word w :: rest) : ts = [.word w] ∧ us = rest := by
  cases h with
  | atom => simpa using he
  | _ => simp at he

/-- Behind the first word of an expression there is a mark that joins it to what follows, or an
arrow. -/
theorem Reads.exists_link {ts more : List Token} {w : String} {t : Token} {e : Node}
    (h : Reads .assignment ts e) (hts : ts = .word w :: t :: more) :
    ∃ m, t = .mark m ∧ (isLink m || m == "=>") = true := by
  cases h with
  | ofBinary h =>
    obtain ⟨ts₀, e₀, us, h₀, rfl, hu⟩ := h.exists_primary (by simp)
    obtain ⟨m, rfl, hm⟩ := hu t more (h₀.eq_word hts).2
    exact ⟨m, rfl, by rw [hm, Bool.true_or]⟩
  | arrow hh =>
    cases hh with
    | one => exact ⟨"=>", (List.cons.inj (List.cons.inj hts).2).1.symm, by decide⟩
    | several => simp at hts
  | arrowBlock hh =>
    cases hh with
    | one => exact ⟨"=>", (List.cons.inj (List.cons.inj hts).2).1.symm, by decide⟩
    | several => simp at hts

/-- An expression in parentheses that looks like parameters ends with them. -/
theorem Reads.eq_of_parameters {ts us us' : List Token} {e : Node} {params : List String}
    (h : Reads .assignment ts e)
    (he : ts ++ .mark ")" :: us =
      separated (params.map fun w => [.word w]) ++ .mark ")" :: us') : us = us' := by
  obtain ⟨t, more, rfl, ht⟩ := h.exists_cons
  cases params with
  | nil =>
    simp only [List.map_nil, separated, List.nil_append, List.cons_append] at he
    rw [(List.cons.inj he).1] at ht
    cases ht
  | cons w params =>
    simp only [List.map_cons, separated, List.cons_append, List.nil_append] at he
    obtain ⟨rfl, htail⟩ := List.cons.inj he
    cases more with
    | nil =>
      cases params with
      | nil => simpa using htail
      | cons w' params => simp at htail
    | cons t more =>
      -- behind the first word stands a comma or the closing parenthesis, and neither is a link
      obtain ⟨m, rfl, hm⟩ := h.exists_link rfl
      cases params with
      | nil =>
        obtain rfl := Token.mark.inj (List.cons.inj htail).1
        exact absurd hm (by decide)
      | cons w' params =>
        obtain rfl := Token.mark.inj (List.cons.inj htail).1
        exact absurd hm (by decide)

/-- No arrow follows what could be its parameters in another expression. -/
theorem Reads.ne_arrow {ts rest head more : List Token} {e : Node} {params : List String}
    (h : Reads (.binary 1) ts e) (hh : ArrowHead head params)
    (hrest : ∀ more, rest ≠ .mark "=>" :: more) :
    ts ++ rest ≠ head ++ .mark "=>" :: more := by
  intro he
  obtain ⟨ts₀, e₀, us, h₀, rfl, hu⟩ := h.exists_primary (by simp)
  have hnext : ∀ more, us ++ rest ≠ .mark "=>" :: more := by
    intro more hm
    cases us with
    | nil => exact hrest more hm
    | cons t us =>
      obtain ⟨m, rfl, hl⟩ := hu t us rfl
      obtain rfl := Token.mark.inj (List.cons.inj hm).1
      exact absurd hl (by decide)
  rw [List.append_assoc] at he
  cases hh with
  | one => exact hnext _ (h₀.eq_word he).2
  | several =>
    cases h₀ with
    | atom ha => exact ha.ne_mark _ (List.cons.inj he).1
    | grouped hg =>
      simp only [List.cons_append, List.append_assoc, List.nil_append] at he
      exact hnext _ (hg.eq_of_parameters (List.cons.inj he).2)
    | _ => simp at he

theorem ArrowHead.unique {head head' more more' : List Token} {params params' : List String}
    (h : ArrowHead head params) (h' : ArrowHead head' params')
    (he : head ++ .mark "=>" :: more = head' ++ .mark "=>" :: more') :
    head = head' ∧ params = params' := by
  cases h with
  | one =>
    cases h' with
    | one =>
      obtain ⟨rfl, -⟩ := Token.word.inj (List.cons.inj he).1
      exact ⟨rfl, rfl⟩
    | several => simp at he
  | several =>
    cases h' with
    | one => simp at he
    | several =>
      simp only [List.cons_append, List.append_assoc, List.nil_append] at he
      have hparams := @separated_unique _ (fun w => [.word w]) (fun _ => True) _ ")" (by decide)
        (by simp) (by simp +contextual) _ _ _ _ (Nat.le_refl _) (by simp) (by simp)
        (List.cons.inj he).2
      exact ⟨by rw [hparams], hparams⟩

theorem Ends.ne_arrow {rest : List Token} (h : Ends .assignment rest) (more : List Token) :
    rest ≠ .mark "=>" :: more := by
  intro he
  exact absurd (h _ _ he) (by decide)

theorem Ends.loosest {rest : List Token} (h : Ends .assignment rest) : Ends (.binary 1) rest := by
  intro m more hm
  have := h m more hm
  simp only [Category.isExtendedBy, Bool.or_eq_false_iff] at this ⊢
  refine ⟨this.1.1, ?_⟩
  rw [Option.isSome_eq_false_iff, Option.isNone_iff_eq_none] at this
  rw [this.1.2]
  rfl

theorem unambiguous_assignment {n : Nat} (h₁ : Unambiguous (.binary 1) n)
    (h : ∀ m < n, Unambiguous .assignment m) : Unambiguous .assignment n := by
  intro ts ts' rest rest' e e' hl hr hr' he hrest hrest'
  cases hr with
  | ofBinary hr =>
    cases hr' with
    | ofBinary hr' => exact h₁ hl hr hr' he hrest.loosest hrest'.loosest
    | arrow hh =>
      rw [List.append_assoc, List.cons_append] at he
      exact absurd he (hr.ne_arrow hh hrest.ne_arrow)
    | arrowBlock hh =>
      rw [List.append_assoc, List.cons_append] at he
      exact absurd he (hr.ne_arrow hh hrest.ne_arrow)
  | @arrow head us _ _ hh hb hr =>
    rw [List.append_assoc, List.cons_append] at hl he
    cases hr' with
    | ofBinary hr' => exact absurd he.symm (hr'.ne_arrow hh hrest'.ne_arrow)
    | arrow hh' _ hr' =>
      rw [List.append_assoc, List.cons_append] at he
      obtain ⟨rfl, rfl⟩ := hh.unique hh' he
      have hlt : (us ++ rest).length < n := by
        rw [List.length_append, List.length_cons] at hl
        omega
      have htail := (List.cons.inj (List.append_cancel_left he)).2
      obtain ⟨rfl, rfl⟩ := h _ hlt (Nat.le_refl _) hr hr' htail hrest hrest'
      exact ⟨rfl, rfl⟩
    | arrowBlock hh' =>
      rw [List.append_assoc, List.cons_append] at he
      obtain ⟨rfl, rfl⟩ := hh.unique hh' he
      -- the body is no block, as it does not start with a brace
      obtain ⟨t, more, rfl, -⟩ := hr.exists_cons
      have htail := (List.cons.inj (List.append_cancel_left he)).2
      exact absurd (congrArg some (List.cons.inj htail).1) hb
  | arrowBlock hh =>
    rw [List.append_assoc, List.cons_append] at hl he
    cases hr' with
    | ofBinary hr' => exact absurd he.symm (hr'.ne_arrow hh hrest'.ne_arrow)
    | arrow hh' hb hr' =>
      rw [List.append_assoc, List.cons_append] at he
      obtain ⟨rfl, rfl⟩ := hh.unique hh' he
      obtain ⟨t, more, rfl, -⟩ := hr'.exists_cons
      have htail := (List.cons.inj (List.append_cancel_left he)).2
      exact absurd (congrArg some (List.cons.inj htail).1.symm) hb
    | arrowBlock hh' =>
      rw [List.append_assoc, List.cons_append] at he
      obtain ⟨rfl, rfl⟩ := hh.unique hh' he
      exact ⟨rfl, rfl⟩

/-! ## All categories together -/

theorem operatorLevel?_le {operator : String} {k : Nat} (h : operatorLevel? operator = some k) :
    1 ≤ k ∧ k ≤ 10 := by
  obtain ⟨i, hi, rfl⟩ := Option.map_eq_some_iff.mp h
  obtain ⟨hlt, -⟩ := List.findIdx?_eq_some_iff_getElem.mp hi
  exact ⟨Nat.le_add_left 1 i, hlt⟩

/-- The tightest operands are members and calls. -/
theorem unambiguous_tightest {n : Nat} (h : Unambiguous .leftHand n) :
    Unambiguous (.binary 11) n := by
  have hleft : ∀ {ts e}, Reads (.binary 11) ts e → Reads .leftHand ts e := by
    intro ts e hr
    cases hr with
    | ofLeftHand hr => exact hr
    | ofTighter hk => exact absurd hk (by decide)
    | operation ho => exact absurd (operatorLevel?_le ho).2 (by decide)
  have hends : ∀ {rest}, Ends (.binary 11) rest → Ends .leftHand rest := by
    intro rest hrest m more hm
    have hb := hrest m more hm
    simp only [Category.isExtendedBy, Bool.or_eq_false_iff] at hb ⊢
    exact hb.1
  intro ts ts' rest rest' e e' hl hr hr' he hrest hrest'
  exact h hl (hleft hr) (hleft hr') he (hends hrest) (hends hrest')

theorem unambiguous (n : Nat) : Unambiguous .assignment n := by
  induction n using Nat.strongRecOn with
  | ind n ih =>
    have htight := unambiguous_tightest (unambiguous_leftHand (unambiguous_primary ih) ih)
    -- the levels of binary operations, from the tightest to the loosest
    have hlevel : ∀ j ≤ 10, Unambiguous (.binary (11 - j)) n := by
      intro j hj
      induction j with
      | zero => exact htight
      | succ j ihj =>
        have hk : 11 - (j + 1) + 1 = 11 - j := by omega
        exact unambiguous_binary (by omega) (hk ▸ ihj (by omega))
    exact unambiguous_assignment (hlevel 10 (by decide)) ih

/-- **The grammar is unambiguous.** The tokens of an expression have one tree. -/
theorem Reads.unique {ts : List Token} {e e' : Node} (h : Reads .assignment ts e)
    (h' : Reads .assignment ts e') : e = e' :=
  (unambiguous (ts ++ []).length (Nat.le_refl _) h h' rfl (by simp [Ends]) (by simp [Ends])).2

end Componentry.Script
