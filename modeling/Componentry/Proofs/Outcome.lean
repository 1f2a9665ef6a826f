import Mathlib.Data.List.Forall2

/-!
# Results of computations that can fail

`Gives x P` says that the computation `x` has a result and that `P` holds of it.  Computations one
after another give what the second gives on what the first gives (`gives_bind_iff`), and several
computations in turn give a list if each of them gives an item of it (`gives_mapM`).

`Ensures x P` says less: `P` holds of the result, if there is one.  `FailsOnly x E` says the same of
the error.

`Together R x y` compares two computations: both have results, which `R` relates, or both have the same
error.

A computation with a state may fail as well.  Then what it has done to the state stays; if it does not
fail, the next one goes on from there (`run_bind_ok`).
-/

namespace Componentry

variable {ε α β : Type}

/-- The computation has a result, and `P` holds of it. -/
def Gives (x : Except ε α) (P : α → Prop) : Prop :=
  ∃ a, x = .ok a ∧ P a

/-- The computation has a result. -/
abbrev Succeeds (x : Except ε α) : Prop :=
  Gives x fun _ => True

variable {x : Except ε α} {P Q : α → Prop} {f : α → Except ε β} {R : β → Prop}

theorem gives_ok {a : α} (h : P a) : Gives (.ok a : Except ε α) P :=
  ⟨a, rfl, h⟩

theorem succeeds_ok (a : α) : Succeeds (.ok a : Except ε α) :=
  gives_ok trivial

theorem Gives.imp (h : Gives x P) (hpq : ∀ a, P a → Q a) : Gives x Q := by
  obtain ⟨a, hx, ha⟩ := h
  exact ⟨a, hx, hpq a ha⟩

theorem Gives.succeeds (h : Gives x P) : Succeeds x :=
  h.imp fun _ _ => trivial

theorem succeeds_iff : Succeeds x ↔ ∃ a, x = .ok a :=
  ⟨fun ⟨a, h, _⟩ => ⟨a, h⟩, fun ⟨a, h⟩ => ⟨a, h, trivial⟩⟩

theorem not_succeeds_error (e : ε) : ¬ Succeeds (.error e : Except ε α) := by
  rintro ⟨a, h, -⟩
  cases h

/-- One computation after another. -/
theorem gives_bind_iff : Gives (x >>= f) R ↔ Gives x fun a => Gives (f a) R := by
  cases x with
  | error e =>
    constructor
    · rintro ⟨b, h, -⟩
      cases h
    · rintro ⟨a, h, -⟩
      cases h
  | ok a =>
    constructor
    · intro h
      exact ⟨a, rfl, h⟩
    · rintro ⟨a', h, hf⟩
      cases h
      exact hf

theorem Gives.bind (h : Gives x P) (hf : ∀ a, P a → Gives (f a) R) : Gives (x >>= f) R :=
  gives_bind_iff.mpr (h.imp hf)

theorem Succeeds.bind (h : Succeeds x) (hf : ∀ a, Succeeds (f a)) : Succeeds (x >>= f) :=
  Gives.bind h fun a _ => hf a

theorem Gives.bind_of_eq {a : α} (h : x = .ok a) (hf : Gives (f a) R) : Gives (x >>= f) R :=
  gives_bind_iff.mpr ⟨a, h, hf⟩

/-- A computation that is followed by another one. -/
theorem Gives.first (h : Gives (x >>= f) R) : Succeeds x :=
  (gives_bind_iff.mp h).succeeds

/-- One computation after another has a result just when both have one. -/
theorem bind_eq_ok_iff {b : β} : x >>= f = .ok b ↔ ∃ a, x = .ok a ∧ f a = .ok b := by
  cases x with
  | error e => simp [bind, Except.bind]
  | ok a => simp [bind, Except.bind]

theorem gives_pure {a : α} (h : P a) : Gives (pure a : Except ε α) P :=
  ⟨a, rfl, h⟩

theorem succeeds_pure (a : α) : Succeeds (pure a : Except ε α) :=
  gives_pure trivial

theorem succeeds_bind_pure_iff {f : α → β} : Succeeds (x >>= fun a => pure (f a)) ↔ Succeeds x :=
  ⟨Gives.first, fun h => h.bind fun _ => succeeds_pure _⟩

/-! ## Several computations in turn -/

theorem mapM_cons_ok {a : α} {b : β} {as : List α} {bs : List β} (h : f a = .ok b)
    (hs : as.mapM f = .ok bs) : (a :: as).mapM f = .ok (b :: bs) := by
  rw [List.mapM_cons, h, hs]
  rfl

theorem gives_mapM : ∀ {as : List α}, (∀ a ∈ as, Gives (f a) R) →
    Gives (as.mapM f) fun bs => ∀ b ∈ bs, R b
  | [], _ => ⟨[], rfl, by simp⟩
  | a :: as, h => by
    obtain ⟨⟨b, hb, hr⟩, has⟩ := List.forall_mem_cons.mp h
    obtain ⟨bs, hbs, hrs⟩ := gives_mapM has
    exact ⟨b :: bs, mapM_cons_ok hb hbs, List.forall_mem_cons.mpr ⟨hr, hrs⟩⟩

/-- Computations in turn, each with its own result. -/
theorem gives_mapM_each {S : α → β → Prop} : ∀ {as : List α}, (∀ a ∈ as, Gives (f a) (S a)) →
    Gives (as.mapM f) (List.Forall₂ S as)
  | [], _ => ⟨[], rfl, .nil⟩
  | a :: as, h => by
    obtain ⟨⟨b, hb, hs⟩, has⟩ := List.forall_mem_cons.mp h
    obtain ⟨bs, hbs, hss⟩ := gives_mapM_each has
    exact ⟨b :: bs, mapM_cons_ok hb hbs, .cons hs hss⟩

/-- Computations in turn succeed just when all of them do. -/
theorem succeeds_mapM_iff {as : List α} : Succeeds (as.mapM f) ↔ ∀ a ∈ as, Succeeds (f a) := by
  constructor
  · induction as with
    | nil => simp
    | cons a as ih =>
      intro h
      rw [List.mapM_cons] at h
      obtain ⟨b, hb, h⟩ := gives_bind_iff.mp h
      obtain ⟨bs, hbs, -⟩ := gives_bind_iff.mp h
      exact List.forall_mem_cons.mpr ⟨⟨b, hb, trivial⟩, ih ⟨bs, hbs, trivial⟩⟩
  · exact fun h => (gives_mapM h).succeeds

/-! ## Errors -/

/-- The error of a computation that has no result. -/
def error? : Except ε α → Option ε
  | .ok _ => none
  | .error e => some e

theorem eq_error_of_error? {e : ε} (h : error? x = some e) : x = .error e := by
  cases x with
  | ok a => cases h
  | error e' =>
    cases h
    rfl

theorem toOption_eq_some_iff {a : α} : x.toOption = some a ↔ x = .ok a := by
  cases x with
  | error e => simp [Except.toOption]
  | ok b => simp [Except.toOption]

/-! ## Results, if there are any -/

/-- `P` holds of the result of the computation, if it has one. -/
def Ensures (x : Except ε α) (P : α → Prop) : Prop :=
  ∀ a, x = .ok a → P a

theorem ensures_any (x : Except ε α) : Ensures x fun _ => True :=
  fun _ _ => trivial

theorem ensures_ok {a : α} (h : P a) : Ensures (.ok a : Except ε α) P := by
  rintro _ ⟨⟩
  exact h

theorem ensures_error (e : ε) : Ensures (.error e : Except ε α) P := by
  rintro _ ⟨⟩

theorem ensures_pure {a : α} (h : P a) : Ensures (pure a : Except ε α) P :=
  ensures_ok h

theorem Ensures.imp (h : Ensures x P) (hpq : ∀ a, P a → Q a) : Ensures x Q :=
  fun a ha => hpq a (h a ha)

theorem Ensures.bind (h : Ensures x P) (hf : ∀ a, P a → Ensures (f a) R) : Ensures (x >>= f) R := by
  cases x with
  | error e => exact ensures_error e
  | ok a => exact hf a (h a rfl)

/-- Computations in turn, one result for each. -/
theorem ensures_mapM : ∀ {as : List α}, (∀ a ∈ as, Ensures (f a) R) →
    Ensures (as.mapM f) fun bs => bs.length = as.length ∧ ∀ b ∈ bs, R b
  | [], _ => ensures_pure ⟨rfl, List.forall_mem_nil _⟩
  | a :: as, h => by
    obtain ⟨ha, has⟩ := List.forall_mem_cons.mp h
    rw [List.mapM_cons]
    refine ha.bind fun b hb => (ensures_mapM has).bind fun bs hbs => ensures_pure ?_
    exact ⟨congrArg (· + 1) hbs.1, List.forall_mem_cons.mpr ⟨hb, hbs.2⟩⟩

/-- Computations in turn, each with its own result. -/
theorem ensures_mapM_each (f : α → Except ε β) : ∀ as : List α,
    Ensures (as.mapM f) (List.Forall₂ (fun a b => f a = .ok b) as)
  | [] => ensures_pure .nil
  | a :: as => by
    rw [List.mapM_cons]
    refine Ensures.bind (fun b hb => hb) fun b hb => ?_
    exact (ensures_mapM_each f as).bind fun bs hbs => ensures_pure (.cons hb hbs)

/-- Computations in turn have results just when each of them has its own. -/
theorem mapM_eq_ok_iff {as : List α} {bs : List β} :
    as.mapM f = .ok bs ↔ List.Forall₂ (fun a b => f a = .ok b) as bs := by
  refine ⟨ensures_mapM_each f as bs, fun h => ?_⟩
  induction h with
  | nil => rfl
  | cons ha has ih => exact mapM_cons_ok ha ih

theorem exists_mem_left {R : α → β → Prop} {as : List α} {bs : List β} (h : List.Forall₂ R as bs)
    {b : β} (hb : b ∈ bs) : ∃ a ∈ as, R a b := by
  induction h with
  | nil => cases hb
  | @cons a b' as bs hab _ ih =>
    rcases List.mem_cons.mp hb with rfl | hb
    · exact ⟨a, List.mem_cons_self, hab⟩
    · obtain ⟨a', ha', hab'⟩ := ih hb
      exact ⟨a', List.mem_cons_of_mem _ ha', hab'⟩

theorem forall_mem_iff {R : α → β → Prop} {as : List α} {bs : List β} {p : α → Prop} {q : β → Prop}
    (h : List.Forall₂ R as bs) (hpq : ∀ a b, R a b → (p a ↔ q b)) :
    (∀ a ∈ as, p a) ↔ ∀ b ∈ bs, q b := by
  induction h with
  | nil => simp
  | cons hab _ ih => rw [List.forall_mem_cons, List.forall_mem_cons, hpq _ _ hab, ih]

/-! ## Errors, if there are any -/

section FailsOnly

variable {E E' : ε → Prop}

/-- `E` holds of the error of the computation, if it has one. -/
def FailsOnly (x : Except ε α) (E : ε → Prop) : Prop :=
  ∀ e, x = .error e → E e

theorem failsOnly_ok (a : α) : FailsOnly (.ok a : Except ε α) E := by
  rintro _ ⟨⟩

theorem failsOnly_pure (a : α) : FailsOnly (pure a : Except ε α) E :=
  failsOnly_ok a

theorem failsOnly_error {e : ε} (h : E e) : FailsOnly (.error e : Except ε α) E := by
  rintro _ ⟨⟩
  exact h

theorem failsOnly_throw {e : ε} (h : E e) : FailsOnly (throw e : Except ε α) E :=
  failsOnly_error h

theorem FailsOnly.imp (h : FailsOnly x E) (himp : ∀ e, E e → E' e) : FailsOnly x E' :=
  fun e he => himp e (h e he)

theorem FailsOnly.bind (h : FailsOnly x E) (hf : ∀ a, x = .ok a → FailsOnly (f a) E) :
    FailsOnly (x >>= f) E := by
  cases x with
  | error e => exact failsOnly_error (h e rfl)
  | ok a => exact hf a rfl

theorem FailsOnly.mapError {δ : Type} {g : ε → δ} {D : δ → Prop} (h : FailsOnly x E)
    (hg : ∀ e, E e → D (g e)) : FailsOnly (x.mapError g) D := by
  cases x with
  | error e => exact failsOnly_error (hg e (h e rfl))
  | ok a => exact failsOnly_ok a

theorem failsOnly_ite {p : Prop} [Decidable p] {y : Except ε α} (hx : FailsOnly x E)
    (hy : FailsOnly y E) : FailsOnly (if p then x else y) E := by
  split
  · exact hx
  · exact hy

end FailsOnly

/-! ## Two computations -/

section Together

variable {γ δ : Type}

/-- The computations have results that `R` relates, or they have the same error. -/
inductive Together (R : α → γ → Prop) : Except ε α → Except ε γ → Prop
  | ok {a : α} {c : γ} (h : R a c) : Together R (.ok a) (.ok c)
  | error (e : ε) : Together R (.error e) (.error e)

variable {R : α → γ → Prop} {S : β → δ → Prop} {y : Except ε γ} {g : γ → Except ε δ}

theorem together_pure {a : α} {c : γ} (h : R a c) :
    Together R (pure a : Except ε α) (pure c : Except ε γ) :=
  .ok h

theorem Together.imp {R' : α → γ → Prop} (h : Together R x y) (himp : ∀ a c, R a c → R' a c) :
    Together R' x y := by
  cases h with
  | ok h => exact .ok (himp _ _ h)
  | error e => exact .error e

theorem Together.congr {T : Prop → α → γ → Prop} {p q : Prop} (h : Together (T p) x y)
    (hpq : p ↔ q) : Together (T q) x y := by
  rwa [← propext hpq]

theorem Together.bind (h : Together R x y) (hf : ∀ a c, R a c → Together S (f a) (g c)) :
    Together S (x >>= f) (y >>= g) := by
  cases h with
  | ok h => exact hf _ _ h
  | error e => exact .error e

/-- A computation beside itself. -/
theorem Ensures.together (h : Ensures x P) : Together (fun a b => a = b ∧ P a) x x := by
  cases x with
  | error e => exact .error e
  | ok a => exact .ok ⟨rfl, h a rfl⟩

/-- One computation is the other with its result changed by `g`, just when its result is. -/
theorem Together.eq_map_iff {g : α → γ} {p : Prop} (h : Together R x y)
    (hR : ∀ a c, R a c → (c = g a ↔ p)) : y = x.map g ↔ (Succeeds x → p) := by
  cases h with
  | @ok a c h =>
    rw [Except.map, Except.ok.injEq, hR a c h]
    exact ⟨fun hp _ => hp, fun hp => hp (succeeds_ok a)⟩
  | error e => exact iff_of_true rfl fun h => absurd h (not_succeeds_error e)

end Together

/-! ## Computations with a state -/

section State

variable {σ : Type} {m : ExceptT ε (StateM σ) α} {next : α → ExceptT ε (StateM σ) β} {s s' : σ}

theorem run_bind_ok {a : α} (h : m.run s = (.ok a, s')) : (m >>= next).run s = (next a).run s' := by
  rw [congrFun (ExceptT.run_bind m next) s]
  simp [bind, StateT.bind, h]

theorem run_bind_error {e : ε} (h : m.run s = (.error e, s')) :
    (m >>= next).run s = (.error e, s') := by
  rw [congrFun (ExceptT.run_bind m next) s]
  simp only [bind, StateT.bind, h]
  rfl

theorem run_tryCatch_ok {a : α} {h : ε → ExceptT ε (StateM σ) α} (hm : m.run s = (.ok a, s')) :
    (tryCatch m h).run s = (.ok a, s') := by
  rw [congrFun (ExceptT.run_tryCatch m h) s]
  simp only [bind, StateT.bind, hm]
  rfl

theorem run_tryCatch_error {e : ε} {h : ε → ExceptT ε (StateM σ) α}
    (hm : m.run s = (.error e, s')) : (tryCatch m h).run s = (h e).run s' := by
  rw [congrFun (ExceptT.run_tryCatch m h) s]
  simp only [bind, StateT.bind, hm]

/-- Two computations succeed one after the other. -/
theorem run_bind_eq_ok {b : β} (h : (m >>= next).run s = (.ok b, s')) :
    ∃ a s₁, m.run s = (.ok a, s₁) ∧ (next a).run s₁ = (.ok b, s') := by
  rcases hm : m.run s with ⟨e | a, s₁⟩
  · cases (run_bind_error hm).symm.trans h
  · exact ⟨a, s₁, rfl, (run_bind_ok hm).symm.trans h⟩

end State

end Componentry
