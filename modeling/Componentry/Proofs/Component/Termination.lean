import Componentry.Component.Module
import Componentry.Proofs.Component.Descent

/-!
# Compilation terminates

`Descent.next` is one level of the compiler: what each task becomes, when the calls that it makes go
to a given `Descent`.  It looks at the containers that were entered on the way down and at nothing
else, so that by itself it need not come to an end.  Unrolled `n` times it is the compiler with at
most `n` calls inside one another; what happens below that depth is left open.

**Main statement.** Unrolled three times for each container of a document and twice more, it gives
what the compiler gives, whatever happens below that depth (`compilation_terminates`).

The results of a level depend only on the calls that are made (`Descent.next_congr`), the compiler is
unchanged by a further level (`Descent.next_compiler`), and ways down have a bounded length
(`Calls.size_lt`).
-/

namespace Componentry.Component

open Relation (ReflTransGen TransGen)
open Script (Node)

/-- What each task becomes below the containers that were entered on the way to it. -/
structure Descent where
  data : List Address → Value → Traced Node
  element : List Address → Value → Traced Node
  config : List Address → String → Value → Traced Node
  children : List Address → Value → Traced (List Node)

namespace Descent

/-- One level of the compiler, with the calls that it makes going to `d`. -/
def next (g : Graph) (d : Descent) : Descent where
  data active v := do
    match ← g.view v with
    | .null => return .null
    | .bool b => return .bool b
    | .number n => return .number n
    | .text s => interpolate s
    | .code c => Snippet.parse c.text
    | .sequence a items =>
      if a ∈ active then cyclic
      else return .array (← items.mapM fun item => d.data (a :: active) item)
    | .mapping a entries =>
      if a ∈ active then cyclic
      else
        return .object (← entries.mapM fun e => do
          let key ← propertyKey g e.1
          return .property key (← d.data (a :: active) e.2))
    | .other => return .text (← g.display v)
  element active v := do
    match ← g.view v with
    | .null => return .null
    | .bool b => return .bool b
    | .number n => return .number n
    | .text s => interpolate s
    | .code c => Snippet.parse c.text
    | .sequence a items =>
      if a ∈ active then cyclic
      else return .array (← items.mapM fun item => d.element (a :: active) item)
    | .mapping _ [] => return .null
    | .mapping a (e :: _) =>
      if a ∈ active then cyclic
      else
        let tag ← g.display e.1
        d.config (a :: active) tag e.2
    | .other => return .text (← g.display v)
  config active tag v := do
    match ← g.view v with
    | .mapping a entries =>
      if a ∈ active then
        Traced.note .cyclic
        return createElement (tagReference tag) .null [.null]
      else
        let children ←
          match entries.find? isChildrenEntry with
          | some e => d.children (a :: active) e.2
          | none => pure []
        let attributes ←
          attributesWith g (d.data (a :: active)) (entries.filter (!isChildrenEntry ·))
        return createElement (tagReference tag) attributes children
    | .null => return createElement (tagReference tag) .null [.null]
    | .text s => return createElement (tagReference tag) .null [← interpolate s]
    | _ => return createElement (tagReference tag) .null (← d.children active v)
  children active v :=
    match g.items? v with
    | some items => items.mapM fun item => d.element active item
    | none => do return [← d.element active v]

/-- The compiler. -/
def compiler (g : Graph) : Descent where
  data active v := convertWithin g (free g active) v
  element active v := elementWithin g (free g active) v
  config active tag v := elementOf g (free g active) tag v
  children active v := childrenWithin g (free g active) v

/-- The task of a call becomes the same. -/
def AgreeAt (d d' : Descent) (c : Call) : Prop :=
  match c.task with
  | .data v => d.data c.active v = d'.data c.active v
  | .element v => d.element c.active v = d'.element c.active v
  | .config v => ∀ tag, d.config c.active tag v = d'.config c.active tag v
  | .children v => d.children c.active v = d'.children c.active v

/-! ## The calls of a level -/

theorem mapM_congr {α β : Type} {f f' : α → Traced β} {as : List α} (h : ∀ a ∈ as, f a = f' a) :
    as.mapM f = as.mapM f' := by
  induction as with
  | nil => rfl
  | cons a as ih =>
    obtain ⟨ha, has⟩ := List.forall_mem_cons.mp h
    rw [List.mapM_cons, List.mapM_cons, ha, ih has]

theorem attributesWith_congr {g : Graph} {data data' : Value → Traced Node}
    {entries : List (Value × Value)} (h : ∀ e ∈ entries, ¬ IsRaw g e.2 → data e.2 = data' e.2) :
    attributesWith g data entries = attributesWith g data' entries := by
  have hone : ∀ e ∈ entries,
      attributeProperty g data e.1 e.2 = attributeProperty g data' e.1 e.2 := by
    intro e he
    unfold attributeProperty
    -- raw code is parsed as it is and makes no call
    by_cases hr : IsRaw g e.2
    · obtain ⟨code, hcode⟩ := hr
      rw [hcode]
      rfl
    · rw [h e he hr]
  unfold attributesWith
  split
  · rfl
  · rw [mapM_congr hone]

theorem bind_view_congr {α : Type} {g : Graph} {v : Value} {f f' : View → Traced α}
    (h : ∀ view, g.view v = .ok view → f view = f' view) :
    ((liftM (g.view v) : Traced View) >>= f) = (liftM (g.view v) : Traced View) >>= f' := by
  cases hv : g.view v with
  | error e => rfl
  | ok view =>
    have hf := h view hv
    show (pure view >>= f) = (pure view >>= f')
    rw [pure_bind, pure_bind, hf]

/-- The results of a level depend only on the calls that are made. -/
theorem next_congr {g : Graph} {d d' : Descent} {c : Call}
    (h : ∀ c', Calls g c c' → AgreeAt d d' c') : AgreeAt (d.next g) (d'.next g) c := by
  -- each place where a level uses `d` is one of the calls, with the view of the value as evidence
  obtain ⟨active, task⟩ := c
  cases task with
  | data v =>
    refine bind_view_congr fun view hv => ?_
    cases view with
    | sequence a items =>
      by_cases ha : a ∈ active
      · simp only [if_pos ha]
      · have hitems := mapM_congr fun item hi => h _ (.dataItem hv ha hi)
        simp only [if_neg ha, hitems]
    | mapping a entries =>
      by_cases ha : a ∈ active
      · simp only [if_pos ha]
      · have hentries : ∀ e ∈ entries, d.data (a :: active) e.2 = d'.data (a :: active) e.2 :=
          fun e he => h _ (.dataEntry hv ha he)
        simp only [if_neg ha]
        rw [mapM_congr fun e he => by rw [hentries e he]]
    | _ => rfl
  | element v =>
    refine bind_view_congr fun view hv => ?_
    cases view with
    | sequence a items =>
      by_cases ha : a ∈ active
      · simp only [if_pos ha]
      · have hitems := mapM_congr fun item hi => h _ (.elementItem hv ha hi)
        simp only [if_neg ha, hitems]
    | mapping a entries =>
      cases entries with
      | nil => rfl
      | cons e entries =>
        by_cases ha : a ∈ active
        · simp only [if_pos ha]
        · have hconfig := h _ (.elementConfig hv ha)
          simp only [if_neg ha]
          exact bind_congr fun tag => hconfig tag
    | _ => rfl
  | config v =>
    intro tag
    refine bind_view_congr fun view hv => ?_
    have hcontent : isContent view = true → d.children active v = d'.children active v :=
      fun hc => h _ (.content hv hc)
    cases view with
    | mapping a entries =>
      by_cases ha : a ∈ active
      · simp only [if_pos ha]
      · have hattributes : attributesWith g (d.data (a :: active))
              (entries.filter (!isChildrenEntry ·)) =
            attributesWith g (d'.data (a :: active)) (entries.filter (!isChildrenEntry ·)) :=
          attributesWith_congr fun e he hr => h _ (.attributeValue hv ha he hr)
        simp only [if_neg ha, hattributes]
        cases hf : entries.find? isChildrenEntry with
        | none => rfl
        | some e =>
          have hchildren : d.children (a :: active) e.2 = d'.children (a :: active) e.2 :=
            h _ (.children hv ha hf)
          simp only [hchildren]
    | null => rfl
    | text s => rfl
    | _ => simp only [hcontent rfl]
  | children v =>
    show (d.next g).children active v = (d'.next g).children active v
    unfold next
    cases hi : g.items? v with
    | some items =>
      simp only [hi]
      exact mapM_congr fun item hm => h _ (.child hi hm)
    | none =>
      have helement : d.element active v = d'.element active v := h _ (.onlyChild hi)
      simp only [hi, helement]

/-! ## The compiler as a limit -/

/-- A container is entered if it is not active. -/
theorem dite_mem_free {α : Type} {g : Graph} {active : List Address} {a : Address} {c : Container}
    (hc : g.get? a = some c) (x : List Address → α) (y : α) :
    (if _h : a ∈ free g active then x ((free g active).erase a) else y) =
      if a ∈ active then y else x (free g (a :: active)) := by
  by_cases ha : a ∈ active
  · rw [dif_neg fun hf => (mem_free hc).mp hf ha, if_pos ha]
  · rw [dif_pos ((mem_free hc).mpr ha), if_neg ha, erase_free]

/-- The compiler is unchanged by a further level. -/
theorem next_compiler (g : Graph) (c : Call) : AgreeAt ((compiler g).next g) (compiler g) c := by
  obtain ⟨active, task⟩ := c
  cases task with
  | data v =>
    show ((compiler g).next g).data active v = convertWithin g (free g active) v
    rw [convertWithin]
    refine bind_view_congr fun view hv => ?_
    cases view with
    | sequence a items =>
      obtain ⟨-, c, hc⟩ := exists_get?_of_sequence hv
      exact (dite_mem_free hc (fun fresh => do
        return .array (← items.mapM fun item => convertWithin g fresh item)) cyclic).symm
    | mapping a entries =>
      exact (dite_mem_free (shows_of_view hv).2 (fun fresh => do
        return .object (← entries.mapM fun e => do
          let key ← propertyKey g e.1
          return Node.property key (← convertWithin g fresh e.2))) cyclic).symm
    | _ => rfl
  | element v =>
    show ((compiler g).next g).element active v = elementWithin g (free g active) v
    rw [elementWithin]
    refine bind_view_congr fun view hv => ?_
    cases view with
    | sequence a items =>
      obtain ⟨-, c, hc⟩ := exists_get?_of_sequence hv
      exact (dite_mem_free hc (fun fresh => do
        return .array (← items.mapM fun item => elementWithin g fresh item)) cyclic).symm
    | mapping a entries =>
      cases entries with
      | nil => rfl
      | cons e entries =>
        exact (dite_mem_free (shows_of_view hv).2 (fun fresh => do
          let tag ← g.display e.1
          elementOf g fresh tag e.2) cyclic).symm
    | _ => rfl
  | config v =>
    intro tag
    show ((compiler g).next g).config active tag v = elementOf g (free g active) tag v
    rw [elementOf]
    refine bind_view_congr fun view hv => ?_
    cases view with
    | mapping a entries =>
      have hg := (shows_of_view hv).2
      cases hf : entries.find? isChildrenEntry with
      | none =>
        simp only [hf]
        exact (dite_mem_free hg (fun fresh => do
          let children ← pure []
          let attributes ← attributesWithin g fresh (entries.filter (!isChildrenEntry ·))
          return createElement (tagReference tag) attributes children) _).symm
      | some e =>
        simp only [hf]
        exact (dite_mem_free hg (fun fresh => do
          let children ← childrenWithin g fresh e.2
          let attributes ← attributesWithin g fresh (entries.filter (!isChildrenEntry ·))
          return createElement (tagReference tag) attributes children) _).symm
    | _ => rfl
  | children v =>
    show ((compiler g).next g).children active v = childrenWithin g (free g active) v
    rw [childrenWithin]
    rfl

/-- The compiler with at most `n` calls inside one another, with `d` below that depth. -/
def unroll (g : Graph) (d : Descent) : Nat → Descent
  | 0 => d
  | n + 1 => (unroll g d n).next g

theorem AgreeAt.trans {d d' d'' : Descent} {c : Call} (h : AgreeAt d d' c)
    (h' : AgreeAt d' d'' c) : AgreeAt d d'' c := by
  obtain ⟨active, task⟩ := c
  cases task with
  | config v => exact fun tag => (h tag).trans (h' tag)
  | _ => exact Eq.trans h h'

theorem AgreeAt.symm {d d' : Descent} {c : Call} (h : AgreeAt d d' c) : AgreeAt d' d c := by
  obtain ⟨active, task⟩ := c
  cases task with
  | config v => exact fun tag => (h tag).symm
  | _ => exact Eq.symm h

/-- A level for each call of the longest way down is enough. -/
theorem agreeAt_unroll (g : Graph) (d : Descent) : ∀ {n : Nat} {c : Call}, c.size g < n →
    AgreeAt (unroll g d n) (compiler g) c
  | n + 1, c, hn => by
    have hcalls : ∀ c', Calls g c c' → AgreeAt (unroll g d n) (compiler g) c' := by
      intro c' hc
      have := hc.size_lt
      exact agreeAt_unroll g d (by omega)
    exact (next_congr hcalls).trans (next_compiler g c)

end Descent

/-! ## From the top -/

theorem size_top (g : Graph) (t : Task) :
    (Call.mk [] t).size g = 3 * g.containers.size + t.rank := by
  rw [Call.size, free_nil, Graph.addresses, List.length_range]

/-- **Compilation terminates.** Whatever a document contains, the calls of the compiler are at most
three inside one another for each container and two more: what happens below that depth makes no
difference.  On the way down no container is entered twice, and a way that comes back to its task has
entered containers that are on it. -/
theorem compilation_terminates (g : Graph) :
    (∀ (d : Descent) (v : Value),
      let limited := Descent.unroll g d (3 * g.containers.size + 2)
      limited.element [] v = element g v ∧
      limited.children [] v = children g v ∧
      attributesFrom g (limited.data []) v = attributes g v ∧
      limited.data [] v = convert g v ∧
      programWith g (limited.data []) (limited.element []) v = program g v) ∧
    (∀ (t : Task) (c : Call), ReflTransGen (Calls g) ⟨[], t⟩ c → c.active.Nodup) ∧
    (∀ c c' : Call, TransGen (Calls g) c c' → c'.task = c.task →
      ∃ entered, entered ≠ [] ∧ c'.active = entered ++ c.active ∧
        ∀ a ∈ entered, Passes g c c' a) := by
  refine ⟨fun d => ?_, fun t c h => nodup_active h List.nodup_nil,
    fun c c' h ht => entered_of_cycle h ht⟩
  have hagree : ∀ t : Task, t.rank ≤ 1 → Descent.AgreeAt
      (Descent.unroll g d (3 * g.containers.size + 2)) (Descent.compiler g) ⟨[], t⟩ := by
    intro t ht
    exact Descent.agreeAt_unroll g d (by rw [size_top]; omega)
  have hdata : ∀ v, (Descent.unroll g d (3 * g.containers.size + 2)).data [] v = convert g v := by
    intro v
    rw [convert, ← free_nil]
    exact hagree (.data v) (by simp [Task.rank])
  have helement : ∀ v,
      (Descent.unroll g d (3 * g.containers.size + 2)).element [] v = element g v := by
    intro v
    rw [element, ← free_nil]
    exact hagree (.element v) (by simp [Task.rank])
  have hchildren : ∀ v,
      (Descent.unroll g d (3 * g.containers.size + 2)).children [] v = children g v := by
    intro v
    rw [children, ← free_nil]
    exact hagree (.children v) (by simp [Task.rank])
  intro v
  refine ⟨helement v, hchildren v, ?_, hdata v, ?_⟩
  · rw [attributes, funext hdata]
  · rw [program, funext hdata, funext helement]

end Componentry.Component
