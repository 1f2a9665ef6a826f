import Componentry.Component.Element
import Componentry.Proofs.Document.Parts
import Mathlib.Data.List.Nodup

/-!
# The descent of the compiler

Compiling a value makes further calls for values inside it.  A call has a task, which is a value and
what to make of it, and it has the addresses of the containers that were entered on the way to it,
the last one first.  `Calls g c c'` says that the call `c` makes the call `c'`.

**Main statements.** A call either enters a container that was not entered before, or it keeps the
entered ones and its task is of a lower rank (`Calls.enters_or_lowers`).  Hence no container is entered
twice on one way down (`nodup_active`), no way comes back to a task without entering a container on
the way (`entered_of_cycle`), and no way is endless (`wellFounded_calls`).
-/

namespace Componentry.Component

open Relation (ReflTransGen TransGen)

/-! ## Tasks and calls -/

/-- What the compiler makes of a value: data, a part of a page, the configuration of an element, or
the children of one. -/
inductive Task where
  | data (v : Value)
  | element (v : Value)
  | config (v : Value)
  | children (v : Value)
  deriving DecidableEq, Repr

/-- The value of a task. -/
def Task.value : Task → Value
  | .data v | .element v | .config v | .children v => v

/-- A call with a task below the containers at the addresses `active`. -/
structure Call where
  active : List Address
  task : Task
  deriving DecidableEq, Repr

/-- Whether a configuration is the content of its element as a whole. -/
def isContent : View → Bool
  | .mapping _ _ | .null | .text _ => false
  | _ => true

/-- The value is raw code, which is no data. -/
def IsRaw (g : Graph) (v : Value) : Prop :=
  ∃ code, g.code? v = .ok (some ⟨.raw, code⟩)

/-- One call makes another.  Lists, tuples and maps are entered where they are data, parts of a page
or configurations.  A list of children is not, nor is a configuration that is content. -/
inductive Calls (g : Graph) : Call → Call → Prop
  | dataItem {active : List Address} {v item : Value} {a : Address} {items : List Value}
    (hv : g.view v = .ok (.sequence a items)) (ha : a ∉ active) (hi : item ∈ items) :
    Calls g ⟨active, .data v⟩ ⟨a :: active, .data item⟩
  | dataEntry {active : List Address} {v : Value} {e : Value × Value} {a : Address}
    {entries : List (Value × Value)} (hv : g.view v = .ok (.mapping a entries)) (ha : a ∉ active)
    (he : e ∈ entries) : Calls g ⟨active, .data v⟩ ⟨a :: active, .data e.2⟩
  | elementItem {active : List Address} {v item : Value} {a : Address} {items : List Value}
    (hv : g.view v = .ok (.sequence a items)) (ha : a ∉ active) (hi : item ∈ items) :
    Calls g ⟨active, .element v⟩ ⟨a :: active, .element item⟩
  | elementConfig {active : List Address} {v : Value} {e : Value × Value} {a : Address}
    {entries : List (Value × Value)} (hv : g.view v = .ok (.mapping a (e :: entries)))
    (ha : a ∉ active) : Calls g ⟨active, .element v⟩ ⟨a :: active, .config e.2⟩
  | attributeValue {active : List Address} {v : Value} {e : Value × Value} {a : Address}
    {entries : List (Value × Value)} (hv : g.view v = .ok (.mapping a entries)) (ha : a ∉ active)
    (he : e ∈ entries.filter (!isChildrenEntry ·)) (hr : ¬ IsRaw g e.2) :
    Calls g ⟨active, .config v⟩ ⟨a :: active, .data e.2⟩
  | children {active : List Address} {v : Value} {e : Value × Value} {a : Address}
    {entries : List (Value × Value)} (hv : g.view v = .ok (.mapping a entries)) (ha : a ∉ active)
    (he : entries.find? isChildrenEntry = some e) :
    Calls g ⟨active, .config v⟩ ⟨a :: active, .children e.2⟩
  | content {active : List Address} {v : Value} {view : View} (hv : g.view v = .ok view)
    (hc : isContent view = true) : Calls g ⟨active, .config v⟩ ⟨active, .children v⟩
  | child {active : List Address} {v item : Value} {items : List Value}
    (hv : g.items? v = some items) (hi : item ∈ items) :
    Calls g ⟨active, .children v⟩ ⟨active, .element item⟩
  | onlyChild {active : List Address} {v : Value} (hv : g.items? v = none) :
    Calls g ⟨active, .children v⟩ ⟨active, .element v⟩

/-! ## Views backwards -/

section View

variable {g : Graph} {v : Value} {a : Address}

/-- What a view says about the value it is a view of. -/
def Shows (g : Graph) (v : Value) : View → Prop
  | .number (.int n) => v = .scalar (.int n)
  | .text s => v = .text s
  | .code c => g.code? v = .ok (some c)
  | .sequence a items =>
    v = .container a ∧ (g.get? a = some (.list items) ∨ g.get? a = some (.tuple items))
  | .mapping a entries => v = .container a ∧ g.get? a = some (.map entries)
  | _ => True

theorem shows_of_view {view : View} (h : g.view v = .ok view) : Shows g v view := by
  cases v with
  | scalar s => cases s <;> cases h <;> trivial
  | container a =>
    rw [Graph.view] at h
    split at h
    · next hg =>
      cases h
      exact ⟨rfl, .inl hg⟩
    · next hg =>
      cases h
      exact ⟨rfl, .inr hg⟩
    · next entries hg =>
      cases hc : g.codeOfEntries? entries with
      | error e => rw [hc] at h; cases h
      | ok c =>
        rw [hc] at h
        cases c with
        | none =>
          cases h
          exact ⟨rfl, hg⟩
        | some c =>
          cases h
          show g.code? (.container a) = _
          rw [Graph.code?, hg]
          exact hc
    · cases h
      trivial
    · cases h
      trivial

theorem exists_get?_of_sequence {items : List Value} (h : g.view v = .ok (.sequence a items)) :
    v = .container a ∧ ∃ c, g.get? a = some c := by
  obtain ⟨hv, hg | hg⟩ := shows_of_view h
  · exact ⟨hv, _, hg⟩
  · exact ⟨hv, _, hg⟩

theorem get?_of_items? {items : List Value} (h : g.items? v = some items) :
    ∃ a, v = .container a ∧ (g.get? a = some (.list items) ∨ g.get? a = some (.tuple items)) := by
  unfold Graph.items? at h
  split at h
  · next a =>
    split at h
    · next hg => cases h; exact ⟨a, rfl, .inl hg⟩
    · next hg => cases h; exact ⟨a, rfl, .inr hg⟩
    · cases h
  · cases h

end View

/-! ## Entering -/

/-- The addresses that may still be entered below the ones that are active. -/
def free (g : Graph) (active : List Address) : List Address :=
  g.addresses.filter fun a => a ∉ active

theorem free_nil (g : Graph) : free g [] = g.addresses := by
  simp [free]

theorem mem_free {g : Graph} {active : List Address} {a : Address} {c : Container}
    (h : g.get? a = some c) : a ∈ free g active ↔ a ∉ active := by
  simp [free, Graph.mem_addresses h]

theorem erase_free (g : Graph) (active : List Address) (a : Address) :
    (free g active).erase a = free g (a :: active) := by
  have hnodup : (free g active).Nodup := List.nodup_range.filter _
  rw [hnodup.erase_eq_filter, free, List.filter_filter, free]
  congr 1
  funext b
  rw [Bool.eq_iff_iff]
  simp

theorem length_free_cons {g : Graph} {active : List Address} {a : Address} {c : Container}
    (hc : g.get? a = some c) (ha : a ∉ active) :
    (free g (a :: active)).length < (free g active).length := by
  rw [← erase_free]
  exact length_erase_lt ((mem_free hc).mpr ha)

/-! ## One step down -/

/-- Tasks of a higher rank make calls for tasks of a lower rank without entering a container. -/
def Task.rank : Task → Nat
  | .data _ | .element _ => 0
  | .children _ => 1
  | .config _ => 2

/-- The value of a call is a container that is not active, and the next call is below it. -/
def Enters (g : Graph) (c c' : Call) : Prop :=
  ∃ a container, c.task.value = .container a ∧ g.get? a = some container ∧ a ∉ c.active ∧
    c'.active = a :: c.active

variable {g : Graph} {c c' : Call}

theorem Calls.enters_or_lowers (h : Calls g c c') :
    Enters g c c' ∨ c'.active = c.active ∧ c'.task.rank < c.task.rank := by
  cases h with
  | dataItem hv ha | elementItem hv ha =>
    obtain ⟨hvalue, _, hg⟩ := exists_get?_of_sequence hv
    exact .inl ⟨_, _, hvalue, hg, ha, rfl⟩
  | dataEntry hv ha | elementConfig hv ha | attributeValue hv ha | children hv ha =>
    obtain ⟨hvalue, hg⟩ := shows_of_view hv
    exact .inl ⟨_, _, hvalue, hg, ha, rfl⟩
  | content | child | onlyChild => exact .inr ⟨rfl, by simp [Task.rank]⟩

/-- An upper bound for the length of the ways down from a call. -/
def Call.size (g : Graph) (c : Call) : Nat :=
  3 * (free g c.active).length + c.task.rank

theorem Task.rank_le (t : Task) : t.rank ≤ 2 := by
  cases t <;> simp [rank]

theorem Calls.size_lt (h : Calls g c c') : c'.size g < c.size g := by
  have hrank := c'.task.rank_le
  unfold Call.size
  -- entering takes one address away, which is worth more than any rank
  rcases h.enters_or_lowers with ⟨a, container, -, hg, ha, he⟩ | ⟨he, hr⟩
  · have hfree := length_free_cons hg ha
    rw [he]
    omega
  · rw [he]
    omega

/-- No way down is endless. -/
theorem wellFounded_calls (g : Graph) : WellFounded fun c' c => Calls g c c' :=
  Subrelation.wf Calls.size_lt (measure (Call.size g)).wf

/-! ## The way down -/

/-- **No container is entered twice.** -/
theorem nodup_active (h : ReflTransGen (Calls g) c c') (hc : c.active.Nodup) :
    c'.active.Nodup := by
  induction h with
  | refl => exact hc
  | tail _ hstep ih =>
    rcases hstep.enters_or_lowers with ⟨a, container, -, -, ha, he⟩ | ⟨he, -⟩
    · rw [he]
      exact List.nodup_cons.mpr ⟨ha, ih⟩
    · rw [he]
      exact ih

/-- The container at an address is met on a way down. -/
def Passes (g : Graph) (c c' : Call) (a : Address) : Prop :=
  ∃ between, ReflTransGen (Calls g) c between ∧ ReflTransGen (Calls g) between c' ∧
    between.task.value = .container a

/-- The containers that a way enters are on it.  If it enters none, it goes down in rank. -/
theorem exists_entered (h : TransGen (Calls g) c c') :
    ∃ entered, c'.active = entered ++ c.active ∧ (∀ a ∈ entered, Passes g c c' a) ∧
      (entered = [] → c'.task.rank < c.task.rank) := by
  induction h with
  | @single c' hstep =>
    rcases hstep.enters_or_lowers with ⟨a, container, hv, -, -, he⟩ | ⟨he, hr⟩
    · have hpasses : Passes g c c' a := ⟨c, .refl, .single hstep, hv⟩
      exact ⟨[a], he, List.forall_mem_singleton.mpr hpasses, nofun⟩
    · exact ⟨[], he, nofun, fun _ => hr⟩
  | @tail c₁ c₂ hway hstep ih =>
    obtain ⟨entered, hactive, hon, hrank⟩ := ih
    have hon : ∀ a ∈ entered, Passes g c c₂ a := by
      intro a ha
      obtain ⟨between, h₁, h₂, hv⟩ := hon a ha
      exact ⟨between, h₁, h₂.tail hstep, hv⟩
    rcases hstep.enters_or_lowers with ⟨a, container, hv, -, -, he⟩ | ⟨he, hr⟩
    · have hpasses : Passes g c c₂ a := ⟨c₁, hway.to_reflTransGen, .single hstep, hv⟩
      refine ⟨a :: entered, ?_, List.forall_mem_cons.mpr ⟨hpasses, hon⟩, nofun⟩
      rw [he, hactive]
      rfl
    · exact ⟨entered, by rw [he, hactive], hon, fun h => Nat.lt_trans hr (hrank h)⟩

/-- **Every cycle enters a container on it.** A way that comes back to its task has entered one. -/
theorem entered_of_cycle (h : TransGen (Calls g) c c') (ht : c'.task = c.task) :
    ∃ entered, entered ≠ [] ∧ c'.active = entered ++ c.active ∧
      ∀ a ∈ entered, Passes g c c' a := by
  obtain ⟨entered, hactive, hon, hrank⟩ := exists_entered h
  refine ⟨entered, ?_, hactive, hon⟩
  rintro rfl
  have := hrank rfl
  rw [ht] at this
  exact Nat.lt_irrefl _ this

end Componentry.Component
