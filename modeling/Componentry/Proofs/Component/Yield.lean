import Componentry.Proofs.Component.Mistyped
import Componentry.Proofs.Component.Short

/-!
# What calls yield

The calls of the compiler end in nodes or in a fault.

**Main statements.** A call that succeeds makes calls that succeed (`Call.Yields.calls`).  A call
whose value is short and can be viewed yields printable nodes if the calls that it makes do
(`Call.yields_of_calls`).  Both carry over to everything that a call reaches: there the first becomes
`Call.Yields.reaches` and the second, because no way down is endless, `Call.yields_of_reaches`.
-/

namespace Componentry.Component

open Relation (ReflTransGen)
open Script (Node Printable PrintableProperty printable_object)

variable {g : Graph} {v : Value}

/-! ## Results of calls -/

section Entered

variable {active : List Address} {a : Address}

theorem mem_free_of_sequence {items : List Value} (hv : g.view v = .ok (.sequence a items)) :
    a ∈ free g active ↔ a ∉ active := by
  obtain ⟨-, c, hg⟩ := exists_get?_of_sequence hv
  exact mem_free hg

theorem mem_free_of_mapping {entries : List (Value × Value)}
    (hv : g.view v = .ok (.mapping a entries)) : a ∈ free g active ↔ a ∉ active :=
  mem_free (shows_of_view hv).2

theorem data_sequence {items : List Value} (hv : g.view v = .ok (.sequence a items)) :
    (convertWithin g (free g active) v).result =
      if a ∈ active then .ok .null
      else do
        return .array (← items.mapM fun item =>
          (convertWithin g (free g (a :: active)) item).result) := by
  rw [result_convertWithin, hv, ← erase_free, ← ite_not]
  exact if_congr (mem_free_of_sequence hv) rfl rfl

theorem data_mapping {entries : List (Value × Value)}
    (hv : g.view v = .ok (.mapping a entries)) :
    (convertWithin g (free g active) v).result =
      if a ∈ active then .ok .null
      else do
        return .object (← entries.mapM fun e => do
          let key ← propertyKey g e.1
          return Node.property key (← (convertWithin g (free g (a :: active)) e.2).result)) := by
  rw [result_convertWithin, hv, ← erase_free, ← ite_not]
  exact if_congr (mem_free_of_mapping hv) rfl rfl

theorem element_sequence {items : List Value} (hv : g.view v = .ok (.sequence a items)) :
    (elementWithin g (free g active) v).result =
      if a ∈ active then .ok .null
      else do
        return .array (← items.mapM fun item =>
          (elementWithin g (free g (a :: active)) item).result) := by
  rw [result_elementWithin, hv, ← erase_free, ← ite_not]
  exact if_congr (mem_free_of_sequence hv) rfl rfl

theorem element_mapping {e : Value × Value} {entries : List (Value × Value)}
    (hv : g.view v = .ok (.mapping a (e :: entries))) :
    (elementWithin g (free g active) v).result =
      if a ∈ active then .ok .null
      else (do
        let tag ← g.display e.1
        (elementOf g (free g (a :: active)) tag e.2).result) := by
  rw [result_elementWithin, hv, ← erase_free, ← ite_not]
  exact if_congr (mem_free_of_mapping hv) rfl rfl

theorem config_mapping {entries : List (Value × Value)}
    (hv : g.view v = .ok (.mapping a entries)) (tag : String) :
    (elementOf g (free g active) tag v).result =
      if a ∈ active then .ok (createElement (tagReference tag) .null [.null])
      else do
        let children ← (match entries.find? isChildrenEntry with
          | some (_, content) => (childrenWithin g (free g (a :: active)) content).result
          | none => pure [])
        let attributes ← (attributesWith g (convertWithin g (free g (a :: active)))
          (entries.filter (!isChildrenEntry ·))).result
        return createElement (tagReference tag) attributes children := by
  rw [result_elementOf, hv, ← erase_free, ← ite_not]
  exact if_congr (mem_free_of_mapping hv) rfl rfl

theorem config_content {view : View} (hv : g.view v = .ok view) (hc : isContent view = true)
    (tag : String) :
    (elementOf g (free g active) tag v).result = (do
      return createElement (tagReference tag) .null
        (← (childrenWithin g (free g active) v).result)) := by
  rw [result_elementOf, hv]
  cases view with
  | mapping | null | text => cases hc
  | _ => rfl

theorem children_items {items : List Value} (hi : g.items? v = some items) :
    (childrenWithin g (free g active) v).result =
      items.mapM fun item => (elementWithin g (free g active) item).result := by
  rw [result_childrenWithin, hi]

theorem children_single (hi : g.items? v = none) :
    (childrenWithin g (free g active) v).result = (do
      return [← (elementWithin g (free g active) v).result]) := by
  rw [result_childrenWithin, hi]

end Entered

/-- The task of a call becomes something of which `P` holds, or several such things. -/
def Call.Yields (g : Graph) (c : Call) (P : Node → Prop) : Prop :=
  match c.task with
  | .data v => Gives (convertWithin g (free g c.active) v).result P
  | .element v => Gives (elementWithin g (free g c.active) v).result P
  | .config v => ∀ tag, Gives (elementOf g (free g c.active) tag v).result P
  | .children v => Gives (childrenWithin g (free g c.active) v).result fun nodes => ∀ n ∈ nodes, P n

/-- A task that looks at its value, rather than only at the items of it. -/
def Task.Inspects (t : Task) (v : Value) : Prop :=
  t = .data v ∨ t = .element v ∨ t = .config v

variable {c c' : Call} {P : Node → Prop}

/-! ### Down -/

theorem Call.Yields.view (h : c.Yields g P) (hi : c.task.Inspects v) : Succeeds (g.view v) := by
  obtain ⟨active, task⟩ := c
  rcases hi with rfl | rfl | rfl
  · have hr : Gives (convertWithin g (free g active) v).result P := h
    rw [result_convertWithin] at hr
    exact hr.first
  · have hr : Gives (elementWithin g (free g active) v).result P := h
    rw [result_elementWithin] at hr
    exact hr.first
  · have hr : Gives (elementOf g (free g active) "" v).result P := h ""
    rw [result_elementOf] at hr
    exact hr.first

/-- Nothing that follows a tag depends on the tag. -/
theorem exists_elementOf (g : Graph) (fresh : List Address) (v : Value) :
    ∃ parts : Except Fault (Node × List Node), ∀ tag, (elementOf g fresh tag v).result = (do
      let p ← parts
      return createElement (tagReference tag) p.1 p.2) := by
  cases hv : g.view v with
  | error e => exact ⟨.error e, fun tag => by rw [result_elementOf, hv]; rfl⟩
  | ok view =>
    cases view with
    | mapping a entries =>
      by_cases ha : a ∈ fresh
      · refine ⟨do
          let children ← (match entries.find? isChildrenEntry with
            | some (_, content) => (childrenWithin g (fresh.erase a) content).result
            | none => pure [])
          let attributes ← (attributesWithin g (fresh.erase a)
            (entries.filter (!isChildrenEntry ·))).result
          return (attributes, children), fun tag => ?_⟩
        rw [result_elementOf, hv]
        simp only [bind_assoc, pure_bind]
        exact if_pos ha
      · refine ⟨.ok (.null, [.null]), fun tag => ?_⟩
        rw [result_elementOf, hv]
        exact if_neg ha
    | null => exact ⟨.ok (.null, [.null]), fun tag => by rw [result_elementOf, hv]; rfl⟩
    | text s =>
      refine ⟨(fun n => (.null, [n])) <$> interpolate s, fun tag => ?_⟩
      rw [result_elementOf, hv, map_eq_pure_bind, bind_assoc]
      rfl
    | _ =>
      refine ⟨(fun nodes => (.null, nodes)) <$> (childrenWithin g fresh v).result, fun tag => ?_⟩
      rw [result_elementOf, hv, map_eq_pure_bind, bind_assoc]
      rfl

theorem succeeds_data_of_attributes {data : Value → Traced Node} {entries : List (Value × Value)}
    (h : Succeeds (attributesWith g data entries).result) {e : Value × Value} (he : e ∈ entries)
    (hr : ¬ IsRaw g e.2) : Succeeds (data e.2).result := by
  rw [result_attributesWith] at h
  split at h
  · cases he
  · have hone := succeeds_mapM_iff.mp h.first e he
    rw [result_attributeProperty] at hone
    obtain ⟨code, hcode, hnode⟩ := gives_bind_iff.mp hone
    rcases code with _ | ⟨_ | _, code⟩
    · exact hnode.first
    · exact absurd ⟨code, hcode⟩ hr
    · exact hnode.first

/-- A call that succeeds makes calls that succeed. -/
theorem Call.Yields.calls (h : c.Yields g fun _ => True) (hc : Calls g c c') :
    c'.Yields g fun _ => True := by
  cases hc with
  | @dataItem active v item a items hv ha hi =>
    have hr : Gives (convertWithin g (free g active) v).result _ := h
    rw [data_sequence hv, if_neg ha] at hr
    exact succeeds_mapM_iff.mp hr.first item hi
  | @dataEntry active v e a entries hv ha he =>
    have hr : Gives (convertWithin g (free g active) v).result _ := h
    rw [data_mapping hv, if_neg ha] at hr
    obtain ⟨key, -, hvalue⟩ := gives_bind_iff.mp (succeeds_mapM_iff.mp hr.first e he)
    exact hvalue.first
  | @elementItem active v item a items hv ha hi =>
    have hr : Gives (elementWithin g (free g active) v).result _ := h
    rw [element_sequence hv, if_neg ha] at hr
    exact succeeds_mapM_iff.mp hr.first item hi
  | @elementConfig active v e a entries hv ha =>
    have hr : Gives (elementWithin g (free g active) v).result _ := h
    rw [element_mapping hv, if_neg ha] at hr
    obtain ⟨tag, -, hconfig⟩ := gives_bind_iff.mp hr
    obtain ⟨parts, hparts⟩ := exists_elementOf g (free g (a :: active)) e.2
    -- the element was made for one tag, and for another one the same follows it
    rw [hparts] at hconfig
    intro tag'
    rw [hparts]
    exact hconfig.first.bind fun p => succeeds_pure _
  | @attributeValue active v e a entries hv ha he hraw =>
    have hr : Gives (elementOf g (free g active) "" v).result _ := h ""
    rw [config_mapping hv, if_neg ha] at hr
    obtain ⟨children, -, hattributes⟩ := gives_bind_iff.mp hr
    exact succeeds_data_of_attributes hattributes.first he hraw
  | @children active v e a entries hv ha he =>
    have hr : Gives (elementOf g (free g active) "" v).result _ := h ""
    rw [config_mapping hv, if_neg ha, he] at hr
    exact hr.first.imp fun _ _ _ _ => trivial
  | @content active v view hv hcontent =>
    have hr : Gives (elementOf g (free g active) "" v).result _ := h ""
    rw [config_content hv hcontent] at hr
    exact hr.first.imp fun _ _ _ _ => trivial
  | @child active v item items hv hi =>
    have hr : Gives (childrenWithin g (free g active) v).result _ := h
    rw [children_items hv] at hr
    exact succeeds_mapM_iff.mp hr.succeeds item hi
  | @onlyChild active v hv =>
    have hr : Gives (childrenWithin g (free g active) v).result _ := h
    rw [children_single hv] at hr
    exact hr.first

/-! ### Up -/

theorem printable_createElement (tag : String) {attributes : Node} {children : List Node}
    (ha : Printable attributes) (hc : ∀ c ∈ children, Printable c) :
    Printable (createElement (tagReference tag) attributes children) := by
  have htag : Printable (tagReference tag) := by
    rcases tagReference_eq tag with h | h
    · rw [h]
      exact .name tag
    · rw [h]
      exact .text tag
  exact .call (.member (.name _) _)
    (List.forall_mem_cons.mpr ⟨htag, List.forall_mem_cons.mpr ⟨ha, hc⟩⟩)

theorem printableProperty {key value : Node}
    (hk : ∃ (text : String) (isName : Bool), key = if isName then .name text else .text text)
    (hv : Printable value) : PrintableProperty (.property key value) := by
  obtain ⟨text, isName, rfl⟩ := hk
  exact ⟨text, isName, value, rfl, hv⟩

theorem gives_attributeProperty {data : Value → Traced Node} {key value : Value}
    (hk : Short g key) (hs : Short g value)
    (hdata : ¬ IsRaw g value → Succeeds (g.code? value) ∧ Gives (data value).result Printable) :
    Gives (attributeProperty g data key value).result PrintableProperty := by
  obtain ⟨code, hcode, hnode⟩ : Gives (g.code? value) fun code =>
      Gives (attributeResult data value code) Printable := by
    by_cases hr : IsRaw g value
    · obtain ⟨code, hcode⟩ := hr
      exact ⟨_, hcode, gives_rawAttribute (hs.code hcode)⟩
    · obtain ⟨⟨code, hcode, -⟩, hnode⟩ := hdata hr
      refine ⟨code, hcode, ?_⟩
      rcases code with _ | ⟨_ | _, code⟩
      · exact hnode
      · exact absurd ⟨code, hcode⟩ hr
      · exact hnode
  rw [result_attributeProperty]
  exact Gives.bind_of_eq hcode <| hnode.bind fun node hn =>
    hk.gives_propertyKey.bind fun key hkey => gives_pure (printableProperty hkey hn)

theorem gives_attributes {data : Value → Traced Node} {entries : List (Value × Value)}
    (h : ∀ e ∈ entries, Gives (attributeProperty g data e.1 e.2).result PrintableProperty) :
    Gives (attributesWith g data entries).result Printable := by
  rw [result_attributesWith]
  split
  · exact gives_ok .null
  · exact (gives_mapM h).bind fun properties hp => gives_pure (printable_object hp)

section Views

variable {active : List Address} {view : View}

theorem printable_number {n : Script.Number} (h : ShortView g (.number n)) :
    Printable (.number n) := by
  cases n with
  | int n => exact .int h
  | float x => exact .float x

theorem gives_data (hs : Short g v) (hv : g.view v = .ok view)
    (hc : ∀ c, Calls g ⟨active, .data v⟩ c → c.Yields g Printable) :
    Gives (convertWithin g (free g active) v).result Printable := by
  have hview := hs.view hv
  cases view with
  | sequence a items =>
    rw [data_sequence hv]
    split
    · exact gives_ok .null
    · next ha =>
      exact (gives_mapM fun item hi => hc _ (.dataItem hv ha hi)).bind fun nodes hn =>
        gives_pure (.array hn)
  | mapping a entries =>
    rw [data_mapping hv]
    split
    · exact gives_ok .null
    · next ha =>
      refine (gives_mapM fun e he => ?_).bind fun properties hp => gives_pure (printable_object hp)
      have hvalue : Gives (convertWithin g (free g (a :: active)) e.2).result Printable :=
        hc _ (.dataEntry hv ha he)
      exact (hview e he).1.gives_propertyKey.bind fun key hkey =>
        hvalue.bind fun value hp => gives_pure (printableProperty hkey hp)
  | null => rw [result_convertWithin, hv]; exact gives_ok .null
  | bool b => rw [result_convertWithin, hv]; exact gives_ok (.bool b)
  | number n => rw [result_convertWithin, hv]; exact gives_ok (printable_number hview)
  | text s => rw [result_convertWithin, hv]; exact gives_interpolate hview
  | code c => rw [result_convertWithin, hv]; exact Snippet.gives_ofChars hview
  | other =>
    rw [result_convertWithin]
    exact Gives.bind_of_eq hv <|
      Gives.bind hs.succeeds_display fun text _ => gives_pure (.text text)

theorem gives_element (hs : Short g v) (hv : g.view v = .ok view)
    (hc : ∀ c, Calls g ⟨active, .element v⟩ c → c.Yields g Printable) :
    Gives (elementWithin g (free g active) v).result Printable := by
  have hview := hs.view hv
  cases view with
  | sequence a items =>
    rw [element_sequence hv]
    split
    · exact gives_ok .null
    · next ha =>
      exact (gives_mapM fun item hi => hc _ (.elementItem hv ha hi)).bind fun nodes hn =>
        gives_pure (.array hn)
  | mapping a entries =>
    cases entries with
    | nil => rw [result_elementWithin, hv]; exact gives_ok .null
    | cons e entries =>
      rw [element_mapping hv]
      split
      · exact gives_ok .null
      · next ha =>
        have htag := (List.forall_mem_cons.mp hview).1.1.succeeds_display
        exact Gives.bind htag fun tag _ => hc _ (.elementConfig hv ha) tag
  | null => rw [result_elementWithin, hv]; exact gives_ok .null
  | bool b => rw [result_elementWithin, hv]; exact gives_ok (.bool b)
  | number n => rw [result_elementWithin, hv]; exact gives_ok (printable_number hview)
  | text s => rw [result_elementWithin, hv]; exact gives_interpolate hview
  | code c => rw [result_elementWithin, hv]; exact Snippet.gives_ofChars hview
  | other =>
    rw [result_elementWithin]
    exact Gives.bind_of_eq hv <|
      Gives.bind hs.succeeds_display fun text _ => gives_pure (.text text)

theorem gives_config (hs : Short g v) (hv : g.view v = .ok view)
    (hc : ∀ c, Calls g ⟨active, .config v⟩ c → c.Yields g Printable) (tag : String) :
    Gives (elementOf g (free g active) tag v).result Printable := by
  have hview := hs.view hv
  cases view with
  | mapping a entries =>
    rw [config_mapping hv]
    split
    · exact gives_ok (printable_createElement tag .null (by simp [Printable.null]))
    · next ha =>
      have hchildren : Gives (match entries.find? isChildrenEntry with
          | some (_, content) => (childrenWithin g (free g (a :: active)) content).result
          | none => pure []) fun nodes => ∀ n ∈ nodes, Printable n := by
        split
        · next he => exact hc _ (.children hv ha he)
        · exact gives_pure (by simp)
      refine hchildren.bind fun children hn => (gives_attributes fun e he => ?_).bind
        fun attributes hp => gives_pure (printable_createElement tag hp hn)
      have hmem : e ∈ entries := (List.mem_filter.mp he).1
      refine gives_attributeProperty (hview e hmem).1 (hview e hmem).2 fun hr => ?_
      -- the value was looked at as data, so that looking for raw code in it is no fault either
      have hdata := hc _ (.attributeValue hv ha he hr)
      have hinspected := hdata.view (.inl rfl)
      exact ⟨Graph.succeeds_code?_iff.mpr (Graph.succeeds_view_iff.mp hinspected), hdata⟩
  | null =>
    rw [result_elementOf, hv]
    exact gives_ok (printable_createElement tag .null (by simp [Printable.null]))
  | text s =>
    rw [result_elementOf]
    exact Gives.bind_of_eq hv <| (gives_interpolate hview).bind fun node hn =>
      gives_pure (printable_createElement tag .null (by simpa using hn))
  | _ =>
    rw [config_content hv rfl]
    exact (hc _ (.content hv rfl)).bind fun nodes hn =>
      gives_pure (printable_createElement tag .null hn)

theorem gives_children (hc : ∀ c, Calls g ⟨active, .children v⟩ c → c.Yields g Printable) :
    Gives (childrenWithin g (free g active) v).result fun nodes => ∀ n ∈ nodes, Printable n := by
  cases hi : g.items? v with
  | some items =>
    rw [children_items hi]
    exact gives_mapM fun item hm => hc _ (.child hi hm)
  | none =>
    rw [children_single hi]
    exact (hc _ (.onlyChild hi)).bind fun node hn => gives_pure (by simpa using hn)

end Views

/-- What a call yields is printable if its value can be viewed and everything that the calls it
makes yield is printable. -/
theorem Call.yields_of_calls (hs : Short g c.task.value)
    (hv : ∀ v, c.task.Inspects v → Succeeds (g.view v))
    (hc : ∀ c', Calls g c c' → c'.Yields g Printable) : c.Yields g Printable := by
  obtain ⟨active, task⟩ := c
  cases task with
  | data v =>
    obtain ⟨view, hview, -⟩ := hv v (.inl rfl)
    exact gives_data hs hview hc
  | element v =>
    obtain ⟨view, hview, -⟩ := hv v (.inr (.inl rfl))
    exact gives_element hs hview hc
  | config v =>
    obtain ⟨view, hview, -⟩ := hv v (.inr (.inr rfl))
    exact gives_config hs hview hc
  | children v => exact gives_children hc

/-! ### The whole way down -/

theorem Calls.short (hc : Calls g c c') (h : Short g c.task.value) : Short g c'.task.value := by
  cases hc with
  | dataItem hv ha hi | elementItem hv ha hi => exact h.view hv _ hi
  | dataEntry hv ha he => exact (h.view hv _ he).2
  | elementConfig hv ha => exact (h.view hv _ List.mem_cons_self).2
  | attributeValue hv ha he hr => exact (h.view hv _ (List.mem_filter.mp he).1).2
  | children hv ha he => exact (h.view hv _ (List.mem_of_find?_eq_some he)).2
  | content hv hc => exact h
  | child hv hi =>
    obtain ⟨a, rfl, hg⟩ := get?_of_items? hv
    exact h.items hg _ hi
  | onlyChild hv => exact h

/-- Everything that a call reaches succeeds if the call succeeds. -/
theorem Call.Yields.reaches (h : c.Yields g fun _ => True) (hr : ReflTransGen (Calls g) c c') :
    c'.Yields g fun _ => True := by
  induction hr with
  | refl => exact h
  | tail _ hc ih => exact ih.calls hc

/-- What a call yields is printable if it reaches no value that cannot be viewed. -/
theorem Call.yields_of_reaches (g : Graph) (c : Call) (hs : Short g c.task.value)
    (hv : ∀ c' v, ReflTransGen (Calls g) c c' → c'.task.Inspects v → Succeeds (g.view v)) :
    c.Yields g Printable := by
  -- the induction is on the calls that are made below `c`, and no way down is endless
  induction c using (wellFounded_calls g).induction with
  | _ c ih =>
    refine Call.yields_of_calls hs (fun v hi => hv c v .refl hi) fun c' hc => ?_
    exact ih c' hc (hc.short hs) fun c'' v hr hi => hv c'' v (hr.head hc) hi

end Componentry.Component
