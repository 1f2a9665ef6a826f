import Componentry.Proofs.Yaml.PlainText
import Componentry.Proofs.Yaml.Readable

/-!
# Plain scalars of a document

A scalar of a document is plain and has no tag, or it is in quotes or has a tag.  This goes through all
of the way from a text to a document: what the tokens of plain scalars look like, where the nodes come
from, and what the values of nodes are.

**Main statement.** A plain scalar without a tag has the value of the core schema, but for the texts that
depart from it, and it is in the way of loading just when it is refused (`loads_plain_scalars`).  Digits
with a zero in front are such a text (`loads_plain_scalars_zeros`).
-/

namespace Componentry.Yaml

/-- The node is a scalar of the text that is plain and has no tag.  Where nothing is written there is an
empty one. -/
structure IsPlainScalar (text : List Char) (nodes : Array Node) (id : NodeId) (t : String) : Prop where
  content : (nodeIn nodes id).content = .scalar t
  tag : (nodeIn nodes id).tag = implicitTag t
  spelled : Reader.SpelledBy (TokenStream.ofText text).tokens (nodeIn nodes id) false true t

/-- The node is a scalar of the text with a tag in front of it, or one that is not plain. -/
def IsMarkedScalar (text : List Char) (nodes : Array Node) (id : NodeId) (t : String) : Prop :=
  ∃ tagged plain, (tagged = true ∨ plain = false) ∧
    Reader.SpelledBy (TokenStream.ofText text).tokens (nodeIn nodes id) tagged plain t

variable {text : List Char} {nodes : Array Node} {id : NodeId} {t : String}

theorem IsPlainScalar.isPlainText (h : IsPlainScalar text nodes id t) : IsPlainText t := by
  obtain ⟨props, -, ⟨token, hkind, hinfix, -⟩ | ⟨-, rfl, -, -⟩⟩ := h.spelled
  · have hmem : token ∈ (TokenStream.ofText text).tokens :=
      hinfix.subset (List.mem_append_right props (List.mem_singleton_self token))
    exact isPlainText_of_ofText hmem hkind
  · exact ⟨by decide, by decide⟩

/-- A plain scalar that is not refused can be read. -/
theorem IsPlainScalar.readable (h : IsPlainScalar text nodes id t) (hr : ¬ Refused t) :
    Readable nodes id := by
  have hresolves : ∃ s, Resolves (id + 1) t s := (exists_resolves_iff h.isPlainText).mpr hr
  obtain ⟨s, form, hf, hs⟩ := hresolves
  exact .scalar (h.tag ▸ hf) h.content ⟨s, hs⟩

/-- Every scalar among the nodes of a text is plain or marked. -/
theorem isPlainScalar_or_isMarkedScalar {g : NodeGraph}
    (h : NodeGraph.ofTokens (TokenStream.ofText text) = .ok g) (hlt : id < g.nodes.size)
    (hc : (nodeIn g.nodes id).content = .scalar t) :
    IsPlainScalar text g.nodes id t ∨ IsMarkedScalar text g.nodes id t := by
  have hmem : nodeIn g.nodes id ∈ g.nodes := by
    simp [nodeIn, Array.getD_eq_getD_getElem?, hlt]
  obtain ⟨tag, plain, htag, hspelled⟩ := written_of_ofTokens h _ hmem t hc
  cases tag with
  | some tag => exact .inr ⟨true, plain, .inl rfl, hspelled⟩
  | none =>
    cases plain with
    | false => exact .inr ⟨false, false, .inr rfl, hspelled⟩
    | true => exact .inl ⟨hc, htag, hspelled⟩

theorem eq_of_implicitTag (h : IsPlainText t) (ht : implicitTag t = valueTag) : t = "=" := by
  have hrule := ruledBy_implicitTag h
  generalize implicitTag t = tag at hrule ht
  cases hrule with
  | value heq => exact heq
  | _ => exact absurd ht (by decide)

/-- The value of a plain scalar in an interpretation of the nodes: the key that stands for a whole
mapping is a text after all where it is a key, and everything else is what it resolves to. -/
theorem IsPlainScalar.resolves {g : Graph} {value : NodeId → Option Value} {v : Value}
    (h : IsPlainScalar text nodes id t) (hi : Interprets nodes g value) (hv : value id = some v) :
    ∃ s, v = .scalar s ∧ (Resolves (id + 1) t s ∨ (t = "=" ∧ s = .text t)) := by
  obtain ⟨form, s, hform, hs, rfl⟩ := hi.scalar hv h.content
  refine ⟨s, rfl, ?_⟩
  rcases hform with hf | ⟨ht, rfl⟩
  · exact .inl ⟨form, h.tag ▸ hf, hs⟩
  · exact .inr ⟨eq_of_implicitTag h.isPlainText (h.tag.symm.trans ht), hs⟩

/-- The sign of equality is a text by the core schema. -/
theorem coreValue_equals : CoreValue "=" (.text "=") ∧ ¬ Departs "=".toList := by
  have hd : ¬ Departs "=".toList := not_departs_of_mem (List.mem_singleton_self "=") (by decide)
  exact ⟨(coreValue_iff_text (by decide) (by decide) (by decide) (by decide) (by decide)).mpr hd, hd⟩

/-- A plain scalar with a value has the one of the core schema just when it does not depart. -/
theorem IsPlainScalar.coreValue_iff {g : Graph} {value : NodeId → Option Value} {v : Value}
    (h : IsPlainScalar text nodes id t) (hi : Interprets nodes g value) (hv : value id = some v) :
    ∃ s, v = .scalar s ∧ (CoreValue t s ↔ ¬ Departs t.toList) ∧
      (Departs t.toList → DepartsTo t s) ∧ (Refused t → t = "=") := by
  have hplain := h.isPlainText
  obtain ⟨s, rfl, hs | ⟨rfl, rfl⟩⟩ := h.resolves hi hv
  · refine ⟨s, rfl, Yaml.coreValue_iff hplain hs, departsTo_of_departs hplain hs, fun hr => ?_⟩
    exact absurd hr ((exists_resolves_iff hplain).mp ⟨s, hs⟩)
  · obtain ⟨hc, hd⟩ := coreValue_equals
    exact ⟨_, rfl, iff_of_true hc hd, fun hd' => absurd hd' hd, fun _ => rfl⟩

/-- **Plain scalars and the core schema.** Every scalar of a document is plain and without a tag, or
marked.  If the plain ones are not refused and the other nodes can be read, then the document is loaded.
If it is loaded, then its values interpret the nodes, and each plain scalar has the value of the core
schema just when it does not depart from it; there it has the value of `DepartsTo`.  The only plain
scalar with a value that is refused elsewhere is the key that stands for a whole mapping. -/
theorem loads_plain_scalars {root : NodeId}
    (h : NodeGraph.ofTokens (TokenStream.ofText text) = .ok ⟨nodes, some root⟩) :
    (∀ id < nodes.size, ∀ t, (nodeIn nodes id).content = .scalar t →
      IsPlainScalar text nodes id t ∨ IsMarkedScalar text nodes id t) ∧
    ((∀ id < nodes.size, Readable nodes id ∨ ∃ t, IsPlainScalar text nodes id t ∧ ¬ Refused t) →
      ∃ d, valueOfText text = .ok d) ∧
    ∀ d, valueOfText text = .ok d → ∃ value,
      Interprets nodes d.graph value ∧ value root = some d.root ∧
      ∀ id t v, IsPlainScalar text nodes id t → value id = some v →
        ∃ s, v = .scalar s ∧ (CoreValue t s ↔ ¬ Departs t.toList) ∧
          (Departs t.toList → DepartsTo t s) ∧ (Refused t → t = "=") := by
  have hload : valueOfText text = (Loader.root root).run { nodes } >>= fun r =>
      pure ⟨r.2.graph, r.1⟩ := by
    rw [valueOfText, h]
    rfl
  refine ⟨fun id hlt t hc => isPlainScalar_or_isMarkedScalar h hlt hc, fun hall => ?_, fun d hd => ?_⟩
  · have hreadable : AllReadable nodes := by
      intro id
      by_cases hlt : id < nodes.size
      · rcases hall id hlt with hr | ⟨t, ht, hr⟩
        · exact hr
        · exact ht.readable hr
      · exact readable_of_size_le (Nat.le_of_not_lt hlt)
    rw [hload]
    exact succeeds_iff.mp (Succeeds.bind (succeeds_root hreadable root) fun r => succeeds_pure _)
  · rw [hload] at hd
    cases hroot : (Loader.root root).run { nodes } with
    | error trouble =>
      rw [hroot] at hd
      cases hd
    | ok r =>
      rw [hroot] at hd
      obtain rfl := Except.ok.inj hd
      obtain ⟨hi, hv⟩ := interprets_of_root hroot
      exact ⟨r.2.valueOf, hi, hv, fun id t v ht hv => ht.coreValue_iff hi hv⟩

/-- The nodes of `a: 007`. -/
def paddedSeven : Array Node :=
  #[⟨mappingTag, ⟨0, 0, 0⟩, .mapping [(1, 2)]⟩, ⟨textTag, ⟨0, 0, 0⟩, .scalar "a"⟩,
    ⟨commonTag "float", ⟨3, 0, 3⟩, .scalar "007"⟩]

theorem ofTokens_paddedSeven :
    NodeGraph.ofTokens (TokenStream.ofText "a: 007".toList) = .ok ⟨paddedSeven, some 0⟩ := by
  have h : (NodeGraph.ofTokens (TokenStream.ofText "a: 007".toList)).toOption.map
      (fun g => (g.nodes, g.root)) = some (paddedSeven, some 0) := by
    decide +kernel
  obtain ⟨⟨nodes, root⟩, hg, hparts⟩ := Option.map_eq_some_iff.mp h
  obtain ⟨rfl, rfl⟩ := Prod.mk.inj hparts
  exact toOption_eq_some_iff.mp hg

/-- The digits of `a: 007` are a plain scalar that is loaded as a number with a fraction.  The core
schema has the integer seven for it. -/
theorem loads_plain_scalars_zeros :
    NodeGraph.ofTokens (TokenStream.ofText "a: 007".toList) = .ok ⟨paddedSeven, some 0⟩ ∧
      IsPlainScalar "a: 007".toList paddedSeven 2 "007" ∧ CoreValue "007" (.int 7) ∧
      ∃ d value s, valueOfText "a: 007".toList = .ok d ∧ Interprets paddedSeven d.graph value ∧
        value 2 = some (.scalar s) ∧ DepartsTo "007" s ∧ ¬ CoreValue "007" s := by
  have hplain : IsPlainScalar "a: 007".toList paddedSeven 2 "007" :=
    ⟨rfl, by decide +kernel, [], .none, .inl ⟨⟨.scalar "007" true, ⟨3, 0, 3⟩, ⟨6, 0, 6⟩⟩, rfl,
      by decide +kernel, rfl⟩⟩
  have hall : (['0', '7'].all fun c => decide (Numeral.digit c < 10)) = true := by decide
  have hdigits : ∀ c ∈ ['0', '7'], Numeral.digit c < 10 := fun c hc =>
    of_decide_eq_true (List.all_eq_true.mp hall c hc)
  have hcore : CoreValue "007" (.int 7) :=
    .inl (CoreRule.decimal .none (List.cons_ne_nil '0' _)
      (List.forall_mem_cons.mpr ⟨by decide, hdigits⟩))
  have hdeparts : Departs "007".toList := .zeros .none (List.cons_ne_nil '0' ['7']) hdigits
  have hrefused : ¬ Refused "007" := by
    obtain ⟨x, hx⟩ := exists_floatValue (show isNumber "007".toList = true by decide) 3
    exact (exists_resolves_iff hplain.isPlainText).mp ⟨.float x, .float, by decide +kernel, x, hx, rfl⟩
  have hmap : Form.ofTag? (nodeIn paddedSeven 0).tag = some .map := by decide +kernel
  obtain ⟨-, hloads, hvalues⟩ := loads_plain_scalars ofTokens_paddedSeven
  have hread : ∀ id < paddedSeven.size, Readable paddedSeven id ∨
      ∃ t, IsPlainScalar "a: 007".toList paddedSeven id t ∧ ¬ Refused t := by
    intro id hid
    have hcases : id = 0 ∨ id = 1 ∨ id = 2 := by
      have hlt : id < 3 := hid
      omega
    rcases hcases with rfl | rfl | rfl
    · refine .inl (.collection hmap (.map rfl fun p hp => ?_))
      cases List.mem_singleton.mp hp
      exact ⟨"a", rfl⟩
    · have htext : Form.ofTag? (nodeIn paddedSeven 1).tag = some .text := by decide +kernel
      exact .inl (.scalar htext rfl ⟨.text "a", rfl⟩)
    · exact .inr ⟨"007", hplain, hrefused⟩
  obtain ⟨d, hd⟩ := hloads hread
  obtain ⟨value, hi, hroot, hplains⟩ := hvalues d hd
  have hseven : ∃ v, value 2 = some v := by
    obtain ⟨a, c, -, -, hfills⟩ := hi.collection hroot (.inl hmap) rfl
    cases hfills with
    | map hentries =>
      obtain ⟨e, -, -, hv⟩ := hentries.exists_value (p := (1, 2)) (by decide +kernel)
      exact ⟨_, hv⟩
  obtain ⟨v, hv⟩ := hseven
  obtain ⟨s, rfl, hiff, hto, -⟩ := hplains 2 "007" v hplain hv
  exact ⟨ofTokens_paddedSeven, hplain, hcore, d, value, s, hd, hi, hv, hto hdeparts,
    fun hs => hiff.mp hs hdeparts⟩

end Componentry.Yaml
