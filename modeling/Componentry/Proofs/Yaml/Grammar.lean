import Componentry.Proofs.Yaml.Token
import Componentry.Yaml.Grammar

/-!
# Where nodes come from

Reading nodes off tokens raises no faults of its own: whatever is wrong there has a place.  The only
fault that can come up is the one behind the last token, which is passed on.  And every scalar among
the nodes is spelled by tokens: what stands in front of it, and its text or nothing (`Written`).

`Faithful` says this of one step.  It holds of all functions of the grammar at once, by induction on
their common limit (`faithfulWithin`).

**Main statements.** A fault in the nodes of a row of tokens is the one that ends the tokens
(`fault_of_ofTokens`), and their scalars are written in the tokens (`written_of_ofTokens`).
-/

namespace Componentry.Yaml

namespace Reader

/-! ## Nodes that tokens make up -/

/-- The tokens are what may stand in front of a node, with a tag among them or not. -/
inductive IsProperties : List Token → (tagged : Bool) → Prop
  | none : IsProperties [] false
  | anchor {a : Token} {name : String} (ha : a.kind = .anchor name) : IsProperties [a] false
  | tag {t : Token} {handle : Option String} {rest : String} (ht : t.kind = .tag handle rest) :
    IsProperties [t] true
  | anchorTag {a t : Token} {name : String} {handle : Option String} {rest : String}
    (ha : a.kind = .anchor name) (ht : t.kind = .tag handle rest) : IsProperties [a, t] true
  | tagAnchor {t a : Token} {name : String} {handle : Option String} {rest : String}
    (ht : t.kind = .tag handle rest) (ha : a.kind = .anchor name) : IsProperties [t, a] true

/-- The node is spelled by properties and a scalar behind them, or by properties alone, or by nothing, and
is where the first of these tokens is. -/
def SpelledBy (tokens : List Token) (n : Node) (tagged plain : Bool) (text : String) : Prop :=
  ∃ props, IsProperties props tagged ∧
    ((∃ token : Token, token.kind = .scalar text plain ∧ props ++ [token] <:+: tokens ∧
      (props ++ [token]).head?.map (·.start) = some n.mark) ∨
    (plain = true ∧ text = "" ∧ props <:+: tokens ∧ ∀ first ∈ props.head?, first.start = n.mark))

/-- If the node is a scalar, then tokens spell it.  It has the tag in front of it, or the one for its
text. -/
def Written (tokens : List Token) (n : Node) : Prop :=
  ∀ text, n.content = .scalar text → ∃ tag plain, n.tag = scalarTag tag plain text ∧
    SpelledBy tokens n tag.isSome plain text

theorem SpelledBy.mono {tokens tokens' : List Token} {n : Node} {tagged plain : Bool} {text : String}
    (h : SpelledBy tokens n tagged plain text) (ht : tokens <:+: tokens') :
    SpelledBy tokens' n tagged plain text := by
  obtain ⟨props, hprops, ⟨token, hkind, hinfix, hmark⟩ | ⟨hplain, htext, hinfix, hmark⟩⟩ := h
  · exact ⟨props, hprops, .inl ⟨token, hkind, hinfix.trans ht, hmark⟩⟩
  · exact ⟨props, hprops, .inr ⟨hplain, htext, hinfix.trans ht, hmark⟩⟩

theorem Written.mono {tokens tokens' : List Token} {n : Node} (h : Written tokens n)
    (ht : tokens <:+: tokens') : Written tokens' n := by
  intro text hc
  obtain ⟨tag, plain, htag, hspelled⟩ := h text hc
  exact ⟨tag, plain, htag, hspelled.mono ht⟩

/-- The empty scalar where nothing is written. -/
theorem written_empty (tokens : List Token) (mark : Mark) :
    Written tokens ⟨implicitTag "", mark, .scalar ""⟩ := by
  rintro _ ⟨⟩
  exact ⟨none, true, rfl, [], .none, .inr ⟨rfl, rfl, List.nil_infix, by simp⟩⟩

theorem written_sequence (tokens : List Token) (tag : String) (mark : Mark) (items : List NodeId) :
    Written tokens ⟨tag, mark, .sequence items⟩ := by
  rintro _ ⟨⟩

theorem written_mapping (tokens : List Token) (tag : String) (mark : Mark)
    (pairs : List (NodeId × NodeId)) : Written tokens ⟨tag, mark, .mapping pairs⟩ := by
  rintro _ ⟨⟩

/-- From the first state on, tokens are left behind and their nodes are added. -/
structure Goes (s s' : Reading) : Prop where
  trouble : s'.trouble = s.trouble
  tokens : s'.tokens <:+ s.tokens
  nodes : ∀ n ∈ s'.nodes, n ∈ s.nodes ∨ Written s.tokens n

theorem goes_refl (s : Reading) : Goes s s :=
  ⟨rfl, List.suffix_rfl, fun _ h => .inl h⟩

theorem Goes.trans {s s' s'' : Reading} (h : Goes s s') (h' : Goes s' s'') : Goes s s'' := by
  refine ⟨h'.trouble.trans h.trouble, h'.tokens.trans h.tokens, fun n hn => ?_⟩
  rcases h'.nodes n hn with hn | hn
  · exact h.nodes n hn
  · exact .inr (hn.mono h.tokens.isInfix)

theorem Goes.push {s s' : Reading} (h : Goes s s') {node : Node} (hn : Written s.tokens node)
    (anchors : List (String × NodeId)) :
    Goes s { s' with nodes := s'.nodes.push node, anchors } := by
  refine ⟨h.trouble, h.tokens, fun n hmem => ?_⟩
  rcases Array.mem_push.mp hmem with hmem | rfl
  · exact h.nodes n hmem
  · exact .inr hn

/-- Replacing the content of a node by a collection. -/
theorem goes_modify (s : Reading) (id : NodeId) {content : Content} (h : ∀ text, content ≠ .scalar text) :
    Goes s { s with nodes := s.nodes.modify id fun node => { node with content } } := by
  refine ⟨rfl, List.suffix_rfl, fun n hmem => ?_⟩
  obtain ⟨k, hk, rfl⟩ := Array.mem_iff_getElem.mp hmem
  rw [Array.getElem_modify]
  split
  · exact .inr fun text hc => absurd hc (h text)
  · exact .inl (Array.getElem_mem _)

/-! ## Steps -/

variable {α β : Type} {x : Reader α} {f : α → Reader β}

/-- At the later state, the step goes on from the first one by reading nodes, and raises no fault but the
one behind the last token. -/
def FaithfulFrom (s s' : Reading) (x : Reader α) : Prop :=
  Meets (x.run s') (fun r => Goes s r.2) fun f => s.trouble = some (.fault f)

/-- The step is faithful from every state. -/
def Faithful (x : Reader α) : Prop :=
  ∀ s, FaithfulFrom s s x

theorem Faithful.after {s s' : Reading} (hx : Faithful x) (h : Goes s s') : FaithfulFrom s s' x :=
  (hx s').imp (fun _ hr => h.trans hr) fun _ hfault => h.trouble ▸ hfault

theorem Faithful.bind (hx : Faithful x) (hf : ∀ a, Faithful (f a)) : Faithful (x >>= f) := by
  intro s
  unfold FaithfulFrom
  rw [StateT.run_bind]
  exact Meets.bind (hx s) fun r hr => (hf r.1).after hr

theorem faithful_pure (a : α) : Faithful (pure a) :=
  fun s => meets_pure (goes_refl s)

theorem faithful_problem {during : Option (Activity × Option Mark)} {what : Problem} {mark : Mark} :
    Faithful (throw (.problem during what mark) : Reader α) :=
  fun _ => meets_problem

theorem faithful_ite {p : Prop} [Decidable p] {y : Reader α} (hx : p → Faithful x)
    (hy : ¬ p → Faithful y) : Faithful (if p then x else y) := by
  split
  · next h => exact hx h
  · next h => exact hy h

theorem faithful_get : Faithful (get : Reader Reading) :=
  fun s => meets_ok (goes_refl s)

theorem faithful_modify {change : Reading → Reading} (h : ∀ s, Goes s (change s)) :
    Faithful (modify change) :=
  fun s => meets_ok (h s)

/-! ## Tokens and nodes -/

/-- The only step that passes on the trouble behind the tokens. -/
theorem Goes.peek_bind {s s' : Reading} (h : Goes s s') {f : Token → Reader β}
    (hf : ∀ token rest, s'.tokens = token :: rest → FaithfulFrom s s' (f token)) :
    FaithfulFrom s s' (peek >>= f) := by
  obtain ⟨htrouble, -, -⟩ := h
  rcases s' with ⟨tokens, trouble, nodes, anchors, handles⟩
  cases tokens with
  | cons token rest => exact hf token rest rfl
  | nil =>
    cases trouble with
    | none => exact meets_problem
    | some trouble =>
      refine ⟨ensures_error trouble, fun f hf => ?_⟩
      cases hf
      exact htrouble.symm

theorem faithful_peek : Faithful peek := by
  intro s
  have h := (goes_refl s).peek_bind fun token _ _ => faithful_pure token s
  rwa [bind_pure] at h

theorem goes_skip (s : Reading) : Goes s { s with tokens := s.tokens.drop 1 } :=
  ⟨rfl, List.drop_suffix 1 s.tokens, fun _ h => .inl h⟩

theorem faithful_skip : Faithful skip :=
  faithful_modify goes_skip

theorem faithful_refuse (activity : Activity) (start : Mark) (problem : String → Problem) :
    Faithful (refuse activity start problem : Reader α) :=
  faithful_peek.bind fun _ => faithful_problem

/-- Adding a node that is written in the tokens from before. -/
theorem Goes.add {s s' : Reading} (h : Goes s s') (anchor : Option String) {node : Node}
    (hn : Written s.tokens node) : FaithfulFrom s s' (add anchor node) := by
  unfold FaithfulFrom Reader.add
  rw [StateT.run_bind]
  refine Meets.bind (meets_ok rfl : Meets (StateT.run get s') (fun r => r = (s', s')) _) ?_
  rintro _ rfl
  dsimp only
  split
  · exact meets_ok (h.push hn _)
  · split
    · exact meets_problem
    · exact meets_ok (h.push hn _)

theorem faithful_add (anchor : Option String) {node : Node} (h : ∀ tokens, Written tokens node) :
    Faithful (add anchor node) :=
  fun s => (goes_refl s).add anchor (h s.tokens)

theorem faithful_fill (id : NodeId) {content : Content} (h : ∀ text, content ≠ .scalar text) :
    Faithful (fill id content) :=
  faithful_modify fun s => goes_modify s id h

theorem faithful_addEmpty (mark : Mark) : Faithful (addEmpty mark) :=
  faithful_add none fun tokens => written_empty tokens mark

theorem faithful_expandTag (start place : Mark) (handle : Option String) (suffix : String) :
    Faithful (expandTag start place handle suffix) := by
  cases handle with
  | none => exact faithful_pure suffix
  | some handle =>
    refine faithful_get.bind fun s => ?_
    split
    · exact faithful_pure _
    · exact faithful_problem

theorem faithful_properties : Faithful properties := by
  refine faithful_peek.bind fun first => ?_
  dsimp only
  split
  · refine faithful_skip.bind fun _ => faithful_peek.bind fun second => ?_
    split
    · exact faithful_skip.bind fun _ => (faithful_expandTag _ _ _ _).bind fun _ => faithful_pure _
    · exact faithful_pure _
  · refine faithful_skip.bind fun _ => faithful_peek.bind fun second => ?_
    split
    · exact faithful_skip.bind fun _ => (faithful_expandTag _ _ _ _).bind fun _ => faithful_pure _
    · exact (faithful_expandTag _ _ _ _).bind fun _ => faithful_pure _
  · exact faithful_pure _

section

variable {s : Reading} {P : β × Reading → Prop}

theorem ensures_peek_bind {f : Token → Reader β}
    (h : ∀ token rest, s.tokens = token :: rest → Ensures ((f token).run s) P) :
    Ensures ((peek >>= f).run s) P := by
  rcases s with ⟨tokens, trouble, nodes, anchors, handles⟩
  cases tokens with
  | nil => exact ensures_error _
  | cons token rest => exact h token rest rfl

theorem ensures_skip_bind {f : Unit → Reader β} {token : Token} {rest : List Token}
    (hs : s.tokens = token :: rest) (h : Ensures ((f ()).run { s with tokens := rest }) P) :
    Ensures ((skip >>= f).run s) P := by
  rcases s with ⟨tokens, trouble, nodes, anchors, handles⟩
  subst hs
  exact h

/-- The full text of a tag leaves the state as it is. -/
theorem ensures_expandTag_bind {f : String → Reader β} (start place : Mark) (handle : Option String)
    (suffix : String) (h : ∀ tag, Ensures ((f tag).run s) P) :
    Ensures ((expandTag start place handle suffix >>= f).run s) P := by
  have htag : Ensures ((expandTag start place handle suffix).run s) fun r => r.2 = s := by
    cases handle with
    | none => exact ensures_ok rfl
    | some handle =>
      unfold expandTag
      rw [StateT.run_bind]
      refine Ensures.bind (ensures_ok rfl : Ensures (StateT.run get s) fun r => r = (s, s)) ?_
      rintro _ rfl
      dsimp only
      split
      · exact ensures_ok rfl
      · exact ensures_error _
  rw [StateT.run_bind]
  refine htag.bind ?_
  rintro ⟨tag, _⟩ rfl
  exact h tag

end

/-- The properties are the tokens that are left behind. -/
theorem ensures_properties (s : Reading) : Ensures (properties.run s) fun r =>
    ∃ props, s.tokens = props ++ r.2.tokens ∧ IsProperties props r.1.tag.isSome ∧
      r.1.start = props.head?.map (·.start) := by
  refine ensures_peek_bind fun first rest hs => ?_
  dsimp only
  split
  · next name hfirst =>
    refine ensures_skip_bind hs (ensures_peek_bind fun second rest' hrest => ?_)
    obtain rfl : rest = second :: rest' := hrest
    split
    · next handle suffix hsecond =>
      refine ensures_skip_bind rfl (ensures_expandTag_bind _ _ _ _ fun tag => ensures_ok ?_)
      exact ⟨[first, second], hs, .anchorTag hfirst hsecond, rfl⟩
    · exact ensures_ok ⟨[first], hs, .anchor hfirst, rfl⟩
  · next handle suffix hfirst =>
    refine ensures_skip_bind hs (ensures_peek_bind fun second rest' hrest => ?_)
    obtain rfl : rest = second :: rest' := hrest
    split
    · next name hsecond =>
      refine ensures_skip_bind rfl (ensures_expandTag_bind _ _ _ _ fun tag => ensures_ok ?_)
      exact ⟨[first, second], hs, .tagAnchor hfirst hsecond, rfl⟩
    · refine ensures_expandTag_bind _ _ _ _ fun tag => ensures_ok ?_
      exact ⟨[first], hs, .tag hfirst, rfl⟩
  · exact ensures_ok ⟨[], rfl, .none, rfl⟩

/-- What is read behind the properties of a node may be spelled by them. -/
theorem faithful_properties_bind {f : Properties → Reader β}
    (h : ∀ p s s' props, Goes s s' → s.tokens = props ++ s'.tokens → IsProperties props p.tag.isSome →
      p.start = props.head?.map (·.start) → FaithfulFrom s s' (f p)) : Faithful (properties >>= f) := by
  intro s
  unfold FaithfulFrom
  rw [StateT.run_bind]
  have hproperties := faithful_properties s
  refine Meets.bind ⟨fun r hr => And.intro (hproperties.ensures r hr) (ensures_properties s r hr),
    hproperties.blames⟩ ?_
  rintro ⟨p, s'⟩ ⟨hgoes, props, htokens, hprops, hstart⟩
  exact h p s s' props hgoes htokens hprops hstart

/-! ## Collections -/

/-- All functions of the grammar are faithful within a limit. -/
structure FaithfulWithin (limit : Nat) : Prop where
  node : ∀ block unindented, Faithful (node block unindented limit)
  nodeUnless : ∀ ends block unindented mark, Faithful (nodeUnless ends block unindented mark limit)
  blockItems : ∀ start, Faithful (blockItems start limit)
  unindentedItems : Faithful (unindentedItems limit)
  pairValue : ∀ ends block, Faithful (pairValue ends block limit)
  blockPairs : ∀ start, Faithful (blockPairs start limit)
  flowItems : ∀ start first, Faithful (flowItems start first limit)
  flowPairs : ∀ start first, Faithful (flowPairs start first limit)

/-- A sequence is added before its items are read, and filled afterwards. -/
theorem faithful_sequence {between : Reader Unit} {items : Reader (List NodeId)} (anchor : Option String)
    (tag : String) (start : Mark) (hb : Faithful between) (h : Faithful items) :
    Faithful (do
      let id ← add anchor ⟨tag, start, .sequence []⟩
      between
      fill id (.sequence (← items))
      return id) :=
  (faithful_add anchor fun tokens => written_sequence tokens tag start []).bind fun _ => hb.bind fun _ =>
    h.bind fun _ => (faithful_fill _ fun _ => Content.noConfusion).bind fun _ => faithful_pure _

/-- The same for mappings. -/
theorem faithful_mapping {pairs : Reader (List (NodeId × NodeId))} (anchor : Option String)
    (tag : String) (start : Mark) (h : Faithful pairs) :
    Faithful (do
      let id ← add anchor ⟨tag, start, .mapping []⟩
      skip
      fill id (.mapping (← pairs))
      return id) :=
  (faithful_add anchor fun tokens => written_mapping tokens tag start []).bind fun _ =>
    faithful_skip.bind fun _ => h.bind fun _ =>
      (faithful_fill _ fun _ => Content.noConfusion).bind fun _ => faithful_pure _

variable {limit : Nat}

theorem faithful_node (h : FaithfulWithin limit) (block unindented : Bool) :
    Faithful (node block unindented (limit + 1)) := by
  rw [Reader.node]
  refine faithful_peek.bind fun first => ?_
  split
  · refine faithful_skip.bind fun _ => faithful_get.bind fun s => ?_
    split
    · exact faithful_pure _
    · exact faithful_problem
  · refine faithful_properties_bind fun p s s' props hgoes htokens hprops hstart => ?_
    refine hgoes.peek_bind fun token rest htoken => ?_
    dsimp only
    split
    · next text plain hkind =>
      refine (hgoes.trans (goes_skip s')).add p.anchor ?_
      rintro _ ⟨⟩
      refine ⟨p.tag, plain, rfl, props, hprops, .inl ⟨token, hkind, ?_, ?_⟩⟩
      · rw [htokens, htoken]
        exact ⟨[], rest, by simp⟩
      · rw [hstart]
        cases props <;> rfl
    · exact (faithful_sequence _ _ _ faithful_skip (h.flowItems _ _)).after hgoes
    · exact (faithful_mapping _ _ _ (h.flowPairs _ _)).after hgoes
    · split
      · exact (faithful_sequence _ _ _ (faithful_pure ()) h.unindentedItems).after hgoes
      split
      · exact (faithful_sequence _ _ _ faithful_skip (h.blockItems _)).after hgoes
      split
      · exact (faithful_mapping _ _ _ (h.blockPairs _)).after hgoes
      split
      · refine hgoes.add p.anchor ?_
        rintro _ ⟨⟩
        refine ⟨p.tag, true, rfl, props, hprops, .inr ⟨rfl, rfl, ?_, fun first hfirst => ?_⟩⟩
        · exact htokens ▸ List.infix_append' [] props _
        · rw [hstart, Option.mem_def.mp hfirst]
          rfl
      · exact (faithful_refuse _ _ _).after hgoes

theorem faithful_nodeUnless (h : FaithfulWithin limit) (ends : List TokenKind)
    (block unindented : Bool) (mark : Mark) :
    Faithful (nodeUnless ends block unindented mark (limit + 1)) := by
  rw [nodeUnless]
  exact faithful_peek.bind fun _ =>
    faithful_ite (fun _ => faithful_addEmpty mark) fun _ => h.node _ _

theorem faithful_blockItems (h : FaithfulWithin limit) (start : Mark) :
    Faithful (blockItems start (limit + 1)) := by
  rw [blockItems]
  refine faithful_peek.bind fun token => ?_
  split
  · exact faithful_skip.bind fun _ => (h.nodeUnless _ _ _ _).bind fun _ =>
      (h.blockItems _).bind fun _ => faithful_pure _
  · exact faithful_skip.bind fun _ => faithful_pure _
  · exact faithful_refuse _ _ _

theorem faithful_unindentedItems (h : FaithfulWithin limit) :
    Faithful (unindentedItems (limit + 1)) := by
  rw [unindentedItems]
  refine faithful_peek.bind fun token => ?_
  split
  · exact faithful_skip.bind fun _ => (h.nodeUnless _ _ _ _).bind fun _ =>
      h.unindentedItems.bind fun _ => faithful_pure _
  · exact faithful_pure _

theorem faithful_pairValue (h : FaithfulWithin limit) (ends : List TokenKind) (block : Bool) :
    Faithful (pairValue ends block (limit + 1)) := by
  rw [pairValue]
  refine faithful_peek.bind fun token => ?_
  split
  · exact faithful_skip.bind fun _ => h.nodeUnless _ _ _ _
  · exact faithful_addEmpty _

theorem faithful_blockPairs (h : FaithfulWithin limit) (start : Mark) :
    Faithful (blockPairs start (limit + 1)) := by
  rw [blockPairs]
  refine faithful_peek.bind fun token => ?_
  dsimp only
  split
  · exact faithful_skip.bind fun _ => (h.nodeUnless _ _ _ _).bind fun _ =>
      (h.pairValue _ _).bind fun _ => (h.blockPairs _).bind fun _ => faithful_pure _
  · exact faithful_skip.bind fun _ => faithful_pure _
  · exact faithful_refuse _ _ _

/-- The comma in front of an item of a bracketed collection, unless it is the first. -/
theorem faithful_comma {rest : Reader α} (first : Bool) (activity : Activity) (start : Mark)
    (words : String) (h : Faithful rest) :
    Faithful (do
      if !first then
        if (← peek).kind == .flowEntry then skip
        else refuse activity start (.expectedFlow words)
      rest) :=
  faithful_ite (fun _ => faithful_peek.bind fun _ =>
    faithful_ite (fun _ => faithful_skip.bind fun _ => h) fun _ =>
      (faithful_refuse _ _ _).bind fun _ => h) fun _ => h

theorem faithful_flowItems (h : FaithfulWithin limit) (start : Mark) (first : Bool) :
    Faithful (flowItems start first (limit + 1)) := by
  rw [flowItems]
  refine faithful_peek.bind fun _ => faithful_ite
    (fun _ => faithful_skip.bind fun _ => faithful_pure _) fun _ => faithful_comma first _ _ _ ?_
  refine faithful_peek.bind fun token => ?_
  split
  · exact faithful_skip.bind fun _ => faithful_pure _
  · refine (faithful_add _ fun tokens => written_mapping tokens _ _ _).bind fun _ =>
      faithful_skip.bind fun _ => (h.nodeUnless _ _ _ _).bind fun _ => (h.pairValue _ _).bind fun _ => ?_
    exact (faithful_fill _ fun _ => Content.noConfusion).bind fun _ =>
      (h.flowItems _ _).bind fun _ => faithful_pure _
  · exact (h.node _ _).bind fun _ => (h.flowItems _ _).bind fun _ => faithful_pure _

theorem faithful_flowPairs (h : FaithfulWithin limit) (start : Mark) (first : Bool) :
    Faithful (flowPairs start first (limit + 1)) := by
  rw [flowPairs]
  refine faithful_peek.bind fun _ => faithful_ite
    (fun _ => faithful_skip.bind fun _ => faithful_pure _) fun _ => faithful_comma first _ _ _ ?_
  refine faithful_peek.bind fun token => ?_
  split
  · exact faithful_skip.bind fun _ => faithful_pure _
  · exact faithful_skip.bind fun _ => (h.nodeUnless _ _ _ _).bind fun _ =>
      (h.pairValue _ _).bind fun _ => (h.flowPairs _ _).bind fun _ => faithful_pure _
  · exact (h.node _ _).bind fun _ => faithful_peek.bind fun _ => (faithful_addEmpty _).bind fun _ =>
      (h.flowPairs _ _).bind fun _ => faithful_pure _

theorem faithfulWithin : ∀ limit, FaithfulWithin limit
  | 0 => by constructor <;> intros <;> exact faithful_problem
  | limit + 1 =>
    have h := faithfulWithin limit
    ⟨faithful_node h, faithful_nodeUnless h, faithful_blockItems h, faithful_unindentedItems h,
      faithful_pairValue h, faithful_blockPairs h, faithful_flowItems h, faithful_flowPairs h⟩

/-! ## Documents -/

theorem faithful_directives : ∀ (limit : Nat) (versioned : Bool) (handles : List (String × String)),
    Faithful (directives versioned handles limit)
  | 0, versioned, handles => faithful_pure _
  | limit + 1, versioned, handles => by
    have hnext := faithful_directives limit
    rw [directives]
    refine faithful_peek.bind fun token => ?_
    split
    · exact faithful_ite (fun _ => faithful_problem) fun _ =>
        faithful_ite (fun _ => faithful_problem) fun _ => faithful_skip.bind fun _ => hnext _ _
    · exact faithful_ite (fun _ => faithful_problem) fun _ => faithful_skip.bind fun _ => hnext _ _
    · exact faithful_skip.bind fun _ => hnext _ _
    · exact faithful_pure _

theorem faithful_skipEnds : ∀ limit, Faithful (skipEnds limit)
  | 0 => faithful_pure _
  | limit + 1 => by
    rw [skipEnds]
    exact faithful_peek.bind fun _ => faithful_ite
      (fun _ => faithful_skip.bind fun _ => faithful_skipEnds limit) fun _ => faithful_pure _

theorem faithful_documentStart (limit : Nat) : Faithful (documentStart limit) := by
  refine (faithful_skipEnds limit).bind fun _ => faithful_peek.bind fun token => ?_
  refine faithful_ite (fun _ => faithful_pure _) fun _ => ?_
  refine (faithful_directives limit _ _).bind fun handles => ?_
  have hhandles : Faithful (modify fun s => { s with handles := handles ++ defaultHandles }) :=
    faithful_modify fun _ => ⟨rfl, List.suffix_rfl, fun _ h => .inl h⟩
  refine hhandles.bind fun _ => faithful_peek.bind fun separator => ?_
  exact faithful_ite (fun _ => faithful_problem) fun _ =>
    faithful_skip.bind fun _ => faithful_pure _

theorem faithful_onlyDocument (limit : Nat) (root : NodeId) : Faithful (onlyDocument limit root) := by
  refine (faithful_documentStart limit).bind fun start => ?_
  cases start with
  | none => exact faithful_pure _
  | some another => exact faithful_get.bind fun _ => faithful_problem

theorem faithful_document (limit : Nat) : Faithful (document limit) := by
  have hnode : Faithful (do onlyDocument limit (← node true false limit)) :=
    ((faithfulWithin limit).node true false).bind (faithful_onlyDocument limit)
  have hempty : Faithful (do onlyDocument limit (← addEmpty (← peek).start)) :=
    faithful_peek.bind fun _ => (faithful_addEmpty _).bind (faithful_onlyDocument limit)
  refine faithful_peek.bind fun first => ?_
  split
  case h_4 => exact hnode
  all_goals
    refine (faithful_documentStart limit).bind fun start => ?_
    refine faithful_ite (fun _ => faithful_pure _) fun _ => faithful_peek.bind fun token => ?_
    split
    case h_5 => exact hnode
    all_goals exact hempty

end Reader

/-- **A fault in the nodes of a row of tokens is the one that ends the tokens.** -/
theorem fault_of_ofTokens {stream : TokenStream} {f : Fault}
    (h : NodeGraph.ofTokens stream = .error (.fault f)) : stream.trouble = some (.fault f) := by
  have hdocument := Reader.faithful_document (4 * stream.tokens.length + 8)
    { tokens := stream.tokens, trouble := stream.trouble }
  have hnodes : Meets (NodeGraph.ofTokens stream) (fun _ => True)
      fun f => stream.trouble = some (.fault f) :=
    Meets.bind hdocument fun _ _ => meets_pure trivial
  exact hnodes.blames f h

/-- **The scalars of a document are written in its tokens.** -/
theorem written_of_ofTokens {stream : TokenStream} {g : NodeGraph}
    (h : NodeGraph.ofTokens stream = .ok g) : ∀ n ∈ g.nodes, Reader.Written stream.tokens n := by
  have hdocument := Reader.faithful_document (4 * stream.tokens.length + 8)
    { tokens := stream.tokens, trouble := stream.trouble }
  have hnodes : Ensures (NodeGraph.ofTokens stream)
      fun g => ∀ n ∈ g.nodes, Reader.Written stream.tokens n :=
    hdocument.ensures.bind fun r hr => ensures_pure fun n hn =>
      (hr.nodes n hn).resolve_left (Array.not_mem_empty n)
  exact hnodes g h

end Componentry.Yaml
