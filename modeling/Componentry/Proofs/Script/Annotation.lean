import Componentry.Script.Printer

/-!
# Annotated modules

With annotations, the parameters of function declarations are printed with a type.  `Node.typed` is
the tree in which that type is part of the names of the parameters.

**Main statement.** An annotated module is printed as the module of its typed tree is printed without
annotations, faults included (`moduleText_typed`).

The proof goes along the functions of the printer.  Beside the parameters of function declarations
nothing is printed in another way, so each of its steps is the equation of one function.
-/

namespace Componentry.Script

/-! ## Typed trees -/

/-- A parameter with its type. -/
def Node.withType : Node → Node
  | .name n => .name (n ++ ": any")
  | e => e

/-- The tree in which every parameter of every function declaration has its type in its name. -/
def Node.typed : Node → Node
  | .name n => .name n
  | .text s => .text s
  | .number v => .number v
  | .bool b => .bool b
  | .null => .null
  | .segment raw tail => .segment raw tail
  | .template ss es => .template (ss.map Node.typed) (es.map Node.typed)
  | .member o p => .member o.typed p.typed
  | .call f as => .call f.typed (as.map Node.typed)
  | .binary op l r => .binary op l.typed r.typed
  | .arrow ps b => .arrow (ps.map Node.typed) b.typed
  | .array es => .array (es.map Node.typed)
  | .property k v => .property k.typed v.typed
  | .object ps => .object (ps.map Node.typed)
  | .arrayPattern es => .arrayPattern (es.map Node.typed)
  | .block b => .block (b.map Node.typed)
  | .expression e => .expression e.typed
  | .empty => .empty
  | .result none => .result none
  | .result (some e) => .result (some e.typed)
  | .declarator t none => .declarator t.typed none
  | .declarator t (some e) => .declarator t.typed (some e.typed)
  | .declaration k ds => .declaration k (ds.map Node.typed)
  | .defaultBinding b => .defaultBinding b.typed
  | .namedBinding b i => .namedBinding b.typed i.typed
  | .importFrom bs e => .importFrom (bs.map Node.typed) e.typed
  | .function n ps b => .function n.typed (ps.map fun p => p.typed.withType) b.typed
  | .exportDefault e => .exportDefault e.typed
  | .program b => .program (b.map Node.typed)
  | .foreign type => .foreign type

/-! ## Small pieces -/

namespace Node

theorem typed_result (e : Option Node) : (result e).typed = .result (e.map typed) := by
  cases e <;> rw [typed] <;> rfl

theorem typed_declarator (t : Node) (e : Option Node) :
    (declarator t e).typed = .declarator t.typed (e.map typed) := by
  cases e <;> rw [typed] <;> rfl

theorem kind_typed (e : Node) : e.typed.kind = e.kind := by
  unfold typed
  split <;> rfl

theorem nameText_typed (e : Node) : e.typed.nameText = e.nameText := by
  unfold typed
  split <;> rfl

theorem isLoose_typed (e : Node) : e.typed.isLoose = e.isLoose := by
  unfold typed
  split <;> rfl

theorem isObject_typed (e : Node) : e.typed.isObject = e.isObject := by
  unfold typed
  split <;> rfl

theorem needsParentheses_typed (e : Node) (operator : String) (isLeft : Bool) :
    e.typed.needsParentheses operator isLeft = e.needsParentheses operator isLeft := by
  unfold typed
  split <;> rfl

theorem raw_typed (e : Node) : e.typed.raw = e.raw := by
  unfold typed
  split <;> rfl

theorem keyText_typed (e : Node) : e.typed.keyText = e.keyText := by
  cases e with
  | property k v => rw [typed, keyText, keyText, kind_typed]
  | _ => simp only [typed, typed_result, typed_declarator, keyText, kind]

end Node

theorem mapM_nameText_typed : ∀ es : List Node,
    (es.map Node.typed).mapM Node.nameText = es.mapM Node.nameText
  | [] => rfl
  | e :: es => by
    rw [List.map_cons, List.mapM_cons, List.mapM_cons, Node.nameText_typed, mapM_nameText_typed es]

theorem Node.patternText_typed (e : Node) : e.typed.patternText = e.patternText := by
  cases e with
  | arrayPattern es => rw [typed, patternText, patternText, mapM_nameText_typed]
  | _ => simp only [typed, typed_result, typed_declarator, patternText, kind]

theorem segmentsText_typed : ∀ ss : List Node, segmentsText (ss.map Node.typed) = segmentsText ss
  | [] => rfl
  | s :: ss => by
    rw [List.map_cons, segmentsText, segmentsText, Node.raw_typed, segmentsText_typed ss]

theorem bindingTexts_typed : ∀ bs : List Node, bindingTexts (bs.map Node.typed) = bindingTexts bs
  | [] => rfl
  | b :: bs => by
    have ih := bindingTexts_typed bs
    rw [List.map_cons]
    cases b with
    | defaultBinding b =>
      rw [Node.typed, bindingTexts, bindingTexts, Node.nameText_typed, ih]
    | namedBinding b i =>
      rw [Node.typed, bindingTexts, bindingTexts, Node.nameText_typed, Node.nameText_typed, ih]
    | _ => simpa only [Node.typed, Node.typed_result, Node.typed_declarator, bindingTexts] using ih

theorem importText_typed (bs : List Node) (source : String) :
    importText (bs.map Node.typed) source = importText bs source := by
  cases bs with
  | nil => rfl
  | cons b bs =>
    have hbindings := bindingTexts_typed (b :: bs)
    rw [List.map_cons] at hbindings ⊢
    rw [importText, importText, hbindings]
    · exact List.cons_ne_nil b bs
    · exact List.cons_ne_nil _ _

/-! ## Parameters -/

theorem Node.nameText_withType (e : Node) :
    e.withType.nameText = e.nameText.map (· ++ ": any") := by
  cases e <;> rfl

/-- The type stands after the name either way. -/
theorem parameterTexts_typed (ps : List Node) :
    parameterTexts true ps = parameterTexts false (ps.map fun p => p.typed.withType) := by
  have hnames : ∀ ps : List Node, (ps.map fun p => p.typed.withType).mapM Node.nameText =
      (ps.mapM Node.nameText).map (List.map (· ++ ": any")) := by
    intro ps
    induction ps with
    | nil => rfl
    | cons p ps ih =>
      rw [List.map_cons, List.mapM_cons, List.mapM_cons, Node.nameText_withType,
        Node.nameText_typed, ih]
      cases p.nameText with
      | error e => rfl
      | ok n => cases ps.mapM Node.nameText <;> rfl
  rw [parameterTexts, parameterTexts, hnames]
  cases ps.mapM Node.nameText <;> rfl

/-! ## Trees -/

/-- Whether a node is a block, which an arrow function has in the place of an expression. -/
def Node.isBlock : Node → Bool
  | .block _ => true
  | _ => false

/-- Whether a node is a function declaration, which is exported as it is. -/
def Node.isFunction : Node → Bool
  | .function _ _ _ => true
  | _ => false

theorem Node.isBlock_typed (e : Node) : e.typed.isBlock = e.isBlock := by
  unfold typed
  split <;> rfl

theorem Node.isFunction_typed (e : Node) : e.typed.isFunction = e.isFunction := by
  unfold typed
  split <;> rfl

theorem expressionText_arrow (annotated : Bool) (level : Int) (ps : List Node) {b : Node}
    (h : b.isBlock = false) :
    expressionText annotated level (.arrow ps b) = (do
      let names ← ps.mapM Node.nameText
      let text ← expressionText annotated level b
      return parenthesized (Text.joined ", " names) ++ " => " ++ parenthesizedIf b.isObject text) := by
  rw [expressionText]
  rintro body rfl
  cases h

theorem statementText_export (annotated : Bool) (level : Int) {e : Node}
    (h : e.isFunction = false) :
    statementText annotated level (.exportDefault e) = (do
      return indent level ++ "export default " ++ (← expressionText annotated level e) ++ ";") := by
  rw [statementText]
  rintro n ps b rfl
  cases h

mutual

theorem expressionText_typed (level : Int) (e : Node) :
    expressionText true level e = expressionText false level e.typed := by
  cases e with
  | template ss es =>
    rw [Node.typed, expressionText, expressionText, templateText_typed level ss es]
  | member o p =>
    rw [Node.typed, expressionText, expressionText, expressionText_typed level o, Node.isLoose_typed,
      Node.nameText_typed]
  | call f as =>
    rw [Node.typed, expressionText, expressionText, expressionText_typed level f,
      expressionTexts_typed level as, Node.isLoose_typed]
  | binary op l r =>
    rw [Node.typed, expressionText, expressionText, expressionText_typed level l,
      expressionText_typed level r, Node.needsParentheses_typed, Node.needsParentheses_typed]
  | arrow ps b =>
    have ih := expressionText_typed level b
    rw [Node.typed]
    cases hb : b.isBlock with
    | false =>
      rw [expressionText_arrow true level ps hb, expressionText_arrow, mapM_nameText_typed, ih,
        Node.isObject_typed]
      rw [Node.isBlock_typed, hb]
    | true =>
      cases b with
      | block b =>
        rw [Node.typed, expressionText, expressionText, mapM_nameText_typed,
          statementTexts_typed (level + 1) b]
      | _ => cases hb
  | array es => rw [Node.typed, expressionText, expressionText, expressionTexts_typed level es]
  | object ps =>
    rw [Node.typed, expressionText, expressionText, propertyTexts_typed (level + 1) ps]
  | _ => simp only [Node.typed, Node.typed_result, Node.typed_declarator, expressionText, Node.kind]

theorem expressionTexts_typed (level : Int) : ∀ es : List Node,
    expressionTexts true level es = expressionTexts false level (es.map Node.typed)
  | [] => by rw [List.map_nil, expressionTexts, expressionTexts]
  | e :: es => by
    rw [List.map_cons, expressionTexts, expressionTexts, expressionText_typed level e,
      expressionTexts_typed level es]

theorem templateText_typed (level : Int) : ∀ ss es : List Node,
    templateText true level ss es = templateText false level (ss.map Node.typed) (es.map Node.typed)
  | ss, [] => by rw [List.map_nil, templateText, templateText, segmentsText_typed]
  | [], e :: es => by rw [List.map_nil, List.map_cons, templateText, templateText]
  | s :: ss, e :: es => by
    rw [List.map_cons, List.map_cons, templateText, templateText, Node.raw_typed,
      expressionText_typed level e, templateText_typed level ss es]

theorem propertyText_typed (level : Int) (p : Node) :
    propertyText true level p = propertyText false level p.typed := by
  cases p with
  | property k v =>
    rw [Node.typed, propertyText, propertyText, Node.keyText_typed, expressionText_typed level v]
  | _ => simp only [Node.typed, Node.typed_result, Node.typed_declarator, propertyText, Node.kind]

theorem propertyTexts_typed (level : Int) : ∀ ps : List Node,
    propertyTexts true level ps = propertyTexts false level (ps.map Node.typed)
  | [] => by rw [List.map_nil, propertyTexts, propertyTexts]
  | p :: ps => by
    rw [List.map_cons, propertyTexts, propertyTexts, propertyText_typed level p,
      propertyTexts_typed level ps]

theorem declaratorText_typed (level : Int) (d : Node) :
    declaratorText true level d = declaratorText false level d.typed := by
  cases d with
  | declarator t init =>
    rw [Node.typed_declarator]
    cases init with
    | none => rw [Option.map_none, declaratorText, declaratorText, Node.patternText_typed]
    | some e =>
      rw [Option.map_some, declaratorText, declaratorText, Node.patternText_typed,
        expressionText_typed level e]
  | function n ps b =>
    rw [Node.typed, declaratorText, declaratorText, Node.patternText_typed]
    rfl
  | _ => simp only [Node.typed, Node.typed_result, declaratorText, Node.kind]

theorem declaratorTexts_typed (level : Int) : ∀ ds : List Node,
    declaratorTexts true level ds = declaratorTexts false level (ds.map Node.typed)
  | [] => by rw [List.map_nil, declaratorTexts, declaratorTexts]
  | d :: ds => by
    rw [List.map_cons, declaratorTexts, declaratorTexts, declaratorText_typed level d,
      declaratorTexts_typed level ds]

theorem statementText_typed (level : Int) (s : Node) :
    statementText true level s = statementText false level s.typed := by
  cases s with
  | importFrom bs e =>
    rw [Node.typed, statementText, statementText, expressionText_typed 0 e]
    simp only [importText_typed]
  | function n ps b =>
    rw [Node.typed, statementText, statementText, parameterTexts_typed,
      blockLines_typed (level + 1) b, Node.nameText_typed]
  | exportDefault e =>
    have ih := expressionText_typed level e
    rw [Node.typed]
    cases he : e.isFunction with
    | false =>
      rw [statementText_export true level he, statementText_export, ih]
      rw [Node.isFunction_typed, he]
    | true =>
      cases e with
      | function n ps b =>
        rw [Node.typed, statementText, statementText, parameterTexts_typed,
          blockLines_typed (level + 1) b, Node.nameText_typed]
      | _ => cases he
  | declaration k ds => rw [Node.typed, statementText, statementText, declaratorTexts_typed level ds]
  | result argument =>
    rw [Node.typed_result]
    cases argument with
    | none => rw [Option.map_none, statementText, statementText]
    | some e => rw [Option.map_some, statementText, statementText, expressionText_typed level e]
  | expression e => rw [Node.typed, statementText, statementText, expressionText_typed level e]
  | block b => rw [Node.typed, statementText, statementText, statementTexts_typed (level + 1) b]
  | _ => simp only [Node.typed, Node.typed_declarator, statementText, Node.kind]

theorem blockLines_typed (level : Int) (b : Node) :
    blockLines true level b = blockLines false level b.typed := by
  cases b with
  | block b | program b => rw [Node.typed, blockLines, blockLines, statementTexts_typed level b]
  | function _ _ b | arrow _ b => rw [Node.typed, blockLines, blockLines, Node.kind_typed]
  | _ => simp only [Node.typed, Node.typed_result, Node.typed_declarator, blockLines, Node.kind]

theorem statementTexts_typed (level : Int) : ∀ ss : List Node,
    statementTexts true level ss = statementTexts false level (ss.map Node.typed)
  | [] => by rw [List.map_nil, statementTexts, statementTexts]
  | s :: ss => by
    rw [List.map_cons, statementTexts, statementTexts, statementText_typed level s,
      statementTexts_typed level ss]

end

/-- **An annotated module is printed as its typed tree is without annotations.** -/
theorem moduleText_typed (tree : Node) : moduleText true tree = moduleText false tree.typed := by
  rw [moduleText, moduleText, blockLines_typed]

end Componentry.Script
