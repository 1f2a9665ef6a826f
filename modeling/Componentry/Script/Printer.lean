import Componentry.Decimal.Shortest
import Componentry.Fault
import Componentry.Script.Node
import Componentry.Text.Join
import Componentry.Text.Name
import Componentry.Text.Quoted

/-!
# Printing modules

A module is printed one statement a line, with two spaces of indentation for each level, texts in
double quotes, lists on one line and objects on several.  With `annotated` set, the parameters of
function declarations carry the type `any`; nothing else depends on it.

## Parentheses

A binary expression inside another one is parenthesised when it binds less tightly, or equally
tightly on the right hand side.  An arrow function is always parenthesised there.  An operator
outside the table binds most tightly of all.

## Nodes in the wrong place

The printer is defined on all trees and at all levels; below level zero there is no indentation.  A
node where another sort of node belongs is a fault, and the first one that is met is reported.  Parts
are met in reading order, except that a member is read after its object, the name of a function after
its body, and the names of an import after its source.
-/

namespace Componentry.Script

/-! ## Small pieces -/

/-- The indentation of a level. -/
def indent (level : Int) : String :=
  String.ofList (List.replicate (2 * level.toNat) ' ')

/-- A text in parentheses. -/
def parenthesized (s : String) : String :=
  "(" ++ s ++ ")"

/-- The text in parentheses if `p` holds. -/
def parenthesizedIf (p : Bool) (s : String) : String :=
  if p then parenthesized s else s

/-- The raw text of a template segment: a backslash, a backtick and a dollar sign before an
opening brace get a backslash in front. -/
def escapeSegment : List Char → List Char
  | [] => []
  | '\\' :: rest => '\\' :: '\\' :: escapeSegment rest
  | '`' :: rest => '\\' :: '`' :: escapeSegment rest
  | '$' :: '{' :: rest => '\\' :: '$' :: '{' :: escapeSegment rest
  | c :: rest => c :: escapeSegment rest

/-- The text of a number.  A double that is an integer is written as one. -/
def Number.text : Number → Except Fault String
  | .int n => integerText n
  | .float x =>
    if x.isNaN then .ok "NaN"
    else if x.isInfinite then .ok (if x.isNegative then "-Infinity" else "Infinity")
    else
      match x.toInt? with
      | some n => integerText n
      | none => .ok x.text

/-- The type of a number. -/
def Number.typeName : Number → String
  | .int _ => "int"
  | .float _ => "float"

/-- The name that a node is. -/
def Node.nameText : Node → Except Fault String
  | .name n => .ok n
  | other => .error (.noMember other.kind "name")

/-- The text of a property key: quoted unless it is an identifier name. -/
def Node.keyText : Node → Except Fault String
  | .name n => .ok n
  | .text s => .ok (if Text.isIdentifierName s then s else Text.quoted s)
  | .number v => .error (.textExpected v.typeName)
  | .bool _ => .error (.textExpected "bool")
  | .property _ value => .error (.textExpected value.kind)
  | other => .error (.noMember other.kind "value")

/-- How tightly an operator binds. -/
def precedence (operator : String) : Nat :=
  match operator with
  | "||" => 1
  | "&&" => 2
  | "|" => 3
  | "^" => 4
  | "&" => 5
  | "==" | "!=" | "===" | "!==" => 6
  | "<" | "<=" | ">" | ">=" => 7
  | "<<" | ">>" => 8
  | "+" | "-" => 9
  | "*" | "/" | "%" => 10
  | _ => 100

/-- Whether an operand needs parentheses beside `operator`. -/
def Node.needsParentheses (operator : String) (isLeft : Bool) : Node → Bool
  | .arrow _ _ => true
  | .binary inner _ _ =>
    precedence inner < precedence operator || (precedence inner == precedence operator && !isLeft)
  | _ => false

/-- Whether an expression has to be parenthesised before a member access or a call. -/
def Node.isLoose : Node → Bool
  | .binary _ _ _ | .arrow _ _ => true
  | _ => false

/-- Whether an expression is an object. -/
def Node.isObject : Node → Bool
  | .object _ => true
  | _ => false

/-- The raw text of a segment. -/
def Node.raw : Node → Except Fault String
  | .segment raw _ => .ok raw
  | other => .error (.noMember other.kind "raw")

/-- The escaped texts of several segments, one after another. -/
def segmentsText : List Node → Except Fault String
  | [] => .ok ""
  | s :: rest => do
    let head ← s.raw
    return String.ofList (escapeSegment head.toList) ++ (← segmentsText rest)

/-- A block whose statements are printed already, its closing brace at `level`. -/
def blockText (level : Int) (lines : List String) : String :=
  match lines with
  | [] => "\x7b\x7d"
  | _ => "\x7b\n" ++ Text.joined "\n" lines ++ "\n" ++ indent level ++ "\x7d"

/-- An object whose entries are printed already, its closing brace at `level`. -/
def objectText (level : Int) (entries : List String) : String :=
  match entries with
  | [] => "\x7b\x7d"
  | _ => "\x7b\n" ++ Text.joined ",\n" entries ++ "\n" ++ indent level ++ "\x7d"

/-- The parameters of a function declaration. -/
def parameterTexts (annotated : Bool) (params : List Node) : Except Fault (List String) := do
  let names ← params.mapM Node.nameText
  return if annotated then names.map (· ++ ": any") else names

/-- A function declaration whose parts are printed already. -/
def functionText (level : Int) (name : String) (params lines : List String) : String :=
  "function " ++ name ++ parenthesized (Text.joined ", " params) ++ " " ++ blockText level lines

/-- The target of a declaration. -/
def Node.patternText : Node → Except Fault String
  | .arrayPattern elements => do
    return "[" ++ Text.joined ", " (← elements.mapM Node.nameText) ++ "]"
  | .name n => .ok n
  | other => .error (.misplaced .pattern other.kind)

/-- The default and the named bindings of an import, in order.  A named one is renamed where its two
names differ. -/
def bindingTexts : List Node → Except Fault (List String × List String)
  | [] => .ok ([], [])
  | .defaultBinding binding :: rest => do
    let name ← binding.nameText
    let (defaults, named) ← bindingTexts rest
    return (name :: defaults, named)
  | .namedBinding binding imported :: rest => do
    let imported ← imported.nameText
    let name ← binding.nameText
    let (defaults, named) ← bindingTexts rest
    return (defaults, (if imported == name then name else imported ++ " as " ++ name) :: named)
  | _ :: rest => bindingTexts rest

/-- An import whose source is printed already. -/
def importText (bindings : List Node) (source : String) : Except Fault String :=
  match bindings with
  | [] => .ok ("import " ++ source ++ ";")
  | _ => do
    let (defaults, named) ← bindingTexts bindings
    let group := if named.isEmpty then [] else ["\x7b " ++ Text.joined ", " named ++ " \x7d"]
    return "import " ++ Text.joined ", " (defaults ++ group) ++ " from " ++ source ++ ";"

/-- An expression in the place of a statement, parenthesised if it would read as a block or a
function declaration. -/
def expressionLine (text : String) : String :=
  parenthesizedIf ("\x7b".toList.isPrefixOf text.toList || "function".toList.isPrefixOf text.toList)
    text ++ ";"

/-! ## Trees -/

mutual

/-- The text of an expression at a level. -/
def expressionText (annotated : Bool) (level : Int) : Node → Except Fault String
  | .name n => .ok n
  | .text s => .ok (Text.quoted s)
  | .number v => v.text
  | .bool b => .ok (if b then "true" else "false")
  | .null => .ok "null"
  | .template segments expressions => do
    return "`" ++ (← templateText annotated level segments expressions) ++ "`"
  | .member object property => do
    let text ← expressionText annotated level object
    return parenthesizedIf object.isLoose text ++ "." ++ (← property.nameText)
  | .call callee arguments => do
    let text ← expressionText annotated level callee
    let args ← expressionTexts annotated level arguments
    return parenthesizedIf callee.isLoose text ++ parenthesized (Text.joined ", " args)
  | .binary operator left right => do
    let l ← expressionText annotated level left
    let r ← expressionText annotated level right
    return parenthesizedIf (left.needsParentheses operator true) l ++ " " ++ operator ++ " " ++
      parenthesizedIf (right.needsParentheses operator false) r
  | .arrow params (.block body) => do
    let names ← params.mapM Node.nameText
    let lines ← statementTexts annotated (level + 1) body
    return parenthesized (Text.joined ", " names) ++ " => " ++ blockText level lines
  | .arrow params body => do
    let names ← params.mapM Node.nameText
    let text ← expressionText annotated level body
    return parenthesized (Text.joined ", " names) ++ " => " ++ parenthesizedIf body.isObject text
  | .array elements => do
    return "[" ++ Text.joined ", " (← expressionTexts annotated level elements) ++ "]"
  | .object properties => do
    return objectText level (← propertyTexts annotated (level + 1) properties)
  | other => .error (.misplaced .expression other.kind)

/-- The texts of several expressions. -/
def expressionTexts (annotated : Bool) (level : Int) : List Node → Except Fault (List String)
  | [] => .ok []
  | e :: rest => do
    let head ← expressionText annotated level e
    return head :: (← expressionTexts annotated level rest)

/-- The inside of a template: segments and expressions in turn, starting with a segment. -/
def templateText (annotated : Bool) (level : Int) (segments : List Node) :
    List Node → Except Fault String
  | [] => segmentsText segments
  | e :: rest =>
    match segments with
    | [] => .ok ""
    | s :: more => do
      let head ← s.raw
      let text ← expressionText annotated level e
      return String.ofList (escapeSegment head.toList) ++ "$\x7b" ++ text ++ "\x7d" ++
        (← templateText annotated level more rest)

/-- One property on a line of its own at a level. -/
def propertyText (annotated : Bool) (level : Int) : Node → Except Fault String
  | .property key value => do
    let key ← key.keyText
    return indent level ++ key ++ ": " ++ (← expressionText annotated level value)
  | other => .error (.noMember other.kind "key")

/-- The properties of an object, each on a line of its own at a level. -/
def propertyTexts (annotated : Bool) (level : Int) : List Node → Except Fault (List String)
  | [] => .ok []
  | p :: rest => do
    let head ← propertyText annotated level p
    return head :: (← propertyTexts annotated level rest)

/-- One part of a declaration. -/
def declaratorText (annotated : Bool) (level : Int) : Node → Except Fault String
  | .declarator target none => target.patternText
  | .declarator target (some init) => do
    let pattern ← target.patternText
    return pattern ++ " = " ++ (← expressionText annotated level init)
  | .function name params body => do
    let _ ← name.patternText
    throw (.noMember (Node.function name params body).kind "init")
  | other => .error (.noMember other.kind "id")

/-- The parts of a declaration. -/
def declaratorTexts (annotated : Bool) (level : Int) : List Node → Except Fault (List String)
  | [] => .ok []
  | d :: rest => do
    let head ← declaratorText annotated level d
    return head :: (← declaratorTexts annotated level rest)

/-- The text of a statement at a level, with its indentation. -/
def statementText (annotated : Bool) (level : Int) : Node → Except Fault String
  | .importFrom bindings source => do
    let source ← expressionText annotated 0 source
    return indent level ++ (← importText bindings source)
  | .function name params body => do
    let params ← parameterTexts annotated params
    let lines ← blockLines annotated (level + 1) body
    return indent level ++ functionText level (← name.nameText) params lines
  | .exportDefault (.function name params body) => do
    let params ← parameterTexts annotated params
    let lines ← blockLines annotated (level + 1) body
    return indent level ++ "export default " ++ functionText level (← name.nameText) params lines
  | .exportDefault declaration => do
    return indent level ++ "export default " ++ (← expressionText annotated level declaration) ++ ";"
  | .declaration kind declarators => do
    let parts ← declaratorTexts annotated level declarators
    return indent level ++ kind ++ " " ++ Text.joined ", " parts ++ ";"
  | .result none => .ok (indent level ++ "return;")
  | .result (some argument) => do
    return indent level ++ "return " ++ (← expressionText annotated level argument) ++ ";"
  | .expression expression => do
    return indent level ++ expressionLine (← expressionText annotated level expression)
  | .block body => do
    return indent level ++ blockText level (← statementTexts annotated (level + 1) body)
  | .empty => .ok (indent level ++ ";")
  | other => .error (.misplaced .statement other.kind)

/-- The texts of the statements in the body of a function. -/
def blockLines (annotated : Bool) (level : Int) : Node → Except Fault (List String)
  | .block body | .program body => statementTexts annotated level body
  | .function _ _ body | .arrow _ body => .error (.notIterable body.kind)
  | other => .error (.noMember other.kind "body")

/-- The texts of several statements. -/
def statementTexts (annotated : Bool) (level : Int) : List Node → Except Fault (List String)
  | [] => .ok []
  | s :: rest => do
    let head ← statementText annotated level s
    return head :: (← statementTexts annotated level rest)

end

/-- The text of a module: its statements, one after another. -/
def moduleText (annotated : Bool) (tree : Node) : Except Fault String := do
  return Text.joined "\n" (← blockLines annotated 0 tree)

end Componentry.Script
