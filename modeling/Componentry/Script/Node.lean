import Componentry.Decimal.Double

/-!
# Module trees

The syntax tree of a generated module.  Expressions, statements and the smaller parts that occur
in them are all nodes, so that a tree can be built piece by piece; which sort of node belongs
where is the printer's business (`Script.Printer`).
-/

namespace Componentry.Script

/-- A number: an integer of any size, or a double. -/
inductive Number where
  | int (n : Int)
  | float (x : Double)
  deriving DecidableEq, Repr

/-- A node of a module tree. -/
inductive Node where
  /-- A name, printed as it is. -/
  | name (name : String)
  | text (value : String)
  | number (value : Number)
  | bool (value : Bool)
  | null
  /-- A literal segment of a template; `tail` marks the last one. -/
  | segment (raw : String) (tail : Bool)
  /-- A template: segments with expressions between them. -/
  | template (segments expressions : List Node)
  | member (object property : Node)
  | call (callee : Node) (arguments : List Node)
  | binary (operator : String) (left right : Node)
  /-- An arrow function; a block as body stands for statements. -/
  | arrow (params : List Node) (body : Node)
  | array (elements : List Node)
  /-- A property of an object; its key is a name or a text. -/
  | property (key value : Node)
  | object (properties : List Node)
  /-- The pattern `[a, b]` that takes a list apart. -/
  | arrayPattern (elements : List Node)
  | block (body : List Node)
  | expression (expression : Node)
  | empty
  | result (argument : Option Node)
  | declarator (target : Node) (init : Option Node)
  | declaration (kind : String) (declarators : List Node)
  | defaultBinding (binding : Node)
  | namedBinding (binding imported : Node)
  | importFrom (bindings : List Node) (source : Node)
  | function (name : Node) (params : List Node) (body : Node)
  | exportDefault (declaration : Node)
  | program (body : List Node)
  /-- Something that is no node, known by its type. -/
  | foreign (type : String)
  deriving Repr, BEq, Inhabited

/-- The standard name of a node's kind. -/
def Node.kind : Node → String
  | .name _ => "Identifier"
  | .text _ => "StringLiteral"
  | .number _ => "NumericLiteral"
  | .bool _ => "BooleanLiteral"
  | .null => "NullLiteral"
  | .segment _ _ => "TemplateElement"
  | .template _ _ => "TemplateLiteral"
  | .member _ _ => "MemberExpression"
  | .call _ _ => "CallExpression"
  | .binary _ _ _ => "BinaryExpression"
  | .arrow _ _ => "ArrowFunctionExpression"
  | .array _ => "ArrayExpression"
  | .property _ _ => "ObjectProperty"
  | .object _ => "ObjectExpression"
  | .arrayPattern _ => "ArrayPattern"
  | .block _ => "BlockStatement"
  | .expression _ => "ExpressionStatement"
  | .empty => "EmptyStatement"
  | .result _ => "ReturnStatement"
  | .declarator _ _ => "VariableDeclarator"
  | .declaration _ _ => "VariableDeclaration"
  | .defaultBinding _ => "ImportDefaultSpecifier"
  | .namedBinding _ _ => "ImportSpecifier"
  | .importFrom _ _ => "ImportDeclaration"
  | .function _ _ _ => "FunctionDeclaration"
  | .exportDefault _ => "ExportDefaultDeclaration"
  | .program _ => "Program"
  | .foreign type => type

/-- Whether a node stands on its own as a statement. -/
def Node.isStatement : Node → Bool
  | .importFrom _ _ | .function _ _ _ | .exportDefault _ | .declaration _ _ | .result _
  | .expression _ | .block _ | .empty => true
  | _ => false

end Componentry.Script
