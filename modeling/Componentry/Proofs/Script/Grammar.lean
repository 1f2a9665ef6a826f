import Componentry.Proofs.Script.Token
import Componentry.Script.Node

/-!
# The grammar of expressions

`Reads c ts e` says that the tokens `ts` are a phrase of the category `c`, and that `e` is its tree.
The categories and their productions are those of ECMAScript for the trees that occur here: binary
operations on ten levels, each of them left-associative, over members and calls, over the primary
expressions; and arrow functions, which bind more loosely than all of them.  Spellings that a tree
never needs, such as a comma behind the last item of a list, are left out.

A text is read as an expression when its tokens are a phrase of the loosest category (`ReadsAs`).
-/

namespace Componentry.Script

/-! ## Productions -/

/-- The words that name no variable. -/
def reservedWords : List String :=
  ["await", "break", "case", "catch", "class", "const", "continue", "debugger", "default", "delete",
   "do", "else", "enum", "export", "extends", "false", "finally", "for", "function", "if", "import",
   "in", "instanceof", "new", "null", "return", "super", "switch", "this", "throw", "true", "try",
   "typeof", "var", "void", "while", "with", "yield",
   "let", "static", "implements", "interface", "package", "private", "protected", "public"]

/-- The binary operators, the loosest first. -/
def operatorTable : List (List String) :=
  [["||"], ["&&"], ["|"], ["^"], ["&"], ["==", "!=", "===", "!=="], ["<", ">", "<=", ">="],
   ["<<", ">>", ">>>"], ["+", "-"], ["*", "/", "%"]]

/-- The level of an operator; the loosest ones have level one. -/
def operatorLevel? (operator : String) : Option Nat :=
  (operatorTable.findIdx? (·.contains operator)).map (· + 1)

/-- Phrases with commas between them. -/
def separated : List (List Token) → List Token
  | [] => []
  | ts :: rest => ts ++ rest.flatMap (.mark "," :: ·)

/-- The parameters of an arrow function: one name, or names in parentheses. -/
inductive ArrowHead : List Token → List String → Prop
  | one {w : String} (h : w ∉ reservedWords) : ArrowHead [.word w] [w]
  | several {params : List String} (h : ∀ w ∈ params, w ∉ reservedWords) :
    ArrowHead (.mark "(" :: (separated (params.map fun w => [.word w]) ++ [.mark ")"])) params

/-- The primary expressions of one token. -/
inductive Atom : Token → Node → Prop
  | reference {w : String} (h : w ∉ reservedWords) : Atom (.word w) (.name w)
  | null : Atom (.word "null") .null
  | bool (b : Bool) : Atom (.word (if b then "true" else "false")) (.bool b)
  | text (s : String) : Atom (.text s) (.text s)
  | number (n : Nat) : Atom (.number n) (.number (.int n))

/-- The categories of phrases.  Level eleven of the binary operations is the one of their tightest
operands. -/
inductive Category where
  | primary
  | property
  | leftHand
  | binary (level : Nat)
  | assignment
  deriving DecidableEq, Repr

/-- The tokens are a phrase of the category, and this is its tree. -/
inductive Reads : Category → List Token → Node → Prop
  -- Primary expressions.
  | atom {t : Token} {e : Node} (h : Atom t e) : Reads .primary [t] e
  | array {parts : List (List Token × Node)} (h : ∀ p ∈ parts, Reads .assignment p.1 p.2) :
    Reads .primary (.mark "[" :: (separated (parts.map Prod.fst) ++ [.mark "]"]))
      (.array (parts.map Prod.snd))
  | object {parts : List (List Token × Node)} (h : ∀ p ∈ parts, Reads .property p.1 p.2) :
    Reads .primary (.mark "\x7b" :: (separated (parts.map Prod.fst) ++ [.mark "\x7d"]))
      (.object (parts.map Prod.snd))
  | grouped {ts : List Token} {e : Node} (h : Reads .assignment ts e) :
    Reads .primary (.mark "(" :: (ts ++ [.mark ")"])) e
  -- Properties of objects.
  | named (n : String) {ts : List Token} {e : Node} (h : Reads .assignment ts e) :
    Reads .property (.word n :: .mark ":" :: ts) (.property (.name n) e)
  | quoted (s : String) {ts : List Token} {e : Node} (h : Reads .assignment ts e) :
    Reads .property (.text s :: .mark ":" :: ts) (.property (.text s) e)
  -- Members and calls.
  | ofPrimary {ts : List Token} {e : Node} (h : Reads .primary ts e) : Reads .leftHand ts e
  | member {ts : List Token} {e : Node} (h : Reads .leftHand ts e) (p : String) :
    Reads .leftHand (ts ++ [.mark ".", .word p]) (.member e (.name p))
  | call {ts : List Token} {e : Node} {parts : List (List Token × Node)} (h : Reads .leftHand ts e)
    (ha : ∀ p ∈ parts, Reads .assignment p.1 p.2) :
    Reads .leftHand (ts ++ .mark "(" :: (separated (parts.map Prod.fst) ++ [.mark ")"]))
      (.call e (parts.map Prod.snd))
  -- Binary operations.
  | ofLeftHand {ts : List Token} {e : Node} (h : Reads .leftHand ts e) : Reads (.binary 11) ts e
  | ofTighter {k : Nat} {ts : List Token} {e : Node} (hk : k ≤ 10)
    (h : Reads (.binary (k + 1)) ts e) : Reads (.binary k) ts e
  | operation {k : Nat} {operator : String} {ls rs : List Token} {l r : Node}
    (ho : operatorLevel? operator = some k) (hl : Reads (.binary k) ls l)
    (hr : Reads (.binary (k + 1)) rs r) :
    Reads (.binary k) (ls ++ .mark operator :: rs) (.binary operator l r)
  -- Arrow functions; a body that starts with a brace is a block.
  | ofBinary {ts : List Token} {e : Node} (h : Reads (.binary 1) ts e) : Reads .assignment ts e
  | arrow {head ts : List Token} {params : List String} {e : Node} (hh : ArrowHead head params)
    (hb : ts.head? ≠ some (.mark "\x7b")) (h : Reads .assignment ts e) :
    Reads .assignment (head ++ .mark "=>" :: ts) (.arrow (params.map .name) e)
  | arrowBlock {head : List Token} {params : List String} (hh : ArrowHead head params) :
    Reads .assignment (head ++ [.mark "=>", .mark "\x7b", .mark "\x7d"])
      (.arrow (params.map .name) (.block []))

/-- The text is that of the expression. -/
def ReadsAs (text : String) (e : Node) : Prop :=
  ∃ ts, tokens text.toList = some ts ∧ Reads .assignment ts e

/-! ## First tokens -/

/-- Whether a phrase may start with a token. -/
def isStart : Token → Bool
  | .mark m => m == "(" || m == "[" || m == "\x7b"
  | _ => true

theorem ArrowHead.exists_cons {head : List Token} {params : List String}
    (h : ArrowHead head params) : ∃ t more, head = t :: more ∧ isStart t = true := by
  cases h with
  | one => exact ⟨_, _, rfl, rfl⟩
  | several => exact ⟨_, _, rfl, rfl⟩

theorem Atom.isStart {t : Token} {e : Node} (h : Atom t e) : isStart t = true := by
  cases h <;> rfl

/-- A phrase has a first token, and not every token is one. -/
theorem Reads.exists_cons {c : Category} {ts : List Token} {e : Node} (h : Reads c ts e) :
    ∃ t more, ts = t :: more ∧ isStart t = true := by
  induction h with
  | atom h => exact ⟨_, _, rfl, h.isStart⟩
  | ofPrimary _ ih | ofLeftHand _ ih | ofTighter _ _ ih | ofBinary _ ih => exact ih
  | member _ _ ih | call _ _ ih _ | operation _ _ _ ih _ =>
    obtain ⟨t, more, rfl, ht⟩ := ih
    exact ⟨t, _, rfl, ht⟩
  | arrow hh _ _ _ | arrowBlock hh =>
    obtain ⟨t, more, rfl, ht⟩ := hh.exists_cons
    exact ⟨t, _, rfl, ht⟩
  | _ => exact ⟨_, _, rfl, rfl⟩

end Componentry.Script
