import Componentry.Fault
import Componentry.Script.Node
import Componentry.Text.Blank
import Componentry.Text.Join
import Componentry.Text.Name

/-!
# Snippets

Documents embed short pieces of code, called snippets.  A snippet is not parsed as a program: an
ordered list of recognisers looks at it, and the first one that knows its shape builds a node.

1. an arrow function `(a, b) => body`;
2. a member of the component's properties, `props.title`;
3. a call `format(value, 2)`, up to the last closing parenthesis;
4. a binary expression `count + 1` with one word on the left;
5. a word, a quoted text or an integer;
6. anything else is kept as it is.

An arrow function with a block for a body gets an empty block.  The arguments of a call are cut at
every comma.  What is right of a binary operator is one operand, whatever stands in it.

The only fault is an integer with too many digits.

## Termination

Both recursions, into the arguments of a call and into the right operand, go to a shorter text:
`length_callParts?`, `length_binaryParts?`.
-/

namespace Componentry.Snippet

open Script (Node)
open Text

/-! ## Shapes -/

/-- The name of the object that holds the component's properties. -/
def propsName : String := "props"

/-- What stands before the last occurrence of `c`. -/
def beforeLast? (c : Char) : List Char → Option (List Char)
  | [] => none
  | d :: ds =>
    match beforeLast? c ds with
    | some before => some (d :: before)
    | none => if d = c then some [] else none

/-- The member that a text starting with `props.` asks for. -/
def memberPart? (cs : List Char) : Option (List Char) :=
  match cs with
  | 'p' :: 'r' :: 'o' :: 'p' :: 's' :: '.' :: member => some member
  | _ => none

/-- The function name and the text of the arguments of a call. -/
def callParts? (cs : List Char) : Option (List Char × List Char) :=
  match splitWord cs with
  | ([], _) => none
  | (name, '(' :: rest) => (beforeLast? ')' rest).map (name, ·)
  | _ => none

/-- Whether `c` is an operator of the binary shape. -/
def isOperator (c : Char) : Bool :=
  c == '+' || c == '-' || c == '*' || c == '/'

/-- The word, the operator and the right operand of a binary expression. -/
def binaryParts? (cs : List Char) : Option (List Char × Char × List Char) :=
  match splitWord cs with
  | ([], _) => none
  | (word, rest) =>
    match trimLeft rest with
    | [] => none
    | [_] => none
    | op :: operand => if isOperator op then some (word, op, operand) else none

/-- The parameters and the body of an arrow function, as texts. -/
def arrowParts? (cs : List Char) : Option (List Char × List Char) :=
  match cs with
  | '(' :: rest =>
    match rest.dropWhile (· != ')') with
    | ')' :: after =>
      match trimLeft after with
      | '=' :: '>' :: c :: body => some (rest.takeWhile (· != ')'), c :: body)
      | _ => none
    | _ => none
  | _ => none

theorem length_beforeLast? {c : Char} {cs before : List Char} (h : beforeLast? c cs = some before) :
    before.length < cs.length := by
  induction cs generalizing before with
  | nil => simp [beforeLast?] at h
  | cons d ds ih =>
    simp only [beforeLast?] at h
    split at h
    · next b hb =>
      have := ih hb
      simp only [Option.some.injEq] at h
      subst h
      simpa using this
    · split at h
      · simp only [Option.some.injEq] at h
        subst h
        simp
      · simp at h

/-- The arguments of a call are shorter than the call. -/
theorem length_callParts? {cs name args : List Char} (h : callParts? cs = some (name, args)) :
    args.length < cs.length := by
  have hlen := length_splitWord_snd_le cs
  simp only [callParts?] at h
  split at h
  · simp at h
  · next name' rest hs =>
    rw [hs] at hlen
    simp only [Option.map_eq_some_iff, Prod.mk.injEq] at h
    obtain ⟨before, hb, -, rfl⟩ := h
    have := length_beforeLast? hb
    simp only [List.length_cons] at hlen
    omega
  · simp at h

/-- The right operand is shorter than the binary expression. -/
theorem length_binaryParts? {cs word operand : List Char} {op : Char}
    (h : binaryParts? cs = some (word, op, operand)) : operand.length < cs.length := by
  have hlen := length_splitWord_snd_le cs
  simp only [binaryParts?] at h
  split at h
  · simp at h
  · next word' rest _ hs =>
    rw [hs] at hlen
    have htrim := length_trimLeft_le rest
    split at h
    · simp at h
    · simp at h
    · next op' operand' _ ht =>
      rw [ht] at htrim
      split at h
      · simp only [Option.some.injEq, Prod.mk.injEq] at h
        obtain ⟨-, -, rfl⟩ := h
        simp only [List.length_cons] at htrim
        simp only at hlen
        omega
      · simp at h

/-! ## Recognisers -/

/-- A word, a quoted text, an integer, or the text kept as it is.  A quoted text loses its first
and its last character, whatever that one is. -/
def atom (cs : List Char) : Except Fault Node :=
  if isWord cs then .ok (.name (String.ofList cs))
  else
    match cs with
    | [] => .ok (.name "")
    | c :: rest =>
      if c == '\'' || c == '"' || c == '`' then .ok (.text (String.ofList rest.dropLast))
      else if cs.all isDigit then
        if digitLimit < cs.length then .error (.tooManyDigits cs.length)
        else .ok (.number (.int (natOfDigits cs)))
      else .ok (.name (String.ofList cs))

/-- The node of a snippet that is no arrow function, by its characters. -/
def expressionOfChars (cs : List Char) : Except Fault Node :=
  let t := trim cs
  match memberPart? t with
  | some member => .ok (.member (.name propsName) (.name (String.ofList member)))
  | none =>
    match _hc : callParts? t with
    | some (name, args) =>
      if (trim args).isEmpty then .ok (.call (.name (String.ofList name)) [])
      else do
        let nodes ← (splitOn ',' args).attach.mapM fun ⟨piece, _⟩ => expressionOfChars piece
        return .call (.name (String.ofList name)) nodes
    | none =>
      match _hb : binaryParts? t with
      | some (word, op, operand) => do
        let right ← expressionOfChars operand
        return .binary op.toString (.name (String.ofList word)) right
      | none => atom t
termination_by cs.length
decreasing_by
  · have h1 := length_callParts? _hc
    have h2 : t.length ≤ cs.length := length_trim_le cs
    have h3 := length_le_of_mem_splitOn ‹piece ∈ splitOn ',' args›
    omega
  · have h1 := length_binaryParts? _hb
    have h2 : t.length ≤ cs.length := length_trim_le cs
    omega

/-- The parameters of an arrow function: the pieces between commas, without the blank ones. -/
def parameters (cs : List Char) : List Node :=
  ((splitOn ',' cs).map trim).filterMap fun p =>
    if p.isEmpty then none else some (.name (String.ofList p))

/-- The node of a snippet, by its characters. -/
def ofChars (cs : List Char) : Except Fault Node :=
  let t := trim cs
  match arrowParts? t with
  | some (params, body) =>
    match trim body with
    | '{' :: _ => .ok (.arrow (parameters params) (.block []))
    | body => do return .arrow (parameters params) (← expressionOfChars body)
  | none => expressionOfChars t

/-- The node of a snippet that is no arrow function. -/
def expression (code : String) : Except Fault Node :=
  expressionOfChars code.toList

/-- The node of a snippet. -/
def parse (code : String) : Except Fault Node :=
  ofChars code.toList

end Componentry.Snippet
