import Componentry.Yaml.Token.Quoted

/-!
# Plain scalars

A plain scalar has no marks around it.  It ends at a colon before a blank, at a comment, where the
indentation ends, and inside brackets also at a comma or a bracket.  Its lines fold like those of a
quoted scalar.
-/

namespace Componentry.Yaml

/-- Whether `c` separates the parts of a bracketed collection. -/
def isFlowMark (c : Char) : Bool :=
  c == ',' || c == '[' || c == ']' || c == '\x7b' || c == '\x7d'

/-- The characters up to the next place where a plain scalar can be interrupted. -/
def plainWord (inFlow : Bool) : List Char → List Char
  | [] => []
  | c :: rest =>
    let next := rest.headD endMark
    if isWideGap c || (c == ':' && (isWideGap next || (inFlow && isFlowMark next))) ||
        (inFlow && (isFlowMark c || c == '?')) then []
    else c :: plainWord inFlow rest

/-- The breaks of the empty lines from the cursor on, at most `limit` of them; `none` if a document
separator follows one. -/
def readPlainBreaks : (limit : Nat) → Cursor → Option (List Char) × Cursor
  | 0, c => (some [], c)
  | limit + 1, c =>
    if c.atSeparator then (none, c)
    else
      let c := c.skipWhile (· == ' ')
      if isBreak c.here then
        let (lineBreak, c) := c.takeBreak
        let (rest, c) := readPlainBreaks limit c
        (rest.map (lineBreak ++ ·), c)
      else (some [], c)

/-- What stands between two words of a plain scalar: the characters that it comes to, none if the
scalar ends there; the cursor behind it; and whether there is a line break. -/
def readPlainGap (c : Cursor) : List Char × Cursor × Bool :=
  let (blanks, c) := c.takeWhile (· == ' ')
  if isBreak c.here then
    let (lineBreak, c) := c.takeBreak
    let (breaks, c) := readPlainBreaks (c.rest.length + 1) c
    ((breaks.map (folded lineBreak)).getD [], c, true)
  else (blanks, c, false)

/-- The words of a plain scalar, at most `limit` of them.  `gap` is what stands in front of the
first one.  Gives the characters, the mark behind the last word, the cursor, and whether a line
break follows the last word. -/
def readPlainWords (inFlow : Bool) (indent : Nat) :
    (limit : Nat) → (gap : List Char) → (stop : Mark) → (broken : Bool) → Cursor →
      List Char × Mark × Cursor × Bool
  | 0, _, stop, broken, c => ([], stop, c, broken)
  | limit + 1, gap, stop, broken, c =>
    let word := if c.here == '#' then [] else plainWord inFlow c.rest
    if word.isEmpty then ([], stop, c, broken)
    else
      let c := c.advance word.length
      let stop := c.mark
      let (next, c, broken) := readPlainGap c
      if next.isEmpty || c.here == '#' || (!inFlow && c.mark.column < indent) then
        (gap ++ word, stop, c, broken)
      else
        let (rest, stop, c, broken) := readPlainWords inFlow indent limit next stop broken c
        (gap ++ word ++ rest, stop, c, broken)

/-- A plain scalar inside something indented by `outer`: the token, the mark behind it, the cursor,
and whether the scalar is followed by a line break. -/
def readPlain (inFlow : Bool) (outer : Option Nat) (c : Cursor) :
    TokenKind × Mark × Cursor × Bool :=
  let indent := (outer.map (· + 1)).getD 0
  let (chars, stop, next, broken) :=
    readPlainWords inFlow indent (c.rest.length + 1) [] c.mark false c
  (.scalar (String.ofList chars) true, stop, next, broken)

end Componentry.Yaml
