import Componentry.Yaml.Token.Label

/-!
# Block scalars

A block scalar is a run of lines that are indented more than what they belong to.  Its header says
whether line breaks are kept or folded, how the last ones are treated, and, if the first line
itself starts with a space, how far the lines are indented.
-/

namespace Componentry.Yaml

/-- What becomes of the line breaks at the end of a block scalar. -/
inductive Chomping where
  /-- One stays. -/
  | clip
  /-- None stays. -/
  | strip
  /-- All stay. -/
  | keep
  deriving DecidableEq, Repr

/-- The way of chomping that an indicator asks for. -/
def Chomping.ofChar? : Char → Option Chomping
  | '+' => some .keep
  | '-' => some .strip
  | _ => none

/-- The indentation that an indicator asks for. -/
def readIndentation (start : Mark) (c : Cursor) : Except Trouble (Option Nat × Cursor) :=
  if c.here == '0' then .error (.within .blockScalar start .zeroIndentation c.mark)
  else if c.here.isDigit then .ok (some (c.here.toNat - '0'.toNat), c.step)
  else .ok (none, c)

/-- The chomping that an indicator asks for. -/
def readChomping (c : Cursor) : Option Chomping × Cursor :=
  match Chomping.ofChar? c.here with
  | some chomping => (some chomping, c.step)
  | none => (none, c)

/-- The indicators of a block scalar, in either order. -/
def readIndicators (start : Mark) (c : Cursor) :
    Except Trouble (Chomping × Option Nat × Cursor) := do
  let (first, c) := readChomping c
  let (indentation, c) ← readIndentation start c
  let (second, c) :=
    if first.isNone && indentation.isSome then readChomping c else (none, c)
  if isGap c.here then return ((first.or second).getD .clip, indentation, c)
  else throw (expectedAt .blockScalar start "chomping or indentation indicators" c)

/-- The cursor behind the spaces that belong to an indentation. -/
def skipIndentation (indent : Nat) (c : Cursor) : Cursor :=
  c.advance (min (c.rest.takeWhile (· == ' ')).length (indent - c.mark.column))

/-- The empty lines from the cursor on, at most `limit` of them: the breaks, the mark behind the
last of them, and the cursor behind the indentation of the line that follows. -/
def readBlockBreaks (indent : Nat) (stop : Mark) :
    (limit : Nat) → Cursor → List Char × Mark × Cursor
  | 0, c => ([], stop, c)
  | limit + 1, c =>
    let c := skipIndentation indent c
    if isBreak c.here then
      let (lineBreak, c) := c.takeBreak
      let (rest, stop, c) := readBlockBreaks indent c.mark limit c
      (lineBreak ++ rest, stop, c)
    else ([], stop, c)

/-- The empty lines from the cursor on, and the widest indentation among them and the line that
follows. -/
def readWidest (widest : Nat) (stop : Mark) :
    (limit : Nat) → Cursor → List Char × Nat × Mark × Cursor
  | 0, c => ([], widest, stop, c)
  | limit + 1, c =>
    let next := c.skipWhile (· == ' ')
    let widest := if c.here == ' ' then max widest next.mark.column else widest
    if isBreak next.here then
      let (lineBreak, next) := next.takeBreak
      let (rest, widest, stop, next) := readWidest widest next.mark limit next
      (lineBreak ++ rest, widest, stop, next)
    else ([], widest, stop, next)

/-- The lines of a block scalar, at most `limit` of them.  `breaks` are the empty lines in front.
Gives the characters, the last line break, the empty lines behind it, and the marks. -/
def readBlockLines (folding : Bool) (indent : Nat) :
    (limit : Nat) → (breaks : List Char) → (stop : Mark) → Cursor →
      List Char × List Char × List Char × Mark × Cursor
  | 0, breaks, stop, c => ([], [], breaks, stop, c)
  | limit + 1, breaks, stop, c =>
    if c.mark.column == indent && c.here != endMark then
      let startsBlank := isSpaceOrTab c.here
      let (line, c) := c.takeWhile (!isBreakOrEnd ·)
      let (lineBreak, c) := c.takeBreak
      let (more, stop, c) := readBlockBreaks indent c.mark (c.rest.length + 1) c
      if c.mark.column == indent && c.here != endMark then
        let between :=
          if folding && lineBreak == ['\n'] && !startsBlank && !isSpaceOrTab c.here then
            if more.isEmpty then [' '] else []
          else lineBreak
        let (rest, last, final, stop, c) := readBlockLines folding indent limit more stop c
        (breaks ++ line ++ between ++ rest, last, final, stop, c)
      else (breaks ++ line, lineBreak, more, stop, c)
    else ([], [], breaks, stop, c)

/-- A block scalar inside something indented by `outer`, the mark behind it, and the cursor. -/
def readBlock (folding : Bool) (outer : Option Nat) (c : Cursor) :
    Except Trouble (TokenKind × Mark × Cursor) := do
  let start := c.mark
  let (chomping, indentation, c) ← readIndicators start c.step
  let c ← endLine .blockScalar start c
  let least := max ((outer.map (· + 1)).getD 0) 1
  let (breaks, indent, stop, c) :=
    match indentation with
    | none =>
      let (breaks, widest, stop, c) := readWidest 0 c.mark (c.rest.length + 1) c
      (breaks, max least widest, stop, c)
    | some n =>
      let indent := least + n - 1
      let (breaks, stop, c) := readBlockBreaks indent c.mark (c.rest.length + 1) c
      (breaks, indent, stop, c)
  let (chars, last, final, stop, c) :=
    readBlockLines folding indent (c.rest.length + 1) breaks stop c
  let tail :=
    match chomping with
    | .strip => []
    | .clip => last
    | .keep => last ++ final
  return (.scalar (String.ofList (chars ++ tail)) false, stop, c)

end Componentry.Yaml
