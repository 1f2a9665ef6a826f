import Componentry.Text.Blank

/-!
# Places in a text

A `Mark` is a place in a text: how many characters stand before it, its line and its column, all
counted from zero.  In a message it is shown with the line it lies on, cut down where the line is
long, and a caret under the character.

A `Cursor` is a mark together with the text from there on.  Past the end of the text every
character reads as NUL, which a text never contains.

**Main statement.** Moving a cursor on drops that many characters (`rest_advance`), so loops over
the text end because the rest gets shorter.
-/

namespace Componentry.Yaml

/-! ## Characters -/

/-- The character that stands for the end of the text. -/
abbrev endMark : Char := '\x00'

/-- Whether `c` ends a line. -/
def isBreak (c : Char) : Bool :=
  c == '\n' || c == '\r' || c == '\u0085' || c == '\u2028' || c == '\u2029'

/-- Whether `c` ends a line or the text. -/
def isBreakOrEnd (c : Char) : Bool :=
  isBreak c || c == endMark

/-- Whether `c` is a space, or ends a line or the text. -/
def isGap (c : Char) : Bool :=
  c == ' ' || isBreakOrEnd c

/-- Whether `c` is a space or a tab, or ends a line or the text. -/
def isWideGap (c : Char) : Bool :=
  c == '\t' || isGap c

/-- Whether `c` is a space or a tab. -/
def isSpaceOrTab (c : Char) : Bool :=
  c == ' ' || c == '\t'

/-- Whether a text may contain `c`: tabs, line breaks and printing characters. -/
def isAcceptable (c : Char) : Bool :=
  let n := c.toNat
  n == 0x09 || n == 0x0A || n == 0x0D || (0x20 ≤ n && n ≤ 0x7E) || n == 0x85 ||
    (0xA0 ≤ n && n ≤ 0xD7FF) || (0xE000 ≤ n && n ≤ 0xFFFD) || 0x10000 ≤ n

/-! ## Marks -/

/-- A place in a text. -/
structure Mark where
  index : Nat := 0
  line : Nat := 0
  column : Nat := 0
  deriving DecidableEq, Repr, Inhabited

namespace Mark

/-- The most characters shown on one side of a mark. -/
def reach : Nat := 36

/-- The characters shown on one side when there are more. -/
def shortReach : Nat := 32

/-- The line around a mark, and a caret under the character. -/
def snippet (m : Mark) (text : List Char) : String :=
  let left := (text.take m.index).reverse.takeWhile (!isBreakOrEnd ·)
  let right := (text.drop m.index).takeWhile (!isBreakOrEnd ·)
  let isLong (side : List Char) : Bool := reach < side.length
  let head := if isLong left then " ... ".toList else []
  let left := if isLong left then left.take shortReach else left
  let tail := if isLong right then " ... ".toList else []
  let right := if isLong right then right.take shortReach else right
  let before := List.replicate 4 ' ' ++ head ++ left.reverse
  String.ofList (before ++ right ++ tail ++ ['\n'] ++
    List.replicate before.length ' ' ++ ['^'])

/-- The text of a mark in a message. -/
def text (m : Mark) (source : List Char) : String :=
  s!"  in \"<unicode string>\", line {m.line + 1}, column {m.column + 1}:\n" ++ m.snippet source

/-- Whether two marks lie on the same line and column. -/
def samePlace (a b : Mark) : Bool :=
  a.line == b.line && a.column == b.column

/-- The mark after the character `c` when `next` follows it.  A carriage return and a line feed
are one break.  A byte order mark has no width. -/
def after (m : Mark) (c : Char) (next : Option Char) : Mark :=
  if c == '\r' then
    if next == some '\n' then { m with index := m.index + 1, column := m.column + 1 }
    else { index := m.index + 1, line := m.line + 1 }
  else if isBreak c then { index := m.index + 1, line := m.line + 1 }
  else if c == '\ufeff' then { m with index := m.index + 1 }
  else { m with index := m.index + 1, column := m.column + 1 }

end Mark

/-! ## Cursors -/

/-- A place in a text and the text from there on. -/
structure Cursor where
  rest : List Char
  mark : Mark := {}
  deriving Repr, Inhabited

namespace Cursor

/-- The character `k` places ahead. -/
def ahead (c : Cursor) (k : Nat) : Char :=
  c.rest.getD k endMark

/-- The character at the cursor. -/
def here (c : Cursor) : Char :=
  c.ahead 0

/-- The cursor one character further. -/
def step (c : Cursor) : Cursor :=
  match c.rest with
  | [] => c
  | d :: rest => ⟨rest, c.mark.after d rest.head?⟩

/-- The cursor `n` characters further. -/
def advance (c : Cursor) : Nat → Cursor
  | 0 => c
  | n + 1 => c.step.advance n

@[simp] theorem rest_step (c : Cursor) : c.step.rest = c.rest.drop 1 := by
  unfold step
  cases h : c.rest <;> simp [h]

/-- **Moving on drops characters.** -/
@[simp] theorem rest_advance (c : Cursor) (n : Nat) : (c.advance n).rest = c.rest.drop n := by
  induction n generalizing c with
  | zero => simp [advance]
  | succ n ih => simp [advance, ih]

/-- The characters from the cursor on as long as `p` holds, and the cursor behind them. -/
def takeWhile (c : Cursor) (p : Char → Bool) : List Char × Cursor :=
  let taken := c.rest.takeWhile p
  (taken, c.advance taken.length)

/-- The cursor behind the characters for which `p` holds. -/
def skipWhile (c : Cursor) (p : Char → Bool) : Cursor :=
  (c.takeWhile p).2

/-- The line break at the cursor as it counts in a text, and the cursor behind it.  All breaks
count as line feeds, but for the line and paragraph separators, which stay what they are. -/
def takeBreak (c : Cursor) : List Char × Cursor :=
  let d := c.here
  if d == '\r' && c.ahead 1 == '\n' then (['\n'], c.advance 2)
  else if d == '\r' || d == '\n' || d == '\u0085' then (['\n'], c.advance 1)
  else if d == '\u2028' || d == '\u2029' then ([d], c.advance 1)
  else ([], c)

/-- Whether a document separator of three characters `d` stands at the cursor. -/
def atTriple (c : Cursor) (d : Char) : Bool :=
  c.ahead 0 == d && c.ahead 1 == d && c.ahead 2 == d && isWideGap (c.ahead 3)

/-- Whether a document separator stands at the cursor. -/
def atSeparator (c : Cursor) : Bool :=
  c.atTriple '-' || c.atTriple '.'

end Cursor

end Componentry.Yaml
