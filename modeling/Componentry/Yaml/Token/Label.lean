import Componentry.Text.Utf8
import Componentry.Yaml.Token
import Componentry.Yaml.Trouble

/-!
# Names, tags and directives

The tokens that name things: anchors and aliases, tags with their handles, and directives.  Each
reader starts at the first character of the token and gives what it read and the cursor behind it.
-/

namespace Componentry.Yaml

/-- Whether `c` may stand in a name. -/
def isNameChar (c : Char) : Bool :=
  c.isAlphanum || c == '-' || c == '_'

/-- Whether `c` may stand in the text of a tag. -/
def isUriChar (c : Char) : Bool :=
  c.isAlphanum || "-;/?:@&=+$,_.!~*'()[]%".toList.contains c

/-- The complaint that another character is expected at the cursor. -/
def expectedAt (activity : Activity) (start : Mark) (what : String) (c : Cursor) : Trouble :=
  .within activity start (.expected what c.here) c.mark

/-- The words for a character of a name in complaints. -/
def nameWords : String := "alphabetic or numeric character"

/-- The name of an anchor or an alias, behind its indicator. -/
def readAnchor (activity : Activity) (c : Cursor) : Except Trouble (String × Cursor) :=
  let start := c.mark
  let c := c.step
  let (name, next) := c.takeWhile isNameChar
  if name.isEmpty then .error (expectedAt activity start nameWords c)
  else if isWideGap next.here || "?:,]\x7d%@`".toList.contains next.here then
    .ok (String.ofList name, next)
  else .error (expectedAt activity start nameWords next)

/-! ## Tags -/

/-- Whether a token is read or its parts are.  The words of complaints differ. -/
structure LabelActivity where
  scan : Activity
  parts : Activity

/-- The activities for tags. -/
def tagActivity : LabelActivity := ⟨.tag, .tagParts⟩

/-- The activities for directives. -/
def directiveActivity : LabelActivity := ⟨.directive, .directiveParts⟩

/-- The handle of a tag: an exclamation mark alone before a space, or a name between two of
them. -/
def readHandle (activity : LabelActivity) (start : Mark) (c : Cursor) :
    Except Trouble (String × Cursor) :=
  if c.here != '!' then .error (expectedAt activity.scan start "'!'" c)
  else if c.ahead 1 == ' ' then .ok ("!", c.step)
  else
    let (name, next) := c.step.takeWhile isNameChar
    if next.here != '!' then .error (expectedAt activity.scan start "'!'" next)
    else .ok (String.ofList ('!' :: name ++ ['!']), next.step)

/-- The octets of a row of at most `limit` escapes. -/
def readOctets (activity : LabelActivity) (start : Mark) :
    (limit : Nat) → Cursor → Except Trouble (List UInt8 × Cursor)
  | 0, c => .ok ([], c)
  | limit + 1, c =>
    if c.here != '%' then .ok ([], c)
    else
      let c := c.step
      match (List.range 2).find? fun k => (Text.hexValue? (c.ahead k)).isNone with
      | some k =>
        .error (.within activity.scan start
          (.expected "URI escape sequence of 2 hexadecimal numbers" (c.ahead k)) c.mark)
      | none => do
        let (rest, next) ← readOctets activity start limit (c.advance 2)
        return (UInt8.ofNat (Text.natOfHex (c.rest.take 2)) :: rest, next)

/-- The characters that a row of escapes stands for. -/
def readEscapes (activity : LabelActivity) (start : Mark) (c : Cursor) :
    Except Trouble (List Char × Cursor) := do
  let (octets, next) ← readOctets activity start c.rest.length c
  match Text.decode octets with
  | .ok chars => return (chars, next)
  | .error defect => throw (.within activity.scan start (.undecodable defect.message) c.mark)

/-- The text of a tag in at most `limit` pieces, which are runs of plain characters and rows of
escapes. -/
def readUriPieces (activity : LabelActivity) (start : Mark) :
    (limit : Nat) → Cursor → Except Trouble (List Char × Cursor)
  | 0, c => .ok ([], c)
  | limit + 1, c => do
    let (plain, c) := c.takeWhile fun d => isUriChar d && d != '%'
    if c.here != '%' then return (plain, c)
    else
      let (escaped, c) ← readEscapes activity start c
      let (rest, c) ← readUriPieces activity start limit c
      return (plain ++ escaped ++ rest, c)

/-- The text of a tag. -/
def readUri (activity : LabelActivity) (start : Mark) (c : Cursor) :
    Except Trouble (String × Cursor) :=
  if isUriChar c.here then do
    let (chars, next) ← readUriPieces activity start (c.rest.length + 1) c
    return (String.ofList chars, next)
  else .error (expectedAt activity.parts start "URI" c)

/-- Whether a second exclamation mark stands before the next gap. -/
def hasHandle (c : Cursor) : Bool :=
  let word := (c.step.rest.takeWhile fun d => !isGap d)
  word.contains '!'

/-- The handle, if there is one, and the text of a tag. -/
def readTagParts (c : Cursor) : Except Trouble ((Option String × String) × Cursor) := do
  let start := c.mark
  if c.ahead 1 == '<' then
    let (uri, c) ← readUri tagActivity start (c.advance 2)
    if c.here != '>' then throw (expectedAt .tagParts start "'>'" c)
    return ((none, uri), c.step)
  else if isWideGap (c.ahead 1) then
    return ((none, "!"), c.step)
  else if hasHandle c then
    let (handle, c) ← readHandle tagActivity start c
    let (suffix, c) ← readUri tagActivity start c
    return ((some handle, suffix), c)
  else
    let (suffix, c) ← readUri tagActivity start c.step
    return ((some "!", suffix), c)

/-- A tag. -/
def readTag (c : Cursor) : Except Trouble (TokenKind × Cursor) := do
  let ((handle, suffix), next) ← readTagParts c
  if isGap next.here then return (.tag handle suffix, next)
  else throw (expectedAt .tag c.mark "' '" next)

/-! ## Directives -/

/-- The name of a directive. -/
def readDirectiveName (start : Mark) (c : Cursor) : Except Trouble (String × Cursor) :=
  let (name, next) := c.takeWhile isNameChar
  if name.isEmpty then .error (expectedAt .directive start nameWords c)
  else if isGap next.here then .ok (String.ofList name, next)
  else .error (expectedAt .directive start nameWords next)

/-- A number of a version. -/
def readVersionNumber (start : Mark) (c : Cursor) : Except Trouble (Nat × Cursor) :=
  let (digits, next) := c.takeWhile Char.isDigit
  if digits.isEmpty then .error (expectedAt .directive start "a digit" c)
  else if Text.digitLimit < digits.length then .error (.fault (.tooManyDigits digits.length))
  else .ok (Text.natOfDigits digits, next)

/-- The two numbers of a version. -/
def readVersion (start : Mark) (c : Cursor) : Except Trouble (Directive × Cursor) := do
  let (major, c) ← readVersionNumber start (c.skipWhile (· == ' '))
  if c.here != '.' then throw (expectedAt .directive start "a digit or '.'" c)
  let (minor, c) ← readVersionNumber start c.step
  if isGap c.here then return (.version major minor, c)
  else throw (expectedAt .directive start "a digit or ' '" c)

/-- A handle and what it stands for. -/
def readTagDirective (start : Mark) (c : Cursor) : Except Trouble (Directive × Cursor) := do
  let (handle, c) ← readHandle directiveActivity start (c.skipWhile (· == ' '))
  if c.here != ' ' then throw (expectedAt .directive start "' '" c)
  let (expansion, c) ← readUri directiveActivity start (c.skipWhile (· == ' '))
  if isGap c.here then return (.tag handle expansion, c)
  else throw (expectedAt .directive start "' '" c)

/-- The cursor behind the spaces, the comment and the line break at the end of a line. -/
def endLine (activity : Activity) (start : Mark) (c : Cursor) : Except Trouble Cursor :=
  let c := c.skipWhile (· == ' ')
  let c := if c.here == '#' then c.skipWhile (!isBreakOrEnd ·) else c
  if isBreakOrEnd c.here then .ok c.takeBreak.2
  else .error (expectedAt activity start "a comment or a line break" c)

/-- A directive, the mark behind what it says, and the cursor on the next line. -/
def readDirective (c : Cursor) : Except Trouble (Directive × Mark × Cursor) := do
  let start := c.mark
  let (name, c) ← readDirectiveName start c.step
  if name == "YAML" then
    let (version, c) ← readVersion start c
    return (version, c.mark, ← endLine .directive start c)
  else if name == "TAG" then
    let (tag, c) ← readTagDirective start c
    return (tag, c.mark, ← endLine .directive start c)
  else
    return (.other, c.mark, ← endLine .directive start (c.skipWhile (!isBreakOrEnd ·)))

end Componentry.Yaml
