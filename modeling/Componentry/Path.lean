import Componentry.Fault
import Componentry.Text.Join

/-!
# Paths

A path is a list of names, counted from the root or from wherever one is.  Two slashes in front are
a root of their own.  Empty names and single dots are left out when a path is read; two dots stay.

The *suffix* of a name starts at its last dot, unless that dot is the first or the last character
of the name.
-/

namespace Componentry

/-- Where a path starts. -/
inductive Anchor where
  | here
  | root
  | doubleRoot
  deriving DecidableEq, Repr

/-- The text of an anchor. -/
def Anchor.text : Anchor → String
  | .here => ""
  | .root => "/"
  | .doubleRoot => "//"

/-- A path. -/
structure Path where
  anchor : Anchor
  parts : List String
  deriving DecidableEq, Repr

namespace Path

/-- The path that a text spells. -/
def ofText (text : String) : Path :=
  let cs := text.toList
  let anchor : Anchor :=
    match (cs.takeWhile (· == '/')).length with
    | 0 => .here
    | 2 => .doubleRoot
    | _ => .root
  let pieces := (Text.splitOn '/' cs).filter fun piece => !piece.isEmpty && piece != ['.']
  ⟨anchor, pieces.map String.ofList⟩

/-- The text of a path; a path without names is a dot. -/
def text (p : Path) : String :=
  let text := p.anchor.text ++ Text.joined "/" p.parts
  if text.isEmpty then "." else text

/-- Whether a path starts at the root. -/
def isAbsolute (p : Path) : Bool :=
  p.anchor != .here

/-- The last name of a path, which is empty if there is none. -/
def name (p : Path) : String :=
  p.parts.getLast?.getD ""

/-- The path without its last name. -/
def parent (p : Path) : Path :=
  { p with parts := p.parts.dropLast }

/-- The path `q` as it is seen from `p`. -/
def join (p q : Path) : Path :=
  if q.isAbsolute then q else { p with parts := p.parts ++ q.parts }

/-- The path of something inside a directory. -/
def child (p : Path) (name : String) : Path :=
  { p with parts := p.parts ++ [name] }

/-- The rest of a path behind another one, if it lies there. -/
def relativeTo? (p base : Path) : Option Path :=
  if p.anchor == base.anchor && base.parts.isPrefixOf p.parts then
    some ⟨.here, p.parts.drop base.parts.length⟩
  else none

/-- A name cut in front of its suffix, which is empty if it has none. -/
def splitSuffix (name : List Char) : List Char × List Char :=
  let tail := (name.reverse.takeWhile (· != '.')).reverse
  let stem := name.take (name.length - tail.length - 1)
  if tail.isEmpty || stem.isEmpty then (name, []) else (stem, '.' :: tail)

/-- The suffix of the last name. -/
def suffix (p : Path) : String :=
  String.ofList (splitSuffix p.name.toList).2

/-- The path with another last name. -/
def withName (p : Path) (name : String) : Path :=
  { p with parts := p.parts.dropLast ++ [name] }

/-- Whether a path holds the character that no name may hold. -/
def hasNull (p : Path) : Bool :=
  p.parts.any fun name => name.toList.contains '\x00'

/-- The names of a path in which every pair of dots has taken back the name before it. -/
def withoutDots (names : List String) : List String :=
  names.foldl (fun done name => if name == ".." then done.dropLast else done ++ [name]) []

/-- The path `p` from the root on, as it is seen from `here`, without dots. -/
def resolve (here p : Path) : Except Fault Path :=
  if p.hasNull then .error .nullInPath
  else .ok ⟨.root, withoutDots (here.join p).parts⟩

/-- Whether one name comes before another, character by character. -/
def isNameBefore (a b : String) : Bool :=
  List.lex a.toList b.toList fun c d => c.toNat < d.toNat

/-- Whether `p` comes before `q` or is the same, name by name. -/
def isUpTo (p q : Path) : Bool :=
  !List.lex q.parts p.parts isNameBefore

end Path

/-! ## Documents and modules -/

/-- The suffix of documents. -/
def documentSuffix : String := ".ysx"

/-- The suffix of modules, with type annotations or without. -/
def moduleSuffix (annotated : Bool) : String :=
  if annotated then ".tsx" else ".jsx"

/-- Whether a module at a path has type annotations. -/
def Path.isAnnotated (p : Path) : Bool :=
  p.suffix == ".ts" || p.suffix == ".tsx"

/-- The path of the module for a document: the suffix of documents is replaced, and behind any
other name the suffix of modules is added. -/
def Path.output (p : Path) (annotated : Bool) : Except Fault Path :=
  if p.name.isEmpty then .error (.emptyName p.text)
  else if p.suffix == documentSuffix then
    let stem := (Path.splitSuffix p.name.toList).1
    .ok (p.withName (String.ofList stem ++ moduleSuffix annotated))
  else .ok (p.withName (p.name ++ moduleSuffix annotated))

end Componentry
