import Componentry.FileTree
import Componentry.Glob.NamePattern

/-!
# Searching a file tree

A search goes down from a directory, name by name.  A step is a name, a pattern of names, or two
stars, which stand for any number of directories.  Hidden files are found like all others.
-/

namespace Componentry

/-- One step of a search. -/
inductive GlobStep where
  /-- Exactly this name. -/
  | name (name : String)
  | pattern (pattern : NamePattern)
  /-- The directory itself and all directories below it. -/
  | anywhere
  deriving DecidableEq, Repr

/-- What to search for: the steps, and whether only directories are found. -/
structure Glob where
  steps : List GlobStep
  directoriesOnly : Bool
  deriving DecidableEq, Repr

namespace Glob

/-- The step for a name in a search. -/
def stepOf (name : String) : Except Fault GlobStep :=
  if name == "**" then .ok .anywhere
  else if hasDoubleStar name.toList then .error (.badPattern .partialStars)
  else if NamePattern.isNeeded name then .ok (.pattern (.ofText name))
  else .ok (.name name)
where
  /-- Whether two stars follow each other. -/
  hasDoubleStar : List Char → Bool
    | '*' :: '*' :: _ => true
    | _ :: rest => hasDoubleStar rest
    | [] => false

/-- The search that a text spells. -/
def ofText (text : String) : Except Fault Glob := do
  if text.isEmpty then throw (.badPattern .empty)
  let path := Path.ofText text
  if path.isAbsolute then throw (.badPattern .absolute)
  let directoriesOnly := text.toList.getLast? == some '/'
  if path.parts.isEmpty then
    throw (.badPattern (if directoriesOnly then .onlyDirectory else .noNames))
  return { steps := ← path.parts.mapM stepOf, directoriesOnly }

/-- A directory and all directories below it, to a depth of at most `limit`. -/
def directoriesFrom (t : FileTree) : (limit : Nat) → Path → Except Fault (List Path)
  | 0, p => .ok [p]
  | limit + 1, p => do
    let below := (← t.list p).filter (·.2.isDirectory)
    return p :: (← below.mapM fun (name, _) => directoriesFrom t limit (p.child name)).flatten

/-- The length of the longest place in a tree. -/
def depth (t : FileTree) : Nat :=
  t.entries.foldl (fun n (place, _) => max n place.length) 0

/-- The files that are found from a directory on.  On the way there are only directories. -/
def select (t : FileTree) (directoriesOnly : Bool) :
    List GlobStep → Path → Except Fault (List Path)
  | [], p => do return if ← t.isFile p then [p] else []
  | step :: rest, p => do
    let onlyDirectories := directoriesOnly || !rest.isEmpty
    match step with
    | .name name =>
      let q := p.child name
      let fits ← if onlyDirectories then t.isDirectory q else t.contains q
      if fits then select t directoriesOnly rest q else return []
    | .pattern pattern =>
      let found := (← t.list p).filter fun (name, entry) =>
        pattern.admits name && (!onlyDirectories || entry.isDirectory)
      return (← found.mapM fun (name, _) => select t directoriesOnly rest (p.child name)).flatten
    | .anywhere =>
      let starts ← directoriesFrom t (depth t) p
      return (← starts.mapM (select t directoriesOnly rest)).flatten.eraseDups

/-- All files that a search in a directory finds, in the order of their paths. -/
def files (t : FileTree) (g : Glob) (base : Path) : Except Fault (List Path) := do
  if ← t.isDirectory base then
    return (← select t g.directoriesOnly g.steps base).mergeSort Path.isUpTo
  else return []

end Glob

end Componentry
