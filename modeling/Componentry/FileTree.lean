import Componentry.Path

/-!
# File trees

A file tree says which files and directories there are.  A *place* is a list of names from the root
on; the root itself is always a directory.

A path leads to a place step by step.  Every name on the way is looked up in a directory, so a path
through a missing name or through a file leads nowhere, and two dots go back from where the path
has come to.  Names and paths have a greatest length; to look up a longer one is an error, and not
the same as to find nothing.

There are no links in a tree: no name leads to another place, and no file has two names.  What is shown
about files and paths holds where no link is met.  Permissions are left out as well, so nothing is
refused for a lack of them.

**Main statements.** Putting an entry at a place changes what is there and nothing else
(`get?_insert`).
-/

namespace Componentry

/-- What can be at a place. -/
inductive Entry where
  | file (octets : ByteArray)
  | directory

/-- Whether an entry is a directory. -/
def Entry.isDirectory : Entry → Bool
  | .directory => true
  | .file _ => false

/-- Whether two entries are the same: directories, or files with the same content. -/
def Entry.same : Entry → Entry → Bool
  | .file a, .file b => a.data == b.data
  | .directory, .directory => true
  | _, _ => false

/-- The names from the root to a place. -/
abbrev Location := List String

/-- Files and directories by their places. -/
structure FileTree where
  entries : List (Location × Entry) := []

namespace FileTree

/-! ## Places -/

/-- The first entry under a place. -/
def find (place : Location) : List (Location × Entry) → Option Entry
  | [] => none
  | (other, entry) :: rest => if other = place then some entry else find place rest

/-- The list with another entry under a place; a new place comes last. -/
def replace (place : Location) (entry : Entry) :
    List (Location × Entry) → List (Location × Entry)
  | [] => [(place, entry)]
  | (other, old) :: rest =>
    if other = place then (other, entry) :: rest else (other, old) :: replace place entry rest

theorem find_replace (entries : List (Location × Entry)) (place other : Location)
    (entry : Entry) :
    find other (replace place entry entries) =
      if place = other then some entry else find other entries := by
  induction entries with
  | nil => simp [replace, find]
  | cons first rest ih => grind [replace, find]

/-- What is at a place. -/
def get? (t : FileTree) (place : Location) : Option Entry :=
  if place = [] then some .directory else find place t.entries

/-- The tree with an entry at a place. -/
def insert (t : FileTree) (place : Location) (entry : Entry) : FileTree :=
  ⟨replace place entry t.entries⟩

@[simp] theorem get?_root (t : FileTree) : t.get? [] = some .directory := rfl

/-- **An entry is put at one place only.** -/
theorem get?_insert (t : FileTree) (place other : Location) (entry : Entry) (h : place ≠ []) :
    (t.insert place entry).get? other = if place = other then some entry else t.get? other := by
  unfold get? insert
  by_cases ho : other = []
  · simp [ho, h]
  · simp [ho, find_replace]

/-- The entries that are not in the tree `before`, or are other ones there. -/
def changesSince (t before : FileTree) : List (Location × Entry) :=
  t.entries.filter fun (place, entry) => !(before.get? place).any entry.same

/-- The name of an entry that lies directly in a directory. -/
def nameIn (directory place : Location) : Option String :=
  if directory.length + 1 = place.length ∧ directory.isPrefixOf place then place.getLast? else none

/-- What lies directly in a directory, by its names. -/
def entriesIn (t : FileTree) (directory : Location) : List (String × Entry) :=
  t.entries.filterMap fun (place, entry) => (nameIn directory place).map (·, entry)

/-! ## Paths -/

/-- The most octets in a name. -/
def nameLimit : Nat := 255

/-- The most octets in the text of a path. -/
def pathLimit : Nat := 4095

/-- The place one name further. -/
def step (t : FileTree) (place : Location) (name : String) : Except Refusal Location :=
  match t.get? place with
  | some .directory =>
    if name == ".." then .ok place.dropLast
    else if nameLimit < name.utf8ByteSize then .error .nameTooLong
    else .ok (place ++ [name])
  | some (.file _) => .error .notDirectory
  | none => .error .notFound

/-- The place that a path leads to.  One that does not start at the root starts at `here`.  There
need not be anything. -/
def locate (t : FileTree) (here : Location) (p : Path) : Except Refusal Location :=
  if pathLimit < p.text.utf8ByteSize then .error .nameTooLong
  else p.parts.foldlM t.step (if p.isAbsolute then [] else here)

/-- What a path leads to, seen from `here`. -/
def findFrom (t : FileTree) (here : Location) (p : Path) : Except Fault (Option Entry) :=
  if p.hasNull then .ok none
  else
    match t.locate here p with
    | .ok place => .ok (t.get? place)
    | .error how => if how.isAbsence then .ok none else .error (.refused how p.text)

/-- What a path from the root on leads to. -/
def find? (t : FileTree) (p : Path) : Except Fault (Option Entry) :=
  t.findFrom [] p

/-- Whether a path leads to something. -/
def contains (t : FileTree) (p : Path) : Except Fault Bool := do
  return (← t.find? p).isSome

/-- Whether a path leads to a directory. -/
def isDirectory (t : FileTree) (p : Path) : Except Fault Bool := do
  return (← t.find? p).any Entry.isDirectory

/-- Whether a path leads to a file. -/
def isFile (t : FileTree) (p : Path) : Except Fault Bool := do
  return (← t.find? p).any fun entry => !entry.isDirectory

/-- The place that a path leads to, or the fault of an operation on the path. -/
def place (t : FileTree) (p : Path) : Except Fault Location :=
  if p.hasNull then .error .nullInPath
  else (t.locate [] p).mapError fun how => .refused how p.text

/-- What lies in the directory that a path leads to, by its names. -/
def list (t : FileTree) (p : Path) : Except Fault (List (String × Entry)) := do
  return t.entriesIn (← t.place p)

/-- The octets of a file. -/
def read (t : FileTree) (p : Path) : Except Fault ByteArray := do
  match t.get? (← t.place p) with
  | some (.file octets) => return octets
  | some .directory => throw (.refused .isDirectory p.text)
  | none => throw (.refused .notFound p.text)

/-- The tree with other octets in a file, which need not be there yet. -/
def write (t : FileTree) (p : Path) (octets : ByteArray) : Except Fault FileTree := do
  let place ← t.place p
  match t.get? place with
  | some .directory => throw (.refused .isDirectory p.text)
  | _ => return t.insert place (.file octets)

/-- The tree with one more directory. -/
def makeDirectory (t : FileTree) (p : Path) : Except Fault FileTree := do
  let place ← t.place p
  match t.get? place with
  | some _ => throw (.refused .alreadyThere p.text)
  | none => return t.insert place .directory

end FileTree

/-! ## Changes

A change may fail half way; what it has done until then stays. -/

/-- A change of a file tree. -/
abbrev FileChange := ExceptT Fault (StateM FileTree)

namespace FileChange

/-- A change that is done at once or not at all. -/
def atOnce (f : FileTree → Except Fault FileTree) : FileChange Unit := do
  set (← f (← get))

/-- Makes a directory, unless there is one. -/
def provideDirectory (p : Path) : FileChange Unit := do
  let t ← get
  match t.makeDirectory p with
  | .ok t => set t
  | .error f =>
    match f with
    | .refused .notFound _ => throw f
    | .refused _ _ => if !(← t.isDirectory p) then throw f
    | _ => throw f

/-- Makes a directory and all directories on the way to it.  The names come last first. -/
def provideNames (anchor : Anchor) : (names : List String) → FileChange Unit
  | [] => provideDirectory ⟨anchor, []⟩
  | name :: above => do
    let p : Path := ⟨anchor, (name :: above).reverse⟩
    match (← get).makeDirectory p with
    | .error (.refused .notFound _) => do
      provideNames anchor above
      provideDirectory p
    | _ => provideDirectory p

/-- Makes a directory and all directories on the way to it. -/
def provideDirectories (p : Path) : FileChange Unit :=
  provideNames p.anchor p.parts.reverse

/-- Writes a text to a file and makes the directories on the way to it. -/
def writeText (p : Path) (text : String) : FileChange Unit := do
  provideDirectories p.parent
  atOnce (·.write p text.toUTF8)

end FileChange

end Componentry
