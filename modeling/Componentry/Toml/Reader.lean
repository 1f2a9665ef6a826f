import Componentry.Toml.Value

/-!
# Reading TOML

A TOML text is a row of statements: pairs of a key and a value, and headers that say in which table
the pairs that follow belong.  A table that was opened by a header cannot be opened again, and what
is written in brackets on one line cannot be changed afterwards.
-/

namespace Componentry.Toml

/-- The entries of a table. -/
abbrev Table := List (Tree × Tree)

/-! ## Tables inside tables -/

/-- Changes the table under a key, making the tables on the way.  In an array of tables the last
one is meant, if `intoArrays` allows it.  There is no result if something else is in the way. -/
def updateAt (intoArrays : Bool) (f : Table → Option Table) : Key → Table → Option Table
  | [], table => f table
  | name :: key, table =>
    match Tree.lookup table name with
    | none => do return Tree.assign table name (.map (← updateAt intoArrays f key []))
    | some (.map inner) => do return Tree.assign table name (.map (← updateAt intoArrays f key inner))
    | some (.list items) =>
      if intoArrays then
        match items.getLast? with
        | some (.map inner) => do
          let inner ← updateAt intoArrays f key inner
          return Tree.assign table name (.list (items.dropLast ++ [.map inner]))
        | _ => none
      else none
    | some _ => none

/-- Whether there is a value under a name in the table under a key. -/
def hasValue (intoArrays : Bool) (key : Key) (name : String) (table : Table) : Bool :=
  (updateAt intoArrays (fun inner => if (Tree.lookup inner name).isSome then none else some inner)
    key table).isNone

/-- Puts a value into the table under a key. -/
def insertAt (intoArrays : Bool) (key : Key) (name : String) (value : Tree) (table : Table) :
    Option Table :=
  updateAt intoArrays (fun inner => some (Tree.assign inner name value)) key table

/-- Adds an empty table to the array of tables under a key. -/
def appendTable (key : Key) (table : Table) : Option Table :=
  match key.getLast? with
  | none => none
  | some name =>
    updateAt true (fun inner =>
      match Tree.lookup inner name with
      | none => some (Tree.assign inner name (.list [.map []]))
      | some (.list items) => some (Tree.assign inner name (.list (items ++ [.map []])))
      | some _ => none) key.dropLast table

/-- Whether a tree is a container. -/
def isContainer : Tree → Bool
  | .map _ | .list _ => true
  | _ => false

/-! ## Values -/

mutual

/-- A value. -/
def value : (limit : Nat) → List Char → Except Stop (Tree × List Char)
  | 0, cs => .error (.problem .invalidValue cs)
  | limit + 1, cs => do
    match cs with
    | '"' :: _ =>
      let (s, rest) ← string '"' cs
      return (.scalar (.text (String.ofList s)), rest)
    | '\'' :: _ =>
      let (s, rest) ← string '\'' cs
      return (.scalar (.text (String.ofList s)), rest)
    | '[' :: rest =>
      let (items, rest) ← elements limit (← skipBlank (rest.length + 1) rest)
      return (.list items, rest)
    | '\x7b' :: rest =>
      match skipSpace rest with
      | '\x7d' :: rest => return (.map [], rest)
      | rest =>
        let (table, rest) ← inlinePairs limit [] [] rest
        return (.map table, rest)
    | _ =>
      let (s, rest) ← scalar cs
      return (.scalar s, rest)

/-- The items of an array from here on, up to the closing bracket. -/
def elements : (limit : Nat) → List Char → Except Stop (List Tree × List Char)
  | 0, cs => .error (.problem .unclosedArray cs)
  | limit + 1, cs => do
    match cs with
    | ']' :: rest => return ([], rest)
    | _ =>
      let (item, rest) ← value limit cs
      let rest ← skipBlank (rest.length + 1) rest
      match rest with
      | ']' :: rest => return ([item], rest)
      | ',' :: rest =>
        let (more, rest) ← elements limit (← skipBlank (rest.length + 1) rest)
        return (item :: more, rest)
      | _ => throw (.problem .unclosedArray rest)

/-- A key, an equals sign and a value. -/
def pair : (limit : Nat) → List Char → Except Stop ((Key × Tree) × List Char)
  | 0, cs => .error (.problem .invalidKey cs)
  | limit + 1, cs => do
    let (k, rest) ← key cs
    match rest with
    | '=' :: rest =>
      let (v, rest) ← value limit (skipSpace rest)
      return ((k, v), rest)
    | _ => throw (.problem .equalsExpected rest)

/-- The pairs of a table in braces from here on.  `frozen` are the keys of the containers in it. -/
def inlinePairs : (limit : Nat) → (frozen : List Key) → (table : Table) → List Char →
    Except Stop (Table × List Char)
  | 0, _, _, cs => .error (.problem .unclosedTable cs)
  | limit + 1, frozen, table, cs => do
    let ((k, v), rest) ← pair limit cs
    if frozen.any (·.isPrefixOf k) then throw (.problem (.immutable k) rest)
    let name := k.getLastD ""
    match updateAt false some k.dropLast table with
    | none => throw (.problem .overwritten rest)
    | some _ =>
      if hasValue false k.dropLast name table then throw (.problem (.duplicateKey name) rest)
      let table := (insertAt false k.dropLast name v table).getD table
      let rest := skipSpace rest
      match rest with
      | '\x7d' :: rest => return (table, rest)
      | ',' :: rest =>
        let frozen := if isContainer v then k :: frozen else frozen
        inlinePairs limit frozen table (skipSpace rest)
      | _ => throw (.problem .unclosedTable rest)

end

/-! ## Statements -/

/-- The state of reading: what is read, the table that pairs belong to, the tables that cannot be
opened again, those that cannot from the next header on, and the containers that cannot change. -/
structure Draft where
  root : Table := []
  header : Key := []
  opened : List Key := []
  pending : List Key := []
  frozen : List Key := []

namespace Draft

/-- Whether what is under a key cannot change. -/
def isFrozen (d : Draft) (key : Key) : Bool :=
  !key.isEmpty && d.frozen.any (·.isPrefixOf key)

/-- Whether the table under a key was opened. -/
def isOpened (d : Draft) (key : Key) : Bool :=
  d.opened.contains key

/-- A header of a table; `cs` is the text behind the bracket. -/
def tableHeader (d : Draft) (cs : List Char) : Except Stop (Draft × List Char) := do
  let (k, rest) ← key (skipSpace cs)
  if d.isOpened k || d.isFrozen k then throw (.problem (.declaredTwice k) rest)
  match updateAt true some k d.root with
  | none => throw (.problem .overwritten rest)
  | some root =>
    match rest with
    | ']' :: rest => return ({ d with root, header := k, opened := k :: d.opened }, rest)
    | _ => throw (.problem (.headerEnd false) rest)

/-- A header of one more table in an array; `cs` is the text behind the brackets. -/
def arrayHeader (d : Draft) (cs : List Char) : Except Stop (Draft × List Char) := do
  let (k, rest) ← key (skipSpace cs)
  if d.isFrozen k then throw (.problem (.immutable k) rest)
  let outside (other : Key) : Bool := !k.isPrefixOf other
  match appendTable k d.root with
  | none => throw (.problem .overwritten rest)
  | some root =>
    match rest with
    | ']' :: ']' :: rest =>
      return ({ d with
        root, header := k
        opened := k :: d.opened.filter outside
        frozen := d.frozen.filter outside }, rest)
    | _ => throw (.problem (.headerEnd true) rest)

/-- A pair of a key and a value. -/
def keyValue (d : Draft) (cs : List Char) : Except Stop (Draft × List Char) := do
  let ((k, v), rest) ← pair (2 * cs.length + 4) cs
  let around := (List.range (k.length - 1)).map fun i => d.header ++ k.take (i + 1)
  match around.find? d.isOpened with
  | some other => throw (.problem (.redefined other) rest)
  | none =>
    let parent := d.header ++ k.dropLast
    let name := k.getLastD ""
    if d.isFrozen parent then throw (.problem (.immutable parent) rest)
    if hasValue true parent name d.root then throw (.problem .overwritten rest)
    match insertAt true parent name v d.root with
    | none => throw (.problem .overwritten rest)
    | some root =>
      let frozen := if isContainer v then (d.header ++ k) :: d.frozen else d.frozen
      return ({ d with root, frozen, pending := around ++ d.pending }, rest)

/-- The draft at a header: the tables made on the way cannot be opened from here on. -/
def settle (d : Draft) : Draft :=
  { d with opened := d.pending ++ d.opened, pending := [] }

/-- A statement, if there is one. -/
def statement (d : Draft) (cs : List Char) : Except Stop (Draft × List Char) :=
  match cs with
  | '[' :: '[' :: rest => d.settle.arrayHeader rest
  | '[' :: rest => d.settle.tableHeader rest
  | '#' :: _ => .ok (d, cs)
  | c :: _ =>
    if isBare c || c == '"' || c == '\'' then d.keyValue cs
    else .error (.problem .invalidStatement cs)
  | [] => .ok (d, [])

/-- The statements from here on, at most `limit` lines of them. -/
def statements : (limit : Nat) → Draft → List Char → Except Stop Draft
  | 0, d, _ => .ok d
  | limit + 1, d, cs => do
    match skipSpace cs with
    | [] => return d
    | '\n' :: rest => statements limit d rest
    | cs =>
      let (d, rest) ← d.statement cs
      match ← skipComment (skipSpace rest) with
      | [] => return d
      | '\n' :: rest => statements limit d rest
      | rest => throw (.problem .newlineExpected rest)

end Draft

/-- The text with the line breaks of two characters as line feeds. -/
def withLineFeeds : List Char → List Char
  | '\r' :: '\n' :: rest => '\n' :: withLineFeeds rest
  | c :: rest => c :: withLineFeeds rest
  | [] => []

/-- The fault that a stop comes to. -/
def Stop.toFault (text : List Char) : Stop → Fault
  | .problem what [] => .badToml ⟨what, none⟩
  | .problem what rest => .badToml ⟨what, some (.before text rest)⟩
  | .fault f => f

/-- The table that a text spells. -/
def parse (text : List Char) : Except Fault Tree := do
  let text := withLineFeeds text
  let draft ← (Draft.statements (text.length + 1) {} text).mapError (·.toFault text)
  return .map draft.root

end Componentry.Toml
