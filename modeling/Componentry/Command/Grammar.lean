import Componentry.Text.Digit
import Componentry.Text.Join
import Componentry.Text.Name
import Componentry.Text.Quoted

/-!
# Arguments of a command

A grammar says which arguments a command takes: options, which have names with hyphens in front,
and places, which are filled by the other arguments in their order.

The arguments are first taken one by one for what they look like: an option, a word, or the divider
`--`, behind which there are only words.  A long name may be cut short as long as only one option
has such a name.  Several short options may share one hyphen, and the last of them may have its
value attached.  A divider that is attached as a value is no value.

Then words and options are consumed in turn.  Words fill as many places as they can, so a place
that may stay empty does so when an option comes before its word.  What nothing takes is left over,
for the caller to complain about.
-/

namespace Componentry.Command

/-- What an option does. -/
inductive OptionRole where
  /-- Shows the help. -/
  | help
  /-- Shows the version. -/
  | version
  /-- Turns something on. -/
  | switch
  /-- Takes a value, one of `choices` if there are any. -/
  | value (choices : List String)
  deriving DecidableEq, Repr

/-- An option, with its names. -/
structure OptionRule where
  names : List String
  role : OptionRole
  deriving DecidableEq, Repr

namespace OptionRule

/-- The option in messages. -/
def label (o : OptionRule) : String :=
  Text.joined "/" o.names

/-- The name under which the option is kept. -/
def key (o : OptionRule) : String :=
  o.names.headD ""

/-- Whether the option takes a value. -/
def takesValue (o : OptionRule) : Bool :=
  match o.role with
  | .value _ => true
  | _ => false

end OptionRule

/-- How many words fill a place. -/
inductive Arity where
  | one
  | atMostOne
  /-- One word and all that follows it, options too. -/
  | rest
  deriving DecidableEq, Repr

/-- A place for words. -/
structure PlaceRule where
  name : String
  arity : Arity
  deriving DecidableEq, Repr

/-- Which arguments a command takes, and the texts about it.  Places that may stay empty come
last. -/
structure Grammar where
  program : String
  usage : String
  description : String
  version : String := ""
  options : List OptionRule
  places : List PlaceRule

/-- Why arguments are not read to their end. -/
inductive Halt where
  /-- A text was asked for. -/
  | shown (text : String)
  /-- The arguments are wrong. -/
  | misused (text : String)
  deriving DecidableEq, Repr

namespace Grammar

/-- The help text. -/
def help (g : Grammar) : String :=
  g.usage ++ "\n" ++ g.description

/-- The complaint about wrong arguments. -/
def misuse (g : Grammar) (message : String) : Halt :=
  .misused (g.usage ++ g.program ++ ": error: " ++ message ++ "\n")

/-- The complaint about the argument for an option or a place. -/
def misuseOf (g : Grammar) (label message : String) : Halt :=
  g.misuse s!"argument {label}: {message}"

/-- The complaint about a value that is none of the choices. -/
def wrongChoice (g : Grammar) (label value : String) (choices : List String) : Halt :=
  let choices := Text.joined ", " (choices.map Text.displayed)
  g.misuseOf label s!"invalid choice: {Text.displayed value} (choose from {choices})"

/-- All names of options with their options. -/
def names (g : Grammar) : List (String × OptionRule) :=
  g.options.flatMap fun o => o.names.map (·, o)

/-- The option with a name. -/
def option? (g : Grammar) (name : String) : Option OptionRule :=
  g.names.lookup name

end Grammar

/-! ## What arguments look like -/

/-- What an argument looks like. -/
inductive Look where
  | word
  | divider
  /-- An option that the grammar has. -/
  | known (o : OptionRule) (name : String) (attached : Option (List Char))
  /-- An option that the grammar does not have. -/
  | unknown
  deriving DecidableEq, Repr

namespace Look

/-- Whether an argument is an option. -/
def isOption : Look → Bool
  | .known _ _ _ | .unknown => true
  | _ => false

end Look

/-- An argument and what it looks like. -/
abbrev Argument := String × Look

/-- Whether a text is a number with a minus sign.  A line feed at the end does not count. -/
def isNegativeNumber (cs : List Char) : Bool :=
  match Text.withoutFinalNewline cs with
  | '-' :: number =>
    let whole := number.takeWhile Text.isDigit
    match number.drop whole.length with
    | [] => !whole.isEmpty
    | '.' :: fraction => !fraction.isEmpty && fraction.all Text.isDigit
    | _ => false
  | _ => false

/-- A text in front of its first equals sign, and what is behind it. -/
def splitEquals (cs : List Char) : List Char × Option (List Char) :=
  let name := cs.takeWhile (· != '=')
  match cs.drop name.length with
  | _ :: value => (name, some value)
  | [] => (name, none)

namespace Grammar

/-- The options that a text with hyphens in front may stand for, with their names. -/
def candidates (g : Grammar) (cs : List Char) :
    List (OptionRule × String × Option (List Char)) :=
  match cs with
  | '-' :: '-' :: _ =>
    let (start, attached) := splitEquals cs
    (g.names.filter fun (name, _) => start.isPrefixOf name.toList).map fun (name, o) =>
      (o, name, attached)
  | _ =>
    g.names.filterMap fun (name, o) =>
      if name.toList == cs.take 2 then some (o, name, some (cs.drop 2))
      else if cs.isPrefixOf name.toList then some (o, name, none)
      else none

/-- What an argument looks like that is not behind the divider. -/
def lookAt (g : Grammar) (argument : String) : Except Halt Look :=
  let cs := argument.toList
  if cs.head? != some '-' then .ok .word
  else
    match g.option? argument with
    | some o => .ok (.known o argument none)
    | none =>
      if cs.length == 1 then .ok .word
      else
        let (name, attached) := splitEquals cs
        match attached, g.option? (String.ofList name) with
        | some attached, some o => .ok (.known o (String.ofList name) (some attached))
        | _, _ =>
          match g.candidates cs with
          | [(o, name, attached)] => .ok (.known o name attached)
          | [] =>
            if isNegativeNumber cs || cs.contains ' ' then .ok .word else .ok .unknown
          | several =>
            let names := Text.joined ", " (several.map fun (_, name, _) => name)
            .error (g.misuse s!"ambiguous option: {argument} could match {names}")

/-- What all arguments look like. -/
def look (g : Grammar) : List String → Except Halt (List Argument)
  | [] => .ok []
  | argument :: rest =>
    if argument == "--" then .ok ((argument, .divider) :: rest.map (·, .word))
    else do
      let first ← g.lookAt argument
      return (argument, first) :: (← g.look rest)

end Grammar

/-! ## Filling places -/

/-- What the arguments give: values of options, words in places, and what is left over. -/
structure Reading where
  /-- The options that were given, the last one first, with their values. -/
  options : List (String × Option String) := []
  places : List (String × List String) := []
  extra : List String := []
  deriving DecidableEq, Repr

namespace Reading

/-- An option that was given, with its value if it has one. -/
def option? (r : Reading) (name : String) : Option (Option String) :=
  r.options.lookup name

/-- The value of an option. -/
def value? (r : Reading) (name : String) : Option String :=
  (r.option? name).join

/-- Whether an option was given. -/
def isOn (r : Reading) (name : String) : Bool :=
  (r.option? name).isSome

/-- The word in a place. -/
def place? (r : Reading) (name : String) : Option String :=
  (r.places.lookup name).bind List.head?

end Reading

/-- How many arguments from here on are dividers. -/
def dividers (arguments : List Argument) : Nat :=
  (arguments.takeWhile (·.2 == .divider)).length

/-- How many arguments from here on fill a place of some arity, if it can be filled. -/
def fillCount? (arity : Arity) (arguments : List Argument) : Option Nat :=
  let before := dividers arguments
  let isWord := ((arguments.drop before).head?.map (·.2)) == some .word
  match arity with
  | .one => if isWord then some (before + 1 + dividers (arguments.drop (before + 1))) else none
  | .atMostOne =>
    if isWord then some (before + 1 + dividers (arguments.drop (before + 1))) else some before
  | .rest => if isWord then some arguments.length else none

/-- Fills as many places as possible, and gives the places and the arguments that are left.  The
first divider among the arguments of a place does not count, unless the place takes all. -/
def fill (reading : Reading) :
    List PlaceRule → List Argument → Reading × List PlaceRule × List Argument
  | [], arguments => (reading, [], arguments)
  | place :: places, arguments =>
    match fillCount? place.arity arguments with
    | none => (reading, place :: places, arguments)
    | some n =>
      let words := (arguments.take n).map (·.1)
      let words := if place.arity == .rest then words else words.erase "--"
      fill { reading with places := reading.places ++ [(place.name, words)] } places
        (arguments.drop n)

/-! ## Consuming options -/

/-- What one argument with options comes to: the options with their values, and how many of the
following arguments are values. -/
structure OptionUse where
  uses : List (OptionRule × Option String) := []
  taken : Nat := 0

namespace Grammar

/-- An option that has no value attached, and perhaps takes the next argument. -/
def useBare (g : Grammar) (o : OptionRule) (following : List Argument) : Except Halt OptionUse :=
  if o.takesValue then
    match following with
    | (value, .word) :: _ => .ok { uses := [(o, some value)], taken := 1 }
    | _ => .error (g.misuseOf o.label "expected one argument")
  else .ok { uses := [(o, none)] }

/-- The complaint about a text attached to an option that takes no value. -/
def ignored (g : Grammar) (o : OptionRule) (text : List Char) : Halt :=
  g.misuseOf o.label s!"ignored explicit argument {Text.displayed (String.ofList text)}"

/-- The value that an attached text gives. -/
def attachedValue? (text : List Char) : Option String :=
  if text == ['-', '-'] then none else some (String.ofList text)

/-- An option with a text attached.  Behind a short option that takes no value, the text is more
short options. -/
def useAttached (g : Grammar) (following : List Argument) (o : OptionRule) (isShort : Bool)
    (text : List Char) : Except Halt OptionUse :=
  if o.takesValue then .ok { uses := [(o, attachedValue? text)] }
  else
    match text with
    | [] => .error (g.ignored o [])
    | c :: more =>
      match if isShort then g.option? (String.ofList ['-', c]) else none with
      | none => .error (g.ignored o (c :: more))
      | some next => do
        let use ←
          match more with
          | [] => g.useBare next following
          | d :: rest => g.useAttached following next true (d :: rest)
        return { use with uses := (o, none) :: use.uses }

/-- Carries out an option. -/
def apply (g : Grammar) (reading : Reading) (use : OptionRule × Option String) :
    Except Halt Reading :=
  let (o, value) := use
  let given := { reading with options := (o.key, value) :: reading.options }
  match o.role with
  | .help => .error (.shown g.help)
  | .version => .error (.shown g.version)
  | .switch => .ok given
  | .value choices =>
    match value with
    | some value =>
      if choices.isEmpty || choices.contains value then .ok given
      else .error (g.wrongChoice o.label value choices)
    | none => .ok given

/-- Consumes the option at the head of the arguments. -/
def consumeOption (g : Grammar) (reading : Reading) (argument : String) (look : Look)
    (following : List Argument) : Except Halt (Reading × List Argument) := do
  match look with
  | .known o name attached =>
    let isShort := (name.toList.drop 1).head? != some '-'
    let use ←
      match attached with
      | none => g.useBare o following
      | some text => g.useAttached following o isShort text
    return (← use.uses.foldlM g.apply reading, following.drop use.taken)
  | _ => return ({ reading with extra := reading.extra ++ [argument] }, following)

/-- Consumes all arguments, in at most `limit` steps. -/
def consume (g : Grammar) : (limit : Nat) → Reading → List PlaceRule → List Argument →
    Except Halt (Reading × List PlaceRule)
  | 0, reading, places, _ => .ok (reading, places)
  | limit + 1, reading, places, arguments => do
    let words := arguments.takeWhile fun a => !a.2.isOption
    match arguments.drop words.length with
    | [] =>
      let (reading, places, left) := fill reading places arguments
      return ({ reading with extra := reading.extra ++ left.map (·.1) }, places)
    | (argument, look) :: following =>
      if words.isEmpty then
        let (reading, left) ← g.consumeOption reading argument look following
        g.consume limit reading places left
      else
        let (reading, places, left) := fill reading places arguments
        if left.length < arguments.length then g.consume limit reading places left
        else
          let reading := { reading with extra := reading.extra ++ words.map (·.1) }
          let (reading, left) ← g.consumeOption reading argument look following
          g.consume limit reading places left

/-- Reads arguments. -/
def read (g : Grammar) (arguments : List String) : Except Halt Reading := do
  let arguments ← g.look arguments
  let (reading, places) ← g.consume (arguments.length + 1) {} g.places arguments
  match (places.filter fun p => p.arity == .one).map (·.name) with
  | [] => return reading
  | missing =>
    throw (g.misuse ("the following arguments are required: " ++ Text.joined ", " missing))

end Grammar

end Componentry.Command
