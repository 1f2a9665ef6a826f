import Componentry.Text.Name
import Componentry.Text.Quoted
import Componentry.Yaml.Timestamp

/-!
# Tags

Every node has a tag that says what it is.  A node without one gets it from what it looks like: a
plain scalar goes through the *rules*, each of which knows the texts of one tag and the first
characters that such texts have.  `implicitTag` tries the rules filed under the first character of
a text, in the order in which they are listed.

A *form* is a way to read a value.  `Form.ofTag?` gives the form that belongs to a tag.
-/

namespace Componentry.Yaml

/-- A tag of the common vocabulary. -/
def commonTag (name : String) : String :=
  "tag:yaml.org,2002:" ++ name

/-- The tag of texts. -/
def textTag : String := commonTag "str"

/-- The tag of sequences. -/
def sequenceTag : String := commonTag "seq"

/-- The tag of mappings. -/
def mappingTag : String := commonTag "map"

/-- The tag of the key that merges other mappings. -/
def mergeTag : String := commonTag "merge"

/-- The tag of the key that stands for a mapping as a whole. -/
def valueTag : String := commonTag "value"

/-! ## Rules -/

/-- The texts of a tag, and the characters that they start with.  `none` stands for the empty
text. -/
structure Rule where
  tag : String
  matches? : List Char → Bool
  starts : List (Option Char)

/-- Whether a text is one of several. -/
def isOneOf (texts : List String) (cs : List Char) : Bool :=
  texts.any (·.toList == cs)

/-- The text without a sign in front. -/
def withoutSign : List Char → List Char
  | '+' :: cs | '-' :: cs => cs
  | cs => cs

/-- Whether a text is one or more decimal digits. -/
def isDigits (cs : List Char) : Bool :=
  !cs.isEmpty && cs.all Char.isDigit

/-- Whether a text is an integer: decimal digits without zeros in front, perhaps signed, or
hexadecimal digits. -/
def isInteger (cs : List Char) : Bool :=
  (let digits := withoutSign cs
   isDigits digits && (digits.head? != some '0' || digits.length == 1)) ||
  match cs with
  | '0' :: 'x' :: digits => !digits.isEmpty && digits.all fun c => (Text.hexValue? c).isSome
  | _ => false

/-- Whether a text is empty or the exponent of a number. -/
def isExponent : List Char → Bool
  | [] => true
  | c :: cs => (c == 'e' || c == 'E') && isDigits (withoutSign cs)

/-- Whether a text is a number with or without a fraction and an exponent. -/
def isDecimal (cs : List Char) : Bool :=
  let whole := cs.takeWhile Char.isDigit
  match cs.dropWhile Char.isDigit with
  | '.' :: rest =>
    let fraction := rest.takeWhile Char.isDigit
    (!whole.isEmpty || !fraction.isEmpty) && isExponent (rest.dropWhile Char.isDigit)
  | rest => !whole.isEmpty && isExponent rest

/-- Whether a text is a number, an infinity, or not a number by name. -/
def isNumber (cs : List Char) : Bool :=
  isDecimal (withoutSign cs) || isOneOf [".inf", ".Inf", ".INF"] (withoutSign cs) ||
    isOneOf [".nan", ".NaN", ".NAN"] cs

/-- The characters of a text as the starts of a rule. -/
def startsOf (text : String) : List (Option Char) :=
  text.toList.map some

/-- The rules in the order in which they are tried. -/
def rules : List Rule :=
  [⟨mergeTag, isOneOf ["<<"], startsOf "<"⟩,
   ⟨commonTag "null", isOneOf ["~", "null", "Null", "NULL", ""], none :: startsOf "~nN"⟩,
   ⟨commonTag "timestamp", Timestamp.isImplicit, startsOf "0123456789"⟩,
   ⟨valueTag, isOneOf ["="], startsOf "="⟩,
   ⟨commonTag "yaml", isOneOf ["!", "&", "*"], startsOf "!&*"⟩,
   ⟨commonTag "bool", isOneOf ["true", "True", "TRUE", "false", "False", "FALSE"],
     startsOf "tTfF"⟩,
   ⟨commonTag "int", isInteger, startsOf "-+0123456789"⟩,
   ⟨commonTag "float", isNumber, startsOf "-+.0123456789"⟩]

/-- Whether a rule knows a text; a line feed at the end does not count. -/
def Rule.accepts (r : Rule) (cs : List Char) : Bool :=
  r.matches? cs || (cs.getLast? == some '\n' && r.matches? cs.dropLast)

/-- The tag of a plain scalar. -/
def implicitTag (text : String) : String :=
  let cs := text.toList
  match rules.find? fun r => r.starts.contains cs.head? && r.accepts cs with
  | some r => r.tag
  | none => textTag

/-! ## Forms -/

/-- The ways to read a value. -/
inductive Form where
  | null
  | bool
  | int
  | float
  | octets
  | timestamp
  | text
  /-- Embedded code; typing or not. -/
  | code (typing : Bool)
  | list
  | map
  | set
  /-- A list of pairs: an ordered map or not. -/
  | pairs (ordered : Bool)
  deriving DecidableEq, Repr

/-- The forms by tag. -/
def forms : List (String × Form) :=
  [(commonTag "null", .null), (commonTag "bool", .bool), (commonTag "int", .int),
   (commonTag "float", .float), (commonTag "binary", .octets), (commonTag "timestamp", .timestamp),
   (commonTag "omap", .pairs true), (commonTag "pairs", .pairs false), (commonTag "set", .set),
   (textTag, .text), (sequenceTag, .list), (mappingTag, .map),
   (commonTag "js", .code false), ("!js", .code false),
   (commonTag "ts", .code true), ("!ts", .code true)]

/-- The form that belongs to a tag. -/
def Form.ofTag? (tag : String) : Option Form :=
  forms.lookup tag

end Componentry.Yaml
