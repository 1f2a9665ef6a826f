import Componentry.Fault
import Componentry.Text.Blank
import Componentry.Text.Case
import Componentry.Text.Entries

/-!
# The environment

The environment that a program runs in: its variables, and where its lines are printed.  Some of the
variables are flags: they are on if they hold one of a few words.

A line may be refused, for instance if it has a character that the place where it is printed cannot
take.  Nothing is known about which lines these are.
-/

namespace Componentry

/-- The variables of the environment, and which lines it refuses to print. -/
structure Environment where
  entries : List (String × String) := []
  /-- Why a line is refused, if it is. -/
  refusal : String → Option Fault := fun _ => none

namespace Environment

/-- The value of a variable. -/
def get? (env : Environment) (name : String) : Option String :=
  Entries.lookup env.entries name

/-- Whether a word turns a flag on, blanks around it and its case aside. -/
def isOn (word : String) : Bool :=
  ["1", "true", "yes", "on"].contains (Text.lower (Text.trimmed word))

/-- A flag, if it is given. -/
def flag? (env : Environment) (name : String) : Option Bool :=
  (env.get? name).map isOn

/-- Whether a flag is given and on. -/
def flag (env : Environment) (name : String) : Bool :=
  (env.flag? name).getD false

/-- Whether failures are to be shown in detail. -/
def isVerbose (env : Environment) : Bool :=
  env.flag "YSX_VERBOSE" || env.flag "YSX_DEBUG"

/-- Whether failures are to be passed on instead of shown. -/
def passesFailures (env : Environment) : Bool :=
  env.flag "YSX_RERAISE" || env.flag "YSX_DEBUG"

end Environment

end Componentry
