/-!
# Spots in a text

A spot is the line and the column of a character, counted from one, and the number of characters in
front of it.  Only line feeds end lines here.
-/

namespace Componentry.Text

/-- A place in a text. -/
structure Spot where
  line : Nat
  column : Nat
  index : Nat
  deriving DecidableEq, Repr

/-- The spot in a text in front of which the first `index` characters stand. -/
def Spot.at (text : List Char) (index : Nat) : Spot :=
  let before := text.take index
  ⟨before.count '\n' + 1, (before.reverse.takeWhile (· != '\n')).length + 1, index⟩

/-- The spot at which the last characters `rest` of a text start. -/
def Spot.before (text rest : List Char) : Spot :=
  .at text (text.length - rest.length)

end Componentry.Text
