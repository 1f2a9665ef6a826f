import Componentry.Proofs.Script.CodeUnits
import Componentry.Proofs.Snippet.RoundTrip

/-!
# Quoted snippets

A snippet between quotation marks is taken for the text that stands between them, character by
character.  The printer then escapes what has to be escaped in that text.

In the language of the modules, the snippet itself is a string literal, and escape sequences in it have
a meaning of their own.

**Main statement.** The printed literal has the value of the snippet if and only if there is no
backslash in the snippet (`quoted_snippet_kept_iff`).  So `'it\'s'` gets a backslash into its value
(`quoted_snippet_kept_iff_apostrophe`).

## Octal escapes

In a module a backslash may not stand before a digit, except for `\0` with no digit behind it.  A
snippet with another such escape is no literal.
-/

namespace Componentry.Snippet

open Script (Node expressionText literalUnits? literalUnits?_quoted exists_codes_of_literalUnits?
  denotes_of_codes? units)

/-- **A quoted snippet keeps its value just when there is no backslash in it.** Every string literal is
parsed as a text, and the literal that is printed for this text has a value.  It is the value of the
snippet if and only if the snippet has no escape sequence. -/
theorem quoted_snippet_kept_iff {code : String} {value : List Nat}
    (h : literalUnits? code.toList = some value) :
    ∃ s text printed, parse code = .ok (.text s) ∧
      (∀ annotated level, expressionText annotated level (.text s) = .ok text) ∧
      literalUnits? text.toList = some printed ∧ (printed = value ↔ '\\' ∉ code.toList) := by
  obtain ⟨mark, rest, codes, hcode, hm, hc, rfl⟩ := exists_codes_of_literalUnits? h
  obtain ⟨inner, rfl, hinner⟩ := denotes_of_codes? hc
  have hparse : Says code.toList (.text (String.ofList inner)) := by
    rw [hcode]
    exact says_quoted hm inner
  refine ⟨String.ofList inner, _, _, hparse.parse_eq, fun annotated level => by rw [expressionText],
    literalUnits?_quoted _, ?_⟩
  have hmark : '\\' ≠ mark := by
    rcases hm with rfl | rfl <;> decide
  rw [String.toList_ofList, hinner.flatMap_units_eq_iff, hcode]
  simp [hmark]

/-- The backslash before an apostrophe becomes part of the value. -/
theorem quoted_snippet_kept_iff_apostrophe :
    literalUnits? "'it\\'s'".toList = some ("it's".toList.map Char.toNat) ∧
    ∃ s text printed, parse "'it\\'s'" = .ok (.text s) ∧
      (∀ annotated level, expressionText annotated level (.text s) = .ok text) ∧
      literalUnits? text.toList = some printed ∧ printed ≠ "it's".toList.map Char.toNat := by
  have hvalue : literalUnits? "'it\\'s'".toList = some ("it's".toList.map Char.toNat) := by
    with_unfolding_all rfl
  obtain ⟨s, text, printed, hparse, htext, hprinted, hiff⟩ := quoted_snippet_kept_iff hvalue
  exact ⟨hvalue, s, text, printed, hparse, htext, hprinted, fun he => hiff.mp he (by decide)⟩

end Componentry.Snippet
