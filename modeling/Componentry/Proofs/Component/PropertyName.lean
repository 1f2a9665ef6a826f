import Componentry.Proofs.Component.DataLiteral

/-!
# The names of properties

The keys of a map, and those of attributes, become the names of properties.

**Main statement.** The name that is read from a printed property is the text of its key, unless that
text is a word and one line feed (`property_name_kept_iff`).
-/

namespace Componentry.Component

open Script

theorem propertyKey_eq_keyNode {g : Graph} {key : Value} {s : String} (h : g.display key = .ok s) :
    propertyKey g key = .ok (keyNode s) := by
  rw [propertyKey, h]
  rfl

/-- **Keys are printed faithfully, but for a word and one line feed.** A key with the text `s` becomes a
property that is printed on a line of its own.  The name that is read from this line is `s`, if and only
if `s` is not a word and one line feed; and if `s` is no word, then it is printed as a literal under the
same condition. -/
theorem property_name_kept_iff {g : Graph} {key : Value} {s : String} (h : g.display key = .ok s)
    (annotated : Bool) (level : Int) {value : Node} {text : String}
    (hv : expressionText annotated level value = .ok text) :
    ∃ node shown name, propertyKey g key = .ok node ∧
      propertyText annotated level (.property node value) =
        .ok (indent level ++ shown ++ ": " ++ text) ∧
      propertyName? (indent level ++ shown ++ ": " ++ text).toList = some (name, ' ' :: text.toList) ∧
      (name = s ↔ ¬ IsBrokenWord s) ∧
      (Text.isWord s.toList = false → (shown = Text.quoted s ↔ ¬ IsBrokenWord s)) := by
  obtain ⟨name, hname, hkept⟩ := propertyName?_shownKey s (' ' :: text.toList)
  refine ⟨keyNode s, shownKey s, name, propertyKey_eq_keyNode h, ?_, ?_, hkept, ?_⟩
  · rw [propertyText, keyText_keyNode, hv]
    rfl
  · have hline : (indent level ++ shownKey s ++ ": " ++ text).toList =
        (indent level).toList ++ ((shownKey s).toList ++ ':' :: ' ' :: text.toList) := by
      simp
    rw [hline, propertyName?_indent, hname]
  · intro hw
    rw [shownKey_eq_quoted_iff, not_iff_not]
    constructor
    · intro hn
      by_contra hb
      rw [isWord_of_isIdentifierName hn hb] at hw
      cases hw
    · exact IsBrokenWord.isIdentifierName

/-- A key with a line feed at its end loses it. -/
theorem property_name_kept_iff_lineFeed :
    ∃ node shown name, propertyKey {} (.text "id\n") = .ok node ∧
      propertyText false 1 (.property node (.bool true)) = .ok (indent 1 ++ shown ++ ": " ++ "true") ∧
      propertyName? (indent 1 ++ shown ++ ": " ++ "true").toList = some (name, " true".toList) ∧
      name ≠ "id\n" ∧ shown ≠ Text.quoted "id\n" := by
  have hkey : Graph.display {} (.text "id\n") = .ok "id\n" := by
    rw [Graph.display, Graph.unfold, Graph.unfoldWithin]
    rfl
  have hvalue : expressionText false 1 (.bool true) = .ok "true" := by
    rw [expressionText]
    rfl
  have hbroken : IsBrokenWord "id\n" := ⟨"id".toList, by decide, by decide⟩
  obtain ⟨node, shown, name, hnode, htext, hread, hname, hshown⟩ :=
    property_name_kept_iff hkey false 1 hvalue
  refine ⟨node, shown, name, hnode, htext, hread, fun he => hname.mp he hbroken, fun he => ?_⟩
  exact (hshown (by decide)).mp he hbroken

end Componentry.Component
