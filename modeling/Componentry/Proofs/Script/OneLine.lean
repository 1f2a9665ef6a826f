import Componentry.Proofs.Script.LiteralGrammar
import Componentry.Proofs.Script.PropertyName
import Componentry.Proofs.Script.Template

/-!
# Pieces on one line

The smallest pieces of a printed module are on one line: numbers and string literals always, and names
and the texts of templates if they hold no line feed themselves.  A key that is a text is either quoted
or a word, and then a line feed may stand at its end (`mem_shownKey_iff`).
-/

namespace Componentry

theorem not_mem_append {s t : String} (hs : '\n' ∉ s.toList) (ht : '\n' ∉ t.toList) :
    '\n' ∉ (s ++ t).toList := by
  simp [hs, ht]

/-! ## Numbers -/

theorem toList_pushn (s : String) (c : Char) (k : Nat) :
    (s.pushn c k).toList = s.toList ++ List.replicate k c := by
  induction k with
  | zero => simp [String.pushn, Nat.repeat]
  | succ k ih =>
    rw [String.pushn, Nat.repeat, ← String.pushn, String.toList_push, ih, List.append_assoc,
      ← List.replicate_succ']

theorem not_mem_repr (k : Nat) : '\n' ∉ (Nat.repr k).toList := by
  rw [Nat.toList_repr]
  exact fun h => absurd (Nat.isDigit_of_mem_toDigits (by decide) (by decide) h) (by decide)

namespace Double

section Digits

variable {digits : String} (h : '\n' ∉ digits.toList) (place : Int)

include h

theorem not_mem_take (k : Nat) : '\n' ∉ (digits.take k).toString.toList := by
  rw [String.Slice.toString_eq, String.toList_copy_take]
  exact mt List.mem_of_mem_take h

theorem not_mem_drop (k : Nat) : '\n' ∉ (digits.drop k).toString.toList := by
  rw [String.Slice.toString_eq, String.toList_copy_drop]
  exact mt List.mem_of_mem_drop h

theorem not_mem_positional : '\n' ∉ (positional digits place).toList := by
  unfold positional
  split
  · simp [toList_pushn, h]
  dsimp only
  split
  · simp [toList_pushn, h]
  · exact not_mem_append (not_mem_append (not_mem_take h _) (by decide)) (not_mem_drop h _)

theorem not_mem_scientific : '\n' ∉ (scientific digits place).toList := by
  have hsize := not_mem_repr (place - 1).natAbs
  unfold scientific
  refine not_mem_append (not_mem_append (not_mem_append (not_mem_take h 1) ?_) ?_) ?_
  · split
    · decide
    · exact not_mem_append (by decide) (not_mem_drop h 1)
  · split <;> decide
  · split
    · exact not_mem_append (by decide) hsize
    · exact hsize

end Digits

/-- The text of a double is on one line. -/
theorem not_mem_text (x : Double) : '\n' ∉ x.text.toList := by
  have hdigits := not_mem_repr x.shortest.digits
  have hsign : '\n' ∉ (if x.isNegative then "-" else "").toList := by
    split <;> decide
  unfold text
  split
  · decide
  dsimp only
  split
  · exact not_mem_append hsign (by decide)
  split
  · exact not_mem_append hsign (by decide)
  refine not_mem_append hsign ?_
  split
  · exact not_mem_positional hdigits _
  · exact not_mem_scientific hdigits _

end Double

theorem ensures_integerText (n : Int) : Ensures (integerText n) fun text => '\n' ∉ text.toList := by
  have hdigits := not_mem_repr n.natAbs
  unfold integerText Text.integerText?
  dsimp only
  split
  · next s h =>
    obtain ⟨-, hs⟩ := Option.ite_none_left_eq_some.mp h
    cases hs
    refine ensures_ok ?_
    split
    · exact not_mem_append (by decide) hdigits
    · exact hdigits
  · exact ensures_error _

namespace Script

/-- The text of a number is on one line. -/
theorem ensures_numberText (v : Number) : Ensures v.text fun text => '\n' ∉ text.toList := by
  cases v with
  | int n => exact ensures_integerText n
  | float x =>
    unfold Number.text
    dsimp only
    split
    · exact ensures_ok (by decide)
    split
    · refine ensures_ok ?_
      split <;> decide
    split
    · exact ensures_integerText _
    · exact ensures_ok x.not_mem_text

/-! ## Texts -/

theorem not_mem_quoted (s : String) : '\n' ∉ (Text.quoted s).toList :=
  fun h => absurd (le_toNat_of_mem_quoted h) (by decide)

theorem not_mem_of_isWord {cs : List Char} (h : Text.isWord cs = true) : '\n' ∉ cs := by
  intro hm
  cases cs with
  | nil => cases hm
  | cons c rest =>
    rw [Text.isWord, Bool.and_eq_true, List.all_eq_true] at h
    rcases List.mem_cons.mp hm with rfl | hm
    · exact absurd h.1 (by decide)
    · exact absurd (h.2 _ hm) (by decide)

/-- **A printed key is on one line, unless it is a word and one line feed.** -/
theorem mem_shownKey_iff (key : String) : '\n' ∈ (shownKey key).toList ↔ IsBrokenWord key := by
  by_cases hb : IsBrokenWord key
  · refine iff_of_true ?_ hb
    rw [shownKey, if_pos hb.isIdentifierName]
    obtain ⟨word, -, hkey⟩ := hb
    simp [hkey]
  · refine iff_of_false ?_ hb
    unfold shownKey
    split
    · next hn => exact not_mem_of_isWord (isWord_of_isIdentifierName hn hb)
    · exact not_mem_quoted key

theorem mem_escapeSegment (cs : List Char) : '\n' ∈ escapeSegment cs ↔ '\n' ∈ cs := by
  fun_induction escapeSegment cs with
  | case1 => rfl
  | case2 rest ih | case3 rest ih | case4 rest ih => simp [ih]
  | case5 c rest _ _ _ ih => simp [ih]

theorem mem_joined (sep : String) (hsep : '\n' ∉ sep.toList) (texts : List String) :
    '\n' ∈ (Text.joined sep texts).toList ↔ ∃ text ∈ texts, '\n' ∈ text.toList := by
  fun_induction Text.joined sep texts with
  | case1 => simp
  | case2 s => simp
  | case3 s rest hne ih => simp [ih, hsep]

end Script

end Componentry
