import Componentry.Json.Reader
import Componentry.Proofs.Outcome

/-!
# Faults in JSON texts

Almost everything that is wrong with a JSON text is a problem in front of the rest of the text.  Only a
number can be wrong otherwise: it may have more digits than are read.

**Main statement.** A text that is refused has a problem, or a numeral in it is refused
(`failsOnly_parse`).
-/

namespace Componentry

/-- The fault says that a text is no number, or a number with too many digits. -/
inductive Fault.OfNumeral : Fault → Prop
  | tooManyDigits (count : Nat) : OfNumeral (.tooManyDigits count)
  | notInteger (base : Nat) (text : String) : OfNumeral (.notInteger base text)
  | notNumber (text : String) : OfNumeral (.notNumber text)

theorem Numeral.failsOnly_integer (base : Nat) (text : List Char) :
    FailsOnly (Numeral.integer base text) Fault.OfNumeral := by
  unfold Numeral.integer
  refine failsOnly_ite (failsOnly_error (.tooManyDigits _)) ?_
  exact failsOnly_ite (failsOnly_error (.notInteger _ _)) (failsOnly_ok _)

theorem Numeral.failsOnly_float (text : List Char) :
    FailsOnly (Numeral.float text) Fault.OfNumeral := by
  unfold Numeral.float
  refine failsOnly_ite (failsOnly_ok _) (failsOnly_ite (failsOnly_ok _) ?_)
  split
  · exact failsOnly_ok _
  · exact failsOnly_error (.notNumber _)

namespace Json

/-- Reading stops at a problem, or at a numeral. -/
def Stop.Regular : Stop → Prop
  | .problem _ _ => True
  | .fault f => f.OfNumeral

/-! ## Strings -/

theorem failsOnly_unicodeEscape (mark cs : List Char) :
    FailsOnly (unicodeEscape mark cs) Stop.Regular := by
  unfold unicodeEscape
  refine failsOnly_ite (failsOnly_error trivial) ?_
  split
  · exact failsOnly_error trivial
  · refine failsOnly_ite ?_ (failsOnly_ok _)
    split
    · split
      · exact failsOnly_error trivial
      · exact failsOnly_ite (failsOnly_ok _) (failsOnly_ok _)
    · exact failsOnly_ok _

theorem failsOnly_stringFrom (start : List Char) : ∀ (limit : Nat) (cs : List Char),
    FailsOnly (stringFrom start limit cs) Stop.Regular
  | 0, _ => failsOnly_error trivial
  | limit + 1, cs => by
    have hmore := failsOnly_stringFrom start limit
    unfold stringFrom
    split
    · exact failsOnly_throw trivial
    · exact failsOnly_pure _
    · dsimp only
      split
      · exact failsOnly_throw trivial
      · refine (failsOnly_unicodeEscape _ _).bind fun _ _ => ?_
        exact (hmore _).bind fun _ _ => failsOnly_pure _
      · split
        · exact (hmore _).bind fun _ _ => failsOnly_pure _
        · exact failsOnly_throw trivial
    · exact failsOnly_ite (failsOnly_throw trivial) ((hmore _).bind fun _ _ => failsOnly_pure _)

theorem failsOnly_string (start cs : List Char) : FailsOnly (string start cs) Stop.Regular :=
  (failsOnly_stringFrom start _ cs).bind fun _ _ => failsOnly_pure _

/-! ## Values -/

theorem failsOnly_number (cs : List Char) : FailsOnly (number cs) Stop.Regular := by
  have hinteger : ∀ text, FailsOnly ((Numeral.integer 10 text).mapError .fault) Stop.Regular :=
    fun text => (Numeral.failsOnly_integer 10 text).mapError fun _ h => h
  have hfloat : ∀ text, FailsOnly ((Numeral.float text).mapError .fault) Stop.Regular :=
    fun text => (Numeral.failsOnly_float text).mapError fun _ h => h
  unfold number
  refine failsOnly_ite (failsOnly_throw trivial) ?_
  refine failsOnly_ite ?_ ?_
  · exact (hinteger _).bind fun _ _ => failsOnly_pure _
  · exact (hfloat _).bind fun _ _ => failsOnly_pure _

theorem failsOnly_plain (cs : List Char) : FailsOnly (plain cs) Stop.Regular := by
  unfold plain
  split
  · exact failsOnly_ok _
  · exact failsOnly_number cs

mutual

theorem failsOnly_value : ∀ (limit : Nat) (cs : List Char),
    FailsOnly (value limit cs) Stop.Regular
  | 0, _ => by
    unfold value
    exact failsOnly_error trivial
  | limit + 1, cs => by
    unfold value
    split
    · exact failsOnly_throw trivial
    · exact (failsOnly_string _ _).bind fun _ _ => failsOnly_pure _
    · dsimp only
      split
      · exact failsOnly_pure _
      · exact (failsOnly_members limit _ _).bind fun _ _ => failsOnly_pure _
    · dsimp only
      split
      · exact failsOnly_pure _
      · exact (failsOnly_elements limit _).bind fun _ _ => failsOnly_pure _
    · exact failsOnly_plain cs

theorem failsOnly_members : ∀ (limit : Nat) (done : List (Tree × Tree)) (cs : List Char),
    FailsOnly (members limit done cs) Stop.Regular
  | 0, _, _ => by
    unfold members
    exact failsOnly_error trivial
  | limit + 1, done, cs => by
    unfold members
    split
    · refine (failsOnly_string _ _).bind fun read _ => ?_
      dsimp only
      split
      · refine (failsOnly_value limit _).bind fun read _ => ?_
        split
        · exact failsOnly_pure _
        · exact failsOnly_members limit _ _
        · exact failsOnly_throw trivial
      · exact failsOnly_throw trivial
    · exact failsOnly_throw trivial

theorem failsOnly_elements : ∀ (limit : Nat) (cs : List Char),
    FailsOnly (elements limit cs) Stop.Regular
  | 0, _ => by
    unfold elements
    exact failsOnly_error trivial
  | limit + 1, cs => by
    unfold elements
    refine (failsOnly_value limit cs).bind fun read _ => ?_
    dsimp only
    split
    · exact failsOnly_pure _
    · exact (failsOnly_elements limit _).bind fun _ _ => failsOnly_pure _
    · exact failsOnly_throw trivial

end

theorem failsOnly_document (cs : List Char) : FailsOnly (document cs) Stop.Regular := by
  unfold document
  refine failsOnly_ite (failsOnly_throw trivial) ?_
  refine (failsOnly_value _ _).bind fun _ _ => ?_
  exact failsOnly_ite (failsOnly_pure _) (failsOnly_throw trivial)

/-- **What is wrong with a text that is refused:** it has a problem, or a numeral in it has one. -/
theorem failsOnly_parse (text : List Char) :
    FailsOnly (parse text) fun f => (∃ complaint, f = .badJson complaint) ∨ f.OfNumeral := by
  refine (failsOnly_document text).mapError fun stop hstop => ?_
  cases stop with
  | problem what rest => exact .inl ⟨_, rfl⟩
  | fault f => exact .inr hstop

end Json

end Componentry
