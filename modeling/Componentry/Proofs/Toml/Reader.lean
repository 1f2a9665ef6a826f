import Componentry.Proofs.Json.Reader
import Componentry.Toml.Reader

/-!
# Faults in TOML texts

As with JSON, what is wrong with a TOML text is a problem in front of the rest of the text, or a
numeral with more digits than are read.

**Main statement.** A text that is refused has a problem, or a numeral in it is refused
(`failsOnly_parse`).
-/

namespace Componentry.Toml

/-- Reading stops at a problem, or at a numeral. -/
def Stop.Regular : Stop → Prop
  | .problem _ _ => True
  | .fault f => f.OfNumeral

/-! ## Blanks and strings -/

theorem failsOnly_refuse (p : Char → Bool) (n : Nat) (cs : List Char) :
    FailsOnly (refuse p n cs) Stop.Regular := by
  unfold refuse
  split
  · exact failsOnly_error trivial
  · exact failsOnly_ok _

theorem failsOnly_skipComment (cs : List Char) : FailsOnly (skipComment cs) Stop.Regular := by
  unfold skipComment
  split
  · exact (failsOnly_refuse _ _ _).bind fun _ _ => failsOnly_pure _
  · exact failsOnly_ok _

theorem failsOnly_skipBlank (limit : Nat) (cs : List Char) :
    FailsOnly (skipBlank limit cs) Stop.Regular := by
  induction limit generalizing cs with
  | zero => exact failsOnly_ok _
  | succ limit ih =>
    unfold skipBlank
    refine (failsOnly_skipComment _).bind fun next _ => ?_
    exact failsOnly_ite (failsOnly_pure _) (ih next)

theorem failsOnly_literal (mark : List Char) (isIllegal : Char → Bool) (cs : List Char) :
    FailsOnly (literal mark isIllegal cs) Stop.Regular := by
  unfold literal
  split
  · exact failsOnly_error trivial
  · exact (failsOnly_refuse _ _ _).bind fun _ _ => failsOnly_pure _

theorem failsOnly_hexChar (width : Nat) (cs : List Char) :
    FailsOnly (hexChar width cs) Stop.Regular := by
  unfold hexChar
  refine failsOnly_ite (failsOnly_error trivial) ?_
  exact failsOnly_ite (failsOnly_ok _) (failsOnly_error trivial)

theorem failsOnly_escape (multiline : Bool) (cs : List Char) :
    FailsOnly (escape multiline cs) Stop.Regular := by
  unfold escape
  split
  · exact failsOnly_error trivial
  · refine failsOnly_ite (failsOnly_ok _) (failsOnly_ite ?_ ?_)
    · split
      · exact failsOnly_ok _
      · exact failsOnly_ok _
      · exact failsOnly_error trivial
    · refine failsOnly_ite (failsOnly_hexChar _ _) (failsOnly_ite (failsOnly_hexChar _ _) ?_)
      split
      · exact failsOnly_ok _
      · exact failsOnly_error trivial

theorem failsOnly_basicFrom (multiline : Bool) (limit : Nat) (cs : List Char) :
    FailsOnly (basicFrom multiline limit cs) Stop.Regular := by
  induction limit generalizing cs with
  | zero => exact failsOnly_error trivial
  | succ limit ih =>
    unfold basicFrom
    split
    · exact failsOnly_throw trivial
    · refine failsOnly_ite (failsOnly_pure _) (failsOnly_ite (failsOnly_pure _) ?_)
      refine failsOnly_ite ?_ (failsOnly_ite (failsOnly_throw trivial) ?_)
      · refine (failsOnly_escape _ _).bind fun _ _ => ?_
        exact (ih _).bind fun _ _ => failsOnly_pure _
      · exact (ih _).bind fun _ _ => failsOnly_pure _

theorem failsOnly_multiline (mark : Char) (cs : List Char) :
    FailsOnly (multiline mark cs) Stop.Regular := by
  unfold multiline
  refine failsOnly_ite ?_ ?_
  · exact (failsOnly_basicFrom _ _ _).bind fun _ _ => failsOnly_pure _
  · exact (failsOnly_literal _ _ _).bind fun _ _ => failsOnly_pure _

theorem failsOnly_string (mark : Char) (cs : List Char) :
    FailsOnly (string mark cs) Stop.Regular := by
  unfold string
  refine failsOnly_ite (failsOnly_multiline _ _) ?_
  exact failsOnly_ite (failsOnly_basicFrom _ _ _) (failsOnly_literal _ _ _)

/-! ## Keys -/

theorem failsOnly_keyPart (cs : List Char) : FailsOnly (keyPart cs) Stop.Regular := by
  unfold keyPart
  split
  · exact failsOnly_throw trivial
  · refine failsOnly_ite (failsOnly_pure _) (failsOnly_ite ?_ (failsOnly_ite ?_ ?_))
    · exact (failsOnly_literal _ _ _).bind fun _ _ => failsOnly_pure _
    · exact (failsOnly_basicFrom _ _ _).bind fun _ _ => failsOnly_pure _
    · exact failsOnly_throw trivial

theorem failsOnly_keyFrom (limit : Nat) (cs : List Char) :
    FailsOnly (keyFrom limit cs) Stop.Regular := by
  induction limit generalizing cs with
  | zero => exact failsOnly_ok _
  | succ limit ih =>
    unfold keyFrom
    refine (failsOnly_keyPart cs).bind fun read _ => ?_
    dsimp only
    split
    · exact (ih _).bind fun _ _ => failsOnly_pure _
    · exact failsOnly_pure _

theorem failsOnly_key (cs : List Char) : FailsOnly (key cs) Stop.Regular :=
  failsOnly_keyFrom _ cs

/-! ## Values -/

theorem failsOnly_moment? {cs : List Char} {outcome : Except Stop (Scalar × List Char)}
    (h : moment? cs = some outcome) : FailsOnly outcome Stop.Regular := by
  unfold moment? at h
  split at h
  · cases h
  · split at h
    · cases h
      exact failsOnly_error trivial
    · split at h
      · cases h
        exact failsOnly_ok _
      · cases h
        exact failsOnly_ok _

theorem failsOnly_number? {cs rest : List Char} {value : Except Fault Scalar}
    (h : number? cs = some (value, rest)) : FailsOnly value Fault.OfNumeral := by
  unfold number? at h
  split at h
  · cases h
    exact failsOnly_ok _
  · dsimp only at h
    split at h
    · cases h
    · cases h
      refine failsOnly_ite ?_ ?_
      · exact (Numeral.failsOnly_integer _ _).bind fun _ _ => failsOnly_pure _
      · exact (Numeral.failsOnly_float _).bind fun _ _ => failsOnly_pure _

theorem failsOnly_scalar (cs : List Char) : FailsOnly (scalar cs) Stop.Regular := by
  unfold scalar
  refine failsOnly_ite (failsOnly_ok _) (failsOnly_ite (failsOnly_ok _) ?_)
  split
  · next h => exact failsOnly_moment? h
  · split
    · exact failsOnly_ok _
    · split
      · exact failsOnly_ok _
      · next h => exact failsOnly_error (failsOnly_number? h _ rfl)
      · split
        · exact failsOnly_ok _
        · exact failsOnly_error trivial

mutual

theorem failsOnly_value : ∀ (limit : Nat) (cs : List Char), FailsOnly (value limit cs) Stop.Regular
  | 0, _ => by
    unfold value
    exact failsOnly_error trivial
  | limit + 1, cs => by
    unfold value
    split
    · exact (failsOnly_string _ _).bind fun _ _ => failsOnly_pure _
    · exact (failsOnly_string _ _).bind fun _ _ => failsOnly_pure _
    · refine (failsOnly_skipBlank _ _).bind fun _ _ => ?_
      exact (failsOnly_elements limit _).bind fun _ _ => failsOnly_pure _
    · split
      · exact failsOnly_pure _
      · exact (failsOnly_inlinePairs limit _ _ _).bind fun _ _ => failsOnly_pure _
    · exact (failsOnly_scalar _).bind fun _ _ => failsOnly_pure _

theorem failsOnly_elements : ∀ (limit : Nat) (cs : List Char),
    FailsOnly (elements limit cs) Stop.Regular
  | 0, _ => by
    unfold elements
    exact failsOnly_error trivial
  | limit + 1, cs => by
    unfold elements
    split
    · exact failsOnly_pure _
    · refine (failsOnly_value limit _).bind fun read _ => ?_
      refine (failsOnly_skipBlank _ _).bind fun rest _ => ?_
      split
      · exact failsOnly_pure _
      · refine (failsOnly_skipBlank _ _).bind fun _ _ => ?_
        exact (failsOnly_elements limit _).bind fun _ _ => failsOnly_pure _
      · exact failsOnly_throw trivial

theorem failsOnly_pair : ∀ (limit : Nat) (cs : List Char), FailsOnly (pair limit cs) Stop.Regular
  | 0, _ => by
    unfold pair
    exact failsOnly_error trivial
  | limit + 1, cs => by
    unfold pair
    refine (failsOnly_key cs).bind fun read _ => ?_
    dsimp only
    split
    · exact (failsOnly_value limit _).bind fun _ _ => failsOnly_pure _
    · exact failsOnly_throw trivial

theorem failsOnly_inlinePairs : ∀ (limit : Nat) (frozen : List Key) (table : Table)
    (cs : List Char), FailsOnly (inlinePairs limit frozen table cs) Stop.Regular
  | 0, _, _, _ => by
    unfold inlinePairs
    exact failsOnly_error trivial
  | limit + 1, frozen, table, cs => by
    unfold inlinePairs
    refine (failsOnly_pair limit cs).bind fun read _ => ?_
    refine failsOnly_ite (failsOnly_throw trivial) ?_
    dsimp only
    split
    · exact failsOnly_throw trivial
    · refine failsOnly_ite (failsOnly_throw trivial) ?_
      split
      · exact failsOnly_pure _
      · exact failsOnly_inlinePairs limit _ _ _
      · exact failsOnly_throw trivial

end

/-! ## Statements -/

namespace Draft

theorem failsOnly_tableHeader (d : Draft) (cs : List Char) :
    FailsOnly (d.tableHeader cs) Stop.Regular := by
  unfold tableHeader
  refine (failsOnly_key _).bind fun read _ => ?_
  refine failsOnly_ite (failsOnly_throw trivial) ?_
  split
  · exact failsOnly_throw trivial
  · split
    · exact failsOnly_pure _
    · exact failsOnly_throw trivial

theorem failsOnly_arrayHeader (d : Draft) (cs : List Char) :
    FailsOnly (d.arrayHeader cs) Stop.Regular := by
  unfold arrayHeader
  refine (failsOnly_key _).bind fun read _ => ?_
  refine failsOnly_ite (failsOnly_throw trivial) ?_
  dsimp only
  split
  · exact failsOnly_throw trivial
  · split
    · exact failsOnly_pure _
    · exact failsOnly_throw trivial

theorem failsOnly_keyValue (d : Draft) (cs : List Char) :
    FailsOnly (d.keyValue cs) Stop.Regular := by
  unfold keyValue
  refine (failsOnly_pair _ _).bind fun read _ => ?_
  dsimp only
  split
  · exact failsOnly_throw trivial
  · refine failsOnly_ite (failsOnly_throw trivial) ?_
    refine failsOnly_ite (failsOnly_throw trivial) ?_
    split
    · exact failsOnly_throw trivial
    · exact failsOnly_pure _

theorem failsOnly_statement (d : Draft) (cs : List Char) :
    FailsOnly (d.statement cs) Stop.Regular := by
  unfold statement
  split
  · exact failsOnly_arrayHeader _ _
  · exact failsOnly_tableHeader _ _
  · exact failsOnly_ok _
  · exact failsOnly_ite (failsOnly_keyValue _ _) (failsOnly_error trivial)
  · exact failsOnly_ok _

theorem failsOnly_statements : ∀ (limit : Nat) (d : Draft) (cs : List Char),
    FailsOnly (statements limit d cs) Stop.Regular
  | 0, _, _ => failsOnly_ok _
  | limit + 1, d, cs => by
    unfold statements
    split
    · exact failsOnly_pure _
    · exact failsOnly_statements limit d _
    · refine (failsOnly_statement d _).bind fun read _ => ?_
      refine (failsOnly_skipComment _).bind fun rest _ => ?_
      split
      · exact failsOnly_pure _
      · exact failsOnly_statements limit _ _
      · exact failsOnly_throw trivial

end Draft

/-- **What is wrong with a text that is refused:** it has a problem, or a numeral in it has one. -/
theorem failsOnly_parse (text : List Char) :
    FailsOnly (parse text) fun f => (∃ complaint, f = .badToml complaint) ∨ f.OfNumeral := by
  unfold parse
  refine FailsOnly.bind ?_ fun _ _ => failsOnly_pure _
  refine (Draft.failsOnly_statements _ _ _).mapError fun stop hstop => ?_
  cases stop with
  | problem what rest =>
    cases rest with
    | nil => exact .inl ⟨_, rfl⟩
    | cons c rest => exact .inl ⟨_, rfl⟩
  | fault f => exact .inr hstop

end Componentry.Toml
