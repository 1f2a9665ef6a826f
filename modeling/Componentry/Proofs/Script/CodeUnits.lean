import Componentry.Proofs.Script.StringLiteral

/-!
# The values of string literals

A string of a module is a list of UTF-16 code units, which need not be a text: an escape sequence may
name one half of a character.

**Main statements.** The value of a quoted text is the text (`literalUnits?_quoted`).  An escape sequence
has more code units than it stands for (`unitCount_escape?`), so the value of a literal is what stands
between its marks just when there is no backslash there (`Denotes.flatMap_units_eq_iff`).
-/

namespace Componentry.Script

/-! ## Code units -/

/-- The code units of a character with the given code. -/
def units (n : Nat) : List Nat :=
  if n < 0x10000 then [n] else [0xD800 + (n - 0x10000) / 0x400, 0xDC00 + (n - 0x10000) % 0x400]

/-- The number of code units of characters. -/
def unitCount (codes : List Nat) : Nat :=
  (codes.flatMap units).length

@[simp] theorem unitCount_nil : unitCount [] = 0 := rfl

@[simp] theorem unitCount_cons (n : Nat) (codes : List Nat) :
    unitCount (n :: codes) = (units n).length + unitCount codes := by
  simp [unitCount]

@[simp] theorem unitCount_append (codes codes' : List Nat) :
    unitCount (codes ++ codes') = unitCount codes + unitCount codes' := by
  simp [unitCount]

theorem length_units (n : Nat) : 1 ≤ (units n).length ∧ (units n).length ≤ 2 := by
  unfold units
  split <;> simp

theorem length_le_unitCount (codes : List Nat) : codes.length ≤ unitCount codes := by
  induction codes with
  | nil => simp
  | cons n codes ih =>
    have hn := (length_units n).1
    simp only [List.length_cons, unitCount_cons]
    omega

/-- The value of the string literal that a whole text is. -/
def literalUnits? (cs : List Char) : Option (List Nat) :=
  match cs with
  | mark :: rest =>
    if mark = '"' || mark = '\'' then
      match codes? mark rest with
      | some (codes, []) => some (codes.flatMap units)
      | _ => none
    else none
  | [] => none

theorem exists_codes_of_literalUnits? {cs : List Char} {value : List Nat}
    (h : literalUnits? cs = some value) : ∃ mark rest codes, cs = mark :: rest ∧
      (mark = '"' ∨ mark = '\'') ∧ codes? mark rest = some (codes, []) ∧
      value = codes.flatMap units := by
  unfold literalUnits? at h
  split at h
  · next mark rest =>
    split at h
    · next hm =>
      split at h
      · next codes hc =>
        cases h
        exact ⟨mark, rest, codes, rfl, by simpa using hm, hc, rfl⟩
      · cases h
    · cases h
  · cases h

/-- **The value of a quoted text is the text.** -/
theorem literalUnits?_quoted (s : String) :
    literalUnits? (Text.quoted s).toList = some ((s.toList.map Char.toNat).flatMap units) := by
  rw [Text.quoted, String.toList_ofList, Text.quotedChars, literalUnits?, if_pos (by decide),
    codes?_quoted]

/-! ## Escape sequences are longer than what they stand for -/

theorem length_units_escapedCode (c : Char) :
    (units (escapedCode c)).length ≤ (units c.toNat).length := by
  unfold escapedCode
  split <;> simp [units]

/-- An escape sequence without its backslash is at least as long as what it stands for. -/
theorem unitCount_escape? {cs after : List Char} {codes : List Nat}
    (h : escape? cs = some (codes, after)) :
    ∃ sequence, cs = sequence ++ after ∧ unitCount codes ≤ unitCount (sequence.map Char.toNat) := by
  -- one code is never more than two code units, which is less than the digits of any number
  have hlong : ∀ {n : Nat} {sequence : List Char}, 2 ≤ sequence.length →
      unitCount [n] ≤ unitCount (sequence.map Char.toNat) := by
    intro n sequence hs
    have hn := (length_units n).2
    have hle := length_le_unitCount (sequence.map Char.toNat)
    rw [List.length_map] at hle
    simp only [unitCount_cons, unitCount_nil]
    omega
  unfold escape? at h
  split at h
  · cases h
  · next rest =>
    split at h
    · next after' hd =>
      obtain ⟨n, -, hn⟩ := Option.map_eq_some_iff.mp h
      cases hn
      refine ⟨'u' :: '{' :: (rest.takeWhile isHex ++ ['}']), ?_, hlong (by simp)⟩
      have hsplit := List.takeWhile_append_dropWhile (p := isHex) (l := rest)
      rw [hd] at hsplit
      simp [hsplit]
    · cases h
  · next a b c d after' _ =>
    obtain ⟨n, -, hn⟩ := Option.map_eq_some_iff.mp h
    cases hn
    exact ⟨['u', a, b, c, d], rfl, hlong (by simp)⟩
  · cases h
  · next a b after' =>
    obtain ⟨n, -, hn⟩ := Option.map_eq_some_iff.mp h
    cases hn
    exact ⟨['x', a, b], rfl, hlong (by simp)⟩
  · cases h
  · cases h
    exact ⟨['\r', '\n'], rfl, by simp⟩
  · next c after' _ _ _ _ _ _ =>
    split at h
    · cases h
      exact ⟨[c], rfl, by simp⟩
    · split at h
      · cases h
        have hc := (length_units c.toNat).1
        exact ⟨[c], rfl, by simpa [units] using hc⟩
      · split at h
        · cases h
        · cases h
          have hc := length_units_escapedCode c
          exact ⟨[c], rfl, by simpa using hc⟩

/-- What characters between quotation marks stand for: themselves if there is no backslash among them,
and less than they are if there is one. -/
structure Denotes (inner : List Char) (codes : List Nat) : Prop where
  plain : '\\' ∉ inner → codes = inner.map Char.toNat
  shorter : '\\' ∈ inner → unitCount codes < unitCount (inner.map Char.toNat)

namespace Denotes

variable {inner : List Char} {codes : List Nat}

theorem unitCount_le (h : Denotes inner codes) :
    unitCount codes ≤ unitCount (inner.map Char.toNat) := by
  by_cases hb : '\\' ∈ inner
  · exact Nat.le_of_lt (h.shorter hb)
  · exact Nat.le_of_eq (congrArg unitCount (h.plain hb))

theorem cons {c : Char} (hc : c ≠ '\\') (h : Denotes inner codes) :
    Denotes (c :: inner) (c.toNat :: codes) where
  plain hb := by
    rw [h.plain (List.not_mem_of_not_mem_cons hb), List.map_cons]
  shorter hb := by
    have hlt := h.shorter ((List.mem_cons.mp hb).resolve_left (Ne.symm hc))
    simp only [List.map_cons, unitCount_cons]
    omega

theorem escape {sequence : List Char} {first : List Nat}
    (hs : unitCount first ≤ unitCount (sequence.map Char.toNat)) (h : Denotes inner codes) :
    Denotes ('\\' :: (sequence ++ inner)) (first ++ codes) where
  plain hb := absurd List.mem_cons_self hb
  shorter _ := by
    have hle := h.unitCount_le
    have hbackslash := (length_units '\\'.toNat).1
    simp only [List.map_cons, List.map_append, unitCount_cons, unitCount_append]
    omega

/-- The value is the text between the marks just when there is no backslash in it. -/
theorem flatMap_units_eq_iff (h : Denotes inner codes) :
    (inner.map Char.toNat).flatMap units = codes.flatMap units ↔ '\\' ∉ inner := by
  constructor
  · intro he hb
    exact absurd (congrArg List.length he) (Nat.ne_of_gt (h.shorter hb))
  · intro hb
    rw [h.plain hb]

end Denotes

/-- The characters of a literal up to its closing mark stand for its codes. -/
theorem denotes_of_codes? {mark : Char} {cs rest : List Char} {codes : List Nat}
    (h : codes? mark cs = some (codes, rest)) :
    ∃ inner, cs = inner ++ mark :: rest ∧ Denotes inner codes := by
  fun_induction codes? mark cs generalizing codes rest with
  | case1 => cases h
  | case2 =>
    cases h
    exact ⟨[], rfl, ⟨fun _ => rfl, fun hb => absurd hb List.not_mem_nil⟩⟩
  | case3 _ _ after he _ ih =>
    obtain ⟨⟨more, after'⟩, hc, hp⟩ := Option.map_eq_some_iff.mp h
    cases hp
    obtain ⟨inner, rfl, hinner⟩ := ih hc
    obtain ⟨sequence, rfl, hcount⟩ := unitCount_escape? he
    exact ⟨'\\' :: (sequence ++ inner), by simp, hinner.escape hcount⟩
  | case4 => cases h
  | case5 => cases h
  | case6 c rest' _ hb _ ih =>
    obtain ⟨⟨more, after'⟩, hc, hp⟩ := Option.map_eq_some_iff.mp h
    cases hp
    obtain ⟨inner, rfl, hinner⟩ := ih hc
    exact ⟨c :: inner, rfl, hinner.cons hb⟩

end Componentry.Script
