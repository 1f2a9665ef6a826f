/-!
# Joining and splitting

`joined` puts a separator between texts; `splitOn` cuts a text at a character.

**Main statement.** Joining the pieces of a cut text with that character gives the text back
(`intercalate_splitOn`).
-/

namespace Componentry.Text

/-- The texts one after another, with `sep` between them. -/
def joined (sep : String) : List String → String
  | [] => ""
  | [s] => s
  | s :: rest => s ++ sep ++ joined sep rest

/-- The pieces of a text between the occurrences of `sep`; there is always at least one. -/
def splitOn (sep : Char) : List Char → List (List Char)
  | [] => [[]]
  | c :: cs =>
    match splitOn sep cs with
    | [] => [[]]
    | piece :: rest => if c = sep then [] :: piece :: rest else (c :: piece) :: rest

theorem splitOn_ne_nil (sep : Char) (cs : List Char) : splitOn sep cs ≠ [] := by
  cases cs with
  | nil => simp [splitOn]
  | cons c cs =>
    simp only [splitOn]
    split
    · simp
    · split <;> simp

/-- **The pieces of a cut text, joined again, are the text.** -/
theorem intercalate_splitOn (sep : Char) (cs : List Char) :
    List.intercalate [sep] (splitOn sep cs) = cs := by
  induction cs with
  | nil => simp [splitOn, List.intercalate]
  | cons c cs ih =>
    simp only [splitOn]
    match h : splitOn sep cs with
    | [] => exact absurd h (splitOn_ne_nil sep cs)
    | piece :: rest =>
      rw [h] at ih
      by_cases hc : c = sep
      · subst hc
        simpa [List.intercalate] using ih
      · cases rest with
        | nil => simpa [hc, List.intercalate] using ih
        | cons p ps => simpa [hc, List.intercalate] using ih

/-- No piece is longer than the text. -/
theorem length_le_of_mem_splitOn {sep : Char} {cs piece : List Char}
    (h : piece ∈ splitOn sep cs) : piece.length ≤ cs.length := by
  induction cs generalizing piece with
  | nil => simp_all [splitOn]
  | cons c cs ih =>
    simp only [splitOn] at h
    split at h
    · simp at h; simp [h]
    · next p ps hs =>
      have hp : p.length ≤ cs.length := ih (by simp [hs])
      split at h
      · simp only [List.mem_cons] at h
        rcases h with rfl | rfl | h
        · simp
        · simp; omega
        · have : piece.length ≤ cs.length := ih (by simp [hs, h])
          simp; omega
      · simp only [List.mem_cons] at h
        rcases h with rfl | h
        · simpa using hp
        · have : piece.length ≤ cs.length := ih (by simp [hs, h])
          simp; omega

end Componentry.Text
