import Componentry.Script.Printer

/-!
# Shifted texts

Indentation moves the lines of a text to the right: behind every line feed there are more spaces.
`shifted n` puts the spaces of `n` levels there.

Not every line feed need be followed by indentation.  `ShiftedBut n k s t` says that `t` is `s` with the
spaces behind all line feeds but `k`, so that `t` is the shifted text just when `k` is zero
(`ShiftedBut.eq_shiftedChars_iff`).

`Shifts n p s t` is the same for pieces of a printed text, where `p` tells whether any line feed is left
out.  Pieces are put together, in brackets, in lists and in lines between braces, and each way of doing
so has its lemma here.
-/

namespace Componentry.Script

/-! ## Characters -/

/-- The spaces of `n` levels. -/
def margin (n : Nat) : List Char :=
  List.replicate (2 * n) ' '

/-- The characters with the spaces of `n` levels behind every line feed. -/
def shiftedChars (n : Nat) (cs : List Char) : List Char :=
  cs.flatMap fun c => if c = '\n' then '\n' :: margin n else [c]

/-- The text with the spaces of `n` levels behind every line feed. -/
def shifted (n : Nat) (text : String) : String :=
  String.ofList (shiftedChars n text.toList)

/-- `t` is `s` with the spaces of `n` levels behind every line feed but `k` of them. -/
inductive ShiftedBut (n : Nat) : Nat → List Char → List Char → Prop
  | nil : ShiftedBut n 0 [] []
  | char {c : Char} {k : Nat} {s t : List Char} (hc : c ≠ '\n') (h : ShiftedBut n k s t) :
    ShiftedBut n k (c :: s) (c :: t)
  | line {k : Nat} {s t : List Char} (h : ShiftedBut n k s t) :
    ShiftedBut n k ('\n' :: s) ('\n' :: (margin n ++ t))
  | feed {k : Nat} {s t : List Char} (h : ShiftedBut n k s t) :
    ShiftedBut n (k + 1) ('\n' :: s) ('\n' :: t)

namespace ShiftedBut

variable {n k k' : Nat} {s s' t t' : List Char}

theorem append (h : ShiftedBut n k s t) (h' : ShiftedBut n k' s' t') :
    ShiftedBut n (k + k') (s ++ s') (t ++ t') := by
  induction h with
  | nil => simpa using h'
  | char hc _ ih => exact .char hc ih
  | line _ ih => simpa using ih.line
  | feed _ ih =>
    rw [Nat.add_right_comm]
    exact ih.feed

/-- A text that stays as it is. -/
theorem refl (n : Nat) (s : List Char) : ShiftedBut n (s.count '\n') s s := by
  induction s with
  | nil => exact .nil
  | cons c s ih =>
    by_cases hc : c = '\n'
    · subst hc
      rw [List.count_cons_self]
      exact ih.feed
    · rw [List.count_cons_of_ne hc]
      exact .char hc ih

/-- Each line feed that is left out makes the text shorter. -/
theorem length_eq (h : ShiftedBut n k s t) :
    t.length + k * (2 * n) = (shiftedChars n s).length := by
  induction h with
  | nil => simp [shiftedChars]
  | char hc _ ih => simp [shiftedChars, hc] at ih ⊢; omega
  | line _ ih => simp [shiftedChars, margin] at ih ⊢; omega
  | feed _ ih => simp [shiftedChars, margin, Nat.add_mul] at ih ⊢; omega

theorem eq_shiftedChars (h : ShiftedBut n k s t) (hz : n = 0 ∨ k = 0) : t = shiftedChars n s := by
  induction h with
  | nil => rfl
  | char hc _ ih => simp [shiftedChars, hc, ih hz]
  | line _ ih => simp [shiftedChars, ih hz]
  | feed _ ih =>
    have hn : n = 0 := hz.resolve_right (Nat.succ_ne_zero _)
    simp [shiftedChars, margin, hn, ih (.inl hn)]

/-- **A text is shifted as a whole just when no line feed is left out.** -/
theorem eq_shiftedChars_iff (h : ShiftedBut n k s t) : t = shiftedChars n s ↔ n = 0 ∨ k = 0 := by
  refine ⟨fun ht => ?_, h.eq_shiftedChars⟩
  have hlength := h.length_eq
  rw [← ht] at hlength
  rcases Nat.mul_eq_zero.mp (Nat.add_eq_left.mp hlength) with hk | hn
  · exact .inr hk
  · exact .inl (by omega)

/-- Up to the first line feed nothing changes. -/
theorem isPrefixOf_eq (h : ShiftedBut n k s t) {start : List Char} (hs : '\n' ∉ start) :
    start.isPrefixOf t = start.isPrefixOf s := by
  induction h generalizing start with
  | nil => rfl
  | char hc _ ih =>
    cases start with
    | nil => rfl
    | cons d start =>
      rw [List.isPrefixOf, List.isPrefixOf, ih (List.not_mem_of_not_mem_cons hs)]
  | line | feed =>
    cases start with
    | nil => rfl
    | cons d start =>
      have hd : (d == '\n') = false := beq_false_of_ne fun h => hs (h ▸ List.mem_cons_self)
      rw [List.isPrefixOf, List.isPrefixOf, hd, Bool.false_and, Bool.false_and]

end ShiftedBut

/-! ## Pieces of text -/

/-- `t` is `s` with the spaces of `n` levels behind its line feeds; `p` holds just when some of them
are left out. -/
def Shifts (n : Nat) (p : Prop) (s t : String) : Prop :=
  ∃ k, ShiftedBut n k s.toList t.toList ∧ (p ↔ k ≠ 0)

/-- The same for a line, which has the spaces in front as well. -/
def ShiftsLine (n : Nat) (p : Prop) (s t : String) : Prop :=
  ∃ rest, t = String.ofList (margin n) ++ rest ∧ Shifts n p s rest

theorem toList_indent {level : Int} (h : 0 ≤ level) (n : Nat) :
    (indent (level + n)).toList = margin n ++ (indent level).toList := by
  have hsize : 2 * (level + n).toNat = 2 * n + 2 * level.toNat := by omega
  rw [indent, indent, String.toList_ofList, String.toList_ofList, hsize,
    ← List.replicate_append_replicate]
  rfl

namespace Shifts

variable {n : Nat} {p q : Prop} {s s' t t' : String}

theorem eq_shifted_iff (h : Shifts n p s t) : t = shifted n s ↔ (n ≠ 0 → ¬ p) := by
  obtain ⟨k, hk, hp⟩ := h
  rw [← String.toList_inj, shifted, String.toList_ofList, hk.eq_shiftedChars_iff, hp,
    Decidable.not_not, Decidable.or_iff_not_imp_left]

theorem congr (h : Shifts n p s t) (hpq : p ↔ q) : Shifts n q s t := by
  rwa [← propext hpq]

theorem append (h : Shifts n p s t) (h' : Shifts n q s' t') :
    Shifts n (p ∨ q) (s ++ s') (t ++ t') := by
  obtain ⟨k, hk, hp⟩ := h
  obtain ⟨k', hk', hq⟩ := h'
  refine ⟨k + k', ?_, by rw [hp, hq]; omega⟩
  rw [String.toList_append, String.toList_append]
  exact hk.append hk'

/-- A text that stays as it is. -/
theorem refl (n : Nat) (s : String) : Shifts n ('\n' ∈ s.toList) s s :=
  ⟨_, .refl n s.toList, by rw [Nat.ne_zero_iff_zero_lt, List.count_pos_iff]⟩

theorem const (h : '\n' ∉ s.toList) : Shifts n False s s :=
  (refl n s).congr (iff_of_false h id)

/-- Text without line feeds is put in front. -/
theorem prepend (h : Shifts n p s t) {a : String} (ha : '\n' ∉ a.toList) :
    Shifts n p (a ++ s) (a ++ t) :=
  ((const ha).append h).congr (false_or p).to_iff

/-- Text without line feeds is put behind. -/
theorem concat (h : Shifts n p s t) {a : String} (ha : '\n' ∉ a.toList) :
    Shifts n p (s ++ a) (t ++ a) :=
  (h.append (const ha)).congr (or_false p).to_iff

theorem parenthesized (h : Shifts n p s t) :
    Shifts n p (Script.parenthesized s) (Script.parenthesized t) :=
  (h.prepend (by decide)).concat (by decide)

theorem parenthesizedIf (h : Shifts n p s t) (b : Bool) :
    Shifts n p (Script.parenthesizedIf b s) (Script.parenthesizedIf b t) := by
  cases b with
  | false => exact h
  | true => exact h.parenthesized

/-- Whether an expression is parenthesised as a statement depends on how it starts. -/
theorem expressionLine (h : Shifts n p s t) :
    Shifts n p (Script.expressionLine s) (Script.expressionLine t) := by
  obtain ⟨k, hk, -⟩ := id h
  rw [Script.expressionLine, Script.expressionLine, hk.isPrefixOf_eq (by decide),
    hk.isPrefixOf_eq (by decide)]
  exact (h.parenthesizedIf _).concat (by decide)

end Shifts

namespace ShiftsLine

variable {n : Nat} {p q : Prop} {s s' t t' : String}

/-- A line starts with its indentation. -/
theorem indent {level : Int} (hl : 0 ≤ level) :
    ShiftsLine n False (Script.indent level) (Script.indent (level + n)) := by
  refine ⟨Script.indent level, ?_, .const (by simp [Script.indent])⟩
  rw [← String.toList_inj, String.toList_append, String.toList_ofList, toList_indent hl]

theorem append (h : ShiftsLine n p s t) (h' : Shifts n q s' t') :
    ShiftsLine n (p ∨ q) (s ++ s') (t ++ t') := by
  obtain ⟨rest, rfl, hrest⟩ := h
  exact ⟨rest ++ t', String.append_assoc, hrest.append h'⟩

/-- Text without line feeds is put behind. -/
theorem concat (h : ShiftsLine n p s t) {a : String} (ha : '\n' ∉ a.toList) :
    ShiftsLine n p (s ++ a) (t ++ a) := by
  obtain ⟨rest, rfl, hrest⟩ := h
  exact ⟨rest ++ a, String.append_assoc, hrest.concat ha⟩

/-- A line becomes a piece of the text above it. -/
theorem newline (h : ShiftsLine n p s t) : Shifts n p ("\n" ++ s) ("\n" ++ t) := by
  obtain ⟨rest, rfl, k, hk, hp⟩ := h
  refine ⟨k, ?_, hp⟩
  simpa using hk.line

theorem congr (h : ShiftsLine n p s t) (hpq : p ↔ q) : ShiftsLine n q s t := by
  rwa [← propext hpq]

theorem eq_shifted_iff (h : ShiftsLine n p s t) :
    t = String.ofList (margin n) ++ shifted n s ↔ (n ≠ 0 → ¬ p) := by
  obtain ⟨rest, rfl, hrest⟩ := h
  rw [String.append_right_inj, hrest.eq_shifted_iff]

end ShiftsLine

/-! ## Lists of pieces -/

/-- `R` relates the texts one by one; `p` holds just when it does for one of them. -/
inductive Each (R : Prop → String → String → Prop) : Prop → List String → List String → Prop
  | nil : Each R False [] []
  | cons {p q : Prop} {s t : String} {ss ts : List String} (h : R p s t) (hs : Each R q ss ts) :
    Each R (p ∨ q) (s :: ss) (t :: ts)

namespace Each

variable {R : Prop → String → String → Prop} {n : Nat} {p : Prop} {ss ts : List String}

theorem congr {q : Prop} (h : Each R p ss ts) (hpq : p ↔ q) : Each R q ss ts := by
  rwa [← propext hpq]

theorem map {f : String → String} (h : Each R p ss ts) (hf : ∀ {p s t}, R p s t → R p (f s) (f t)) :
    Each R p (ss.map f) (ts.map f) := by
  induction h with
  | nil => exact .nil
  | cons h _ ih => exact .cons (hf h) ih

theorem joined (h : Each (Shifts n) p ss ts) {sep : String} (hsep : '\n' ∉ sep.toList) :
    Shifts n p (Text.joined sep ss) (Text.joined sep ts) := by
  induction h with
  | nil => exact .const (s := "") (by decide)
  | cons h hs ih =>
    cases hs with
    | nil => exact h.congr (or_false _).to_iff.symm
    | cons => exact (h.concat hsep).append ih

/-- Lines one below another. -/
theorem lines (h : Each (ShiftsLine n) p ss ts) (hne : ss ≠ []) (sep : String)
    (hsep : '\n' ∉ sep.toList) :
    Shifts n p ("\n" ++ Text.joined (sep ++ "\n") ss) ("\n" ++ Text.joined (sep ++ "\n") ts) := by
  induction h with
  | nil => exact absurd rfl hne
  | cons h hs ih =>
    cases hs with
    | nil => exact h.newline.congr (or_false _).to_iff.symm
    | cons =>
      have hlines := (h.newline.concat hsep).append (ih (List.cons_ne_nil _ _))
      simpa [Text.joined, String.append_assoc] using hlines

/-- Lines between braces. -/
theorem braced (h : Each (ShiftsLine n) p ss ts) (hne : ss ≠ []) (sep : String)
    (hsep : '\n' ∉ sep.toList) {level : Int} (hl : 0 ≤ level) :
    Shifts n p ("\x7b\n" ++ Text.joined (sep ++ "\n") ss ++ "\n" ++ indent level ++ "\x7d")
      ("\x7b\n" ++ Text.joined (sep ++ "\n") ts ++ "\n" ++ indent (level + n) ++ "\x7d") := by
  have hclose := (ShiftsLine.indent (n := n) hl).newline
  have hall := (((h.lines hne sep hsep).prepend (a := "\x7b") (by decide)).append hclose).concat
    (a := "\x7d") (by decide)
  have hbrace : "\x7b\n" = "\x7b" ++ "\n" := rfl
  rw [hbrace]
  simpa only [String.append_assoc, or_false] using hall

theorem blockText (h : Each (ShiftsLine n) p ss ts) {level : Int} (hl : 0 ≤ level) :
    Shifts n p (Script.blockText level ss) (Script.blockText (level + n) ts) := by
  cases h with
  | nil => exact .const (s := "\x7b\x7d") (by decide)
  | cons h hs => exact (Each.cons h hs).braced (List.cons_ne_nil _ _) "" (by decide) hl

theorem objectText (h : Each (ShiftsLine n) p ss ts) {level : Int} (hl : 0 ≤ level) :
    Shifts n p (Script.objectText level ss) (Script.objectText (level + n) ts) := by
  cases h with
  | nil => exact .const (s := "\x7b\x7d") (by decide)
  | cons h hs => exact (Each.cons h hs).braced (List.cons_ne_nil _ _) "," (by decide) hl

end Each

theorem functionText_shifts {n : Nat} {p q r : Prop} {name name' : String}
    {params params' lines lines' : List String} (hname : Shifts n p name name')
    (hparams : Each (Shifts n) q params params') (hlines : Each (ShiftsLine n) r lines lines')
    {level : Int} (hl : 0 ≤ level) :
    Shifts n ((p ∨ q) ∨ r) (functionText level name params lines)
      (functionText (level + n) name' params' lines') := by
  have hlist : Shifts n q (Text.joined ", " params) (Text.joined ", " params') :=
    hparams.joined (by decide)
  have hhead := (hname.prepend (a := "function ") (by decide)).append hlist.parenthesized
  exact (hhead.concat (by decide)).append (hlines.blockText hl)

end Componentry.Script
