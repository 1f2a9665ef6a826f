import Componentry.Proofs.Outcome
import Componentry.Yaml.Token.Stream
import Mathlib.Data.List.TakeWhile

/-!
# Faults in the tokens of a text

Almost everything that is wrong with a text is a problem at a mark.  Two things are not: a version
with a number of more digits than are read, and an escape for a code that no character has.

`Meets x post blame` says what a reader gives and what its faults are.  A reader starts at a cursor
on the text and ends at one (`Cursor.On`), and if it meets with a fault, then the text has one of
the two things in it (`Overlong`).

**Main statement.** If a fault ends the tokens of a text, then the text has a number or an escape that
is the cause of it (`overlong_of_ofText`).
-/

namespace Componentry.Yaml

/-! ## Results and faults -/

/-- `post` holds of the result, if there is one, and `blame` of the fault, if there is one. -/
structure Meets {α : Type} (x : Except Trouble α) (post : α → Prop) (blame : Fault → Prop) : Prop where
  ensures : Ensures x post
  blames : ∀ f, x = .error (.fault f) → blame f

section

variable {α β : Type} {x : Except Trouble α} {f : α → Except Trouble β}
variable {post post' : α → Prop} {after : β → Prop} {blame blame' : Fault → Prop}

theorem meets_ok {a : α} (h : post a) : Meets (.ok a) post blame :=
  ⟨ensures_ok h, by rintro f ⟨⟩⟩

theorem meets_pure {a : α} (h : post a) : Meets (pure a) post blame :=
  meets_ok h

theorem meets_problem {during : Option (Activity × Option Mark)} {what : Problem} {mark : Mark} :
    Meets (.error (.problem during what mark) : Except Trouble α) post blame :=
  ⟨ensures_error _, by rintro f ⟨⟩⟩

theorem meets_fault {f : Fault} (h : blame f) : Meets (.error (.fault f) : Except Trouble α) post blame :=
  ⟨ensures_error _, by rintro f ⟨⟩; exact h⟩

theorem meets_ite {p : Prop} [Decidable p] {y : Except Trouble α} (hx : p → Meets x post blame)
    (hy : ¬ p → Meets y post blame) : Meets (if p then x else y) post blame := by
  split
  · next h => exact hx h
  · next h => exact hy h

theorem Meets.bind (h : Meets x post blame) (hf : ∀ a, post a → Meets (f a) after blame) :
    Meets (x >>= f) after blame := by
  cases x with
  | error t =>
    refine ⟨ensures_error t, fun fault hfault => h.blames fault ?_⟩
    cases hfault
    rfl
  | ok a => exact hf a (h.ensures a rfl)

theorem Meets.imp (h : Meets x post blame) (hp : ∀ a, post a → post' a)
    (hb : ∀ f, blame f → blame' f) : Meets x post' blame' :=
  ⟨h.ensures.imp hp, fun f hf => hb f (h.blames f hf)⟩

end

/-! ## Cursors -/

/-- The cursor is on the text: what lies ahead of it is the end of the text. -/
def Cursor.On (text : List Char) (c : Cursor) : Prop :=
  c.rest <:+ text

variable {text : List Char} {c : Cursor}

namespace Cursor.On

theorem advance (h : c.On text) (n : Nat) : (c.advance n).On text := by
  unfold Cursor.On
  rw [Cursor.rest_advance]
  exact (List.drop_suffix n c.rest).trans h

theorem step (h : c.On text) : c.step.On text :=
  h.advance 1

theorem takeWhile (h : c.On text) (p : Char → Bool) : (c.takeWhile p).2.On text :=
  h.advance _

theorem skipWhile (h : c.On text) (p : Char → Bool) : (c.skipWhile p).On text :=
  h.advance _

theorem takeBreak (h : c.On text) : c.takeBreak.2.On text := by
  unfold Cursor.takeBreak
  dsimp only
  split
  · exact h.advance 2
  · split
    · exact h.advance 1
    · split
      · exact h.advance 1
      · exact h

theorem take_infix (h : c.On text) (n : Nat) : c.rest.take n <:+: text :=
  (List.take_prefix n c.rest).isInfix.trans h.isInfix

/-- The character at the cursor and those behind it. -/
theorem here_infix (h : c.On text) (hc : c.here ≠ endMark) (n : Nat) :
    c.here :: c.step.rest.take n <:+: text := by
  have htake := h.take_infix (n + 1)
  rw [Cursor.rest_step]
  cases hr : c.rest with
  | nil => simp [Cursor.here, Cursor.ahead, hr] at hc
  | cons d ds => simpa [Cursor.here, Cursor.ahead, hr] using htake

theorem takeWhile_infix (h : c.On text) (p : Char → Bool) : c.rest.takeWhile p <:+: text :=
  (List.takeWhile_prefix p).isInfix.trans h.isInfix

end Cursor.On

/-! ## What faults are due to -/

/-- The text has a run of digits that is too long, or an escape for a code that no character has, and
this is the fault. -/
inductive Overlong (text : List Char) : Fault → Prop
  | digits {digits : List Char} (ht : digits <:+: text) (hd : ∀ d ∈ digits, d.isDigit)
    (hl : Text.digitLimit < digits.length) : Overlong text (.tooManyDigits digits.length)
  | escape {letter : Char} {digits : List Char} {f : Fault} (ht : letter :: digits <:+: text)
    (hw : escapeWidth? letter = some digits.length)
    (hf : charOfCode (Text.natOfHex digits) = .error f) : Overlong text f

/-! ## Names, tags and directives -/

theorem meets_readAnchor (activity : Activity) (h : c.On text) :
    Meets (readAnchor activity c) (fun r => r.2.On text) (Overlong text) :=
  meets_ite (fun _ => meets_problem) fun _ =>
    meets_ite (fun _ => meets_ok (h.step.advance _)) fun _ => meets_problem

theorem meets_readHandle (activity : LabelActivity) (start : Mark) (h : c.On text) :
    Meets (readHandle activity start c) (fun r => r.2.On text) (Overlong text) :=
  meets_ite (fun _ => meets_problem) fun _ =>
    meets_ite (fun _ => meets_ok h.step) fun _ =>
      meets_ite (fun _ => meets_problem) fun _ => meets_ok (h.step.advance _).step

theorem meets_readOctets (activity : LabelActivity) (start : Mark) :
    ∀ (limit : Nat) {c : Cursor}, c.On text →
      Meets (readOctets activity start limit c) (fun r => r.2.On text) (Overlong text)
  | 0, c, h => meets_ok h
  | limit + 1, c, h => by
    refine meets_ite (fun _ => meets_ok h) fun _ => ?_
    dsimp only
    split
    · exact meets_problem
    · exact (meets_readOctets activity start limit (h.step.advance 2)).bind fun r hr => meets_pure hr

theorem meets_readEscapes (activity : LabelActivity) (start : Mark) (h : c.On text) :
    Meets (readEscapes activity start c) (fun r => r.2.On text) (Overlong text) := by
  refine (meets_readOctets activity start _ h).bind fun r hr => ?_
  dsimp only
  split
  · exact meets_pure hr
  · exact meets_problem

theorem meets_readUriPieces (activity : LabelActivity) (start : Mark) :
    ∀ (limit : Nat) {c : Cursor}, c.On text →
      Meets (readUriPieces activity start limit c) (fun r => r.2.On text) (Overlong text)
  | 0, c, h => meets_ok h
  | limit + 1, c, h => by
    refine meets_ite (fun _ => meets_pure (h.advance _)) fun _ => ?_
    refine (meets_readEscapes activity start (h.advance _)).bind fun r hr => ?_
    exact (meets_readUriPieces activity start limit hr).bind fun r' hr' => meets_pure hr'

theorem meets_readUri (activity : LabelActivity) (start : Mark) (h : c.On text) :
    Meets (readUri activity start c) (fun r => r.2.On text) (Overlong text) :=
  meets_ite
    (fun _ => (meets_readUriPieces activity start _ h).bind fun _ hr => meets_pure hr)
    fun _ => meets_problem

theorem meets_readTagParts (h : c.On text) :
    Meets (readTagParts c) (fun r => r.2.On text) (Overlong text) := by
  refine meets_ite (fun _ => ?full) fun _ => meets_ite (fun _ => meets_pure h.step) fun _ =>
    meets_ite (fun _ => ?handle) fun _ => ?plain
  case full =>
    exact (meets_readUri tagActivity c.mark (h.advance 2)).bind fun r hr =>
      meets_ite (fun _ => meets_problem) fun _ => meets_pure hr.step
  case handle =>
    refine (meets_readHandle tagActivity c.mark h).bind fun r hr => ?_
    exact (meets_readUri tagActivity c.mark hr).bind fun r' hr' => meets_pure hr'
  case plain =>
    exact (meets_readUri tagActivity c.mark h.step).bind fun r hr => meets_pure hr

theorem meets_readTag (h : c.On text) :
    Meets (readTag c) (fun r => r.2.On text) (Overlong text) :=
  (meets_readTagParts h).bind fun _ hr => meets_ite (fun _ => meets_pure hr) fun _ => meets_problem

theorem meets_readDirectiveName (start : Mark) (h : c.On text) :
    Meets (readDirectiveName start c) (fun r => r.2.On text) (Overlong text) :=
  meets_ite (fun _ => meets_problem) fun _ =>
    meets_ite (fun _ => meets_ok (h.advance _)) fun _ => meets_problem

/-- The first source of faults: a number with too many digits. -/
theorem meets_readVersionNumber (start : Mark) (h : c.On text) :
    Meets (readVersionNumber start c) (fun r => r.2.On text) (Overlong text) := by
  refine meets_ite (fun _ => meets_problem) fun _ => meets_ite (fun hl => ?_) fun _ =>
    meets_ok (h.advance _)
  exact meets_fault (.digits (h.takeWhile_infix _) (fun d hd => List.mem_takeWhile_imp hd) hl)

theorem meets_readVersion (start : Mark) (h : c.On text) :
    Meets (readVersion start c) (fun r => r.2.On text) (Overlong text) := by
  refine (meets_readVersionNumber start (h.skipWhile _)).bind fun r hr => ?_
  refine meets_ite (fun _ => meets_problem) fun _ => ?_
  exact (meets_readVersionNumber start hr.step).bind fun r' hr' =>
    meets_ite (fun _ => meets_pure hr') fun _ => meets_problem

theorem meets_readTagDirective (start : Mark) (h : c.On text) :
    Meets (readTagDirective start c) (fun r => r.2.On text) (Overlong text) := by
  refine (meets_readHandle directiveActivity start (h.skipWhile _)).bind fun r hr => ?_
  refine meets_ite (fun _ => meets_problem) fun _ => ?_
  exact (meets_readUri directiveActivity start (hr.skipWhile _)).bind fun r' hr' =>
    meets_ite (fun _ => meets_pure hr') fun _ => meets_problem

theorem Cursor.On.ite {p : Prop} [Decidable p] {c' : Cursor} (h : c.On text) (h' : c'.On text) :
    (if p then c else c').On text := by
  split
  · exact h
  · exact h'

theorem meets_endLine (activity : Activity) (start : Mark) (h : c.On text) :
    Meets (endLine activity start c) (fun c => c.On text) (Overlong text) :=
  have hcomment := Cursor.On.ite ((h.skipWhile (· == ' ')).skipWhile _) (h.skipWhile _)
  meets_ite (fun _ => meets_ok hcomment.takeBreak) fun _ => meets_problem

theorem meets_readDirective (h : c.On text) :
    Meets (readDirective c) (fun r => r.2.2.On text) (Overlong text) := by
  have hend : ∀ {directive : Directive} {next : Cursor} {stop : Mark}, next.On text →
      Meets (do return (directive, stop, ← endLine .directive c.mark next))
        (fun r => r.2.2.On text) (Overlong text) := fun hn =>
    (meets_endLine _ _ hn).bind fun next hn => meets_pure hn
  refine (meets_readDirectiveName c.mark h.step).bind fun r hr => ?_
  refine meets_ite (fun _ => ?version) fun _ => meets_ite (fun _ => ?tag) fun _ =>
    hend (hr.skipWhile _)
  case version => exact (meets_readVersion c.mark hr).bind fun r' hr' => hend hr'
  case tag => exact (meets_readTagDirective c.mark hr).bind fun r' hr' => hend hr'

/-! ## Quoted scalars -/

theorem meets_readQuotedBreaks (start : Mark) : ∀ (limit : Nat) {c : Cursor}, c.On text →
    Meets (readQuotedBreaks start limit c) (fun r => r.2.On text) (Overlong text)
  | 0, c, h => meets_ok h
  | limit + 1, c, h => by
    refine meets_ite (fun _ => meets_problem) fun _ => meets_ite (fun _ => ?_) fun _ =>
      meets_ok (h.skipWhile _)
    exact (meets_readQuotedBreaks start limit (h.skipWhile _).takeBreak).bind fun r hr =>
      meets_pure hr

theorem meets_readQuotedGap (start : Mark) (h : c.On text) :
    Meets (readQuotedGap start c) (fun r => r.2.On text) (Overlong text) := by
  refine meets_ite (fun _ => meets_problem) fun _ => meets_ite (fun _ => ?_) fun _ =>
    meets_ok (h.advance _)
  exact (meets_readQuotedBreaks start _ (h.advance _).takeBreak).bind fun r hr => meets_pure hr

/-- Where hexadecimal digits stand, the text does not end. -/
theorem length_take_of_hex {width : Nat}
    (h : (List.range width).find? (fun k => (Text.hexValue? (c.ahead k)).isNone) = none) :
    (c.rest.take width).length = width := by
  rw [List.length_take, Nat.min_eq_left]
  by_contra hlt
  have hk : c.rest.length ∈ List.range width := by
    rw [List.mem_range]
    omega
  have hdigit := List.find?_eq_none.mp h _ hk
  simp [Cursor.ahead, endMark, Text.hexValue?] at hdigit

/-- The second source of faults: an escape for a code that no character has. -/
theorem meets_readEscape (start : Mark) (h : c.On text) :
    Meets (readEscape start c) (fun r => r.2.On text) (Overlong text) := by
  unfold readEscape
  split
  · exact meets_ok h.step
  · next width _ hwidth =>
    dsimp only
    split
    · exact meets_problem
    · next hdigits =>
      have hlength := length_take_of_hex hdigits
      cases hcode : charOfCode (Text.natOfHex (c.step.rest.take width)) with
      | ok d => exact meets_pure (h.step.advance width)
      | error f =>
        have hw : escapeWidth? c.here = some (c.step.rest.take width).length := by
          rw [hlength, hwidth]
        have hhere : c.here ≠ endMark := by
          intro he
          simp [he, endMark, escapeWidth?] at hw
        exact meets_fault (.escape (h.here_infix hhere width) hw hcode)
  · exact meets_ite (fun _ => meets_readQuotedBreaks start _ h.takeBreak) fun _ => meets_problem

theorem meets_readQuotedPieces (quote : Char) (start : Mark) : ∀ (limit : Nat) {c : Cursor},
    c.On text → Meets (readQuotedPieces quote start limit c) (fun r => r.2.On text) (Overlong text)
  | 0, c, h => meets_problem
  | limit + 1, c, h => by
    refine meets_ite (fun _ => meets_ok h.step) fun _ => ?_
    have hrest : ∀ r : List Char × Cursor, r.2.On text →
        Meets (readQuotedPieces quote start limit r.2 >>= fun r' => pure (r.1 ++ r'.1, r'.2))
          (fun r => r.2.On text) (Overlong text) := fun r hr =>
      (meets_readQuotedPieces quote start limit hr).bind fun r' hr' => meets_pure hr'
    exact meets_ite (fun _ => hrest ([quote], c.advance 2) (h.advance 2)) fun _ =>
      meets_ite (fun _ => (meets_readEscape start h.step).bind hrest) fun _ =>
        meets_ite (fun _ => (meets_readQuotedGap start h).bind hrest) fun _ =>
          hrest ([c.here], c.step) h.step

theorem meets_readQuoted (h : c.On text) :
    Meets (readQuoted c) (fun r => r.2.On text) (Overlong text) :=
  (meets_readQuotedPieces _ _ _ h.step).bind fun _ hr => meets_pure hr

/-! ## Block scalars -/

theorem meets_readIndentation (start : Mark) (h : c.On text) :
    Meets (readIndentation start c) (fun r => r.2.On text) (Overlong text) :=
  meets_ite (fun _ => meets_problem) fun _ =>
    meets_ite (fun _ => meets_ok h.step) fun _ => meets_ok h

theorem on_readChomping (h : c.On text) : (readChomping c).2.On text := by
  unfold readChomping
  split
  · exact h.step
  · exact h

theorem meets_readIndicators (start : Mark) (h : c.On text) :
    Meets (readIndicators start c) (fun r => r.2.2.On text) (Overlong text) := by
  refine (meets_readIndentation start (on_readChomping h)).bind fun r hr => ?_
  have hsecond : (if (readChomping c).1.isNone && r.1.isSome then readChomping r.2
      else (none, r.2)).2.On text := by
    split
    · exact on_readChomping hr
    · exact hr
  exact meets_ite (fun _ => meets_pure hsecond) fun _ => meets_problem

theorem on_skipIndentation (indent : Nat) (h : c.On text) : (skipIndentation indent c).On text :=
  h.advance _

theorem on_readBlockBreaks (indent : Nat) : ∀ (limit : Nat) (stop : Mark) {c : Cursor},
    c.On text → (readBlockBreaks indent stop limit c).2.2.On text
  | 0, stop, c, h => h
  | limit + 1, stop, c, h => by
    rw [readBlockBreaks]
    dsimp only
    split
    · exact on_readBlockBreaks indent limit _ (on_skipIndentation indent h).takeBreak
    · exact on_skipIndentation indent h

theorem on_readWidest : ∀ (limit widest : Nat) (stop : Mark) {c : Cursor},
    c.On text → (readWidest widest stop limit c).2.2.2.On text
  | 0, widest, stop, c, h => h
  | limit + 1, widest, stop, c, h => by
    rw [readWidest]
    dsimp only
    split
    · exact on_readWidest limit _ _ (h.skipWhile _).takeBreak
    · exact h.skipWhile _

theorem on_readBlockLines (folding : Bool) (indent : Nat) :
    ∀ (limit : Nat) (breaks : List Char) (stop : Mark) {c : Cursor}, c.On text →
      (readBlockLines folding indent limit breaks stop c).2.2.2.2.On text
  | 0, breaks, stop, c, h => h
  | limit + 1, breaks, stop, c, h => by
    rw [readBlockLines]
    split
    · rcases hline : c.takeWhile (!isBreakOrEnd ·) with ⟨line, c₁⟩
      rcases hbreak : c₁.takeBreak with ⟨lineBreak, c₂⟩
      rcases hmore : readBlockBreaks indent c₂.mark (c₂.rest.length + 1) c₂ with ⟨more, stop', c₃⟩
      have h₁ : c₁.On text := by simpa only [hline] using h.takeWhile (!isBreakOrEnd ·)
      have h₂ : c₂.On text := by simpa only [hbreak] using h₁.takeBreak
      have h₃ : c₃.On text := by
        simpa only [hmore] using on_readBlockBreaks indent (c₂.rest.length + 1) c₂.mark h₂
      dsimp only
      rw [hbreak]
      dsimp only
      rw [hmore]
      dsimp only
      split
      · exact on_readBlockLines folding indent limit _ _ h₃
      · exact h₃
    · exact h

theorem meets_readBlock (folding : Bool) (outer : Option Nat) (h : c.On text) :
    Meets (readBlock folding outer c) (fun r => r.2.2.On text) (Overlong text) := by
  unfold readBlock
  refine (meets_readIndicators c.mark h.step).bind fun ⟨chomping, indentation, c'⟩ hr => ?_
  refine (meets_endLine .blockScalar c.mark hr).bind fun next hn => ?_
  -- the tuples are generalised, since otherwise the readers are unfolded to compare them
  cases indentation with
  | none =>
    have hfirst := on_readWidest (next.rest.length + 1) 0 next.mark hn
    dsimp only
    generalize readWidest 0 next.mark (next.rest.length + 1) next = first at hfirst ⊢
    have hlast := on_readBlockLines folding (max (max ((outer.map (· + 1)).getD 0) 1) first.2.1)
      (first.2.2.2.rest.length + 1) first.1 first.2.2.1 hfirst
    generalize readBlockLines folding _ _ _ _ _ = lines at hlast ⊢
    exact meets_pure hlast
  | some n =>
    have hfirst := on_readBlockBreaks (max ((outer.map (· + 1)).getD 0) 1 + n - 1)
      (next.rest.length + 1) next.mark hn
    dsimp only
    generalize readBlockBreaks _ next.mark (next.rest.length + 1) next = first at hfirst ⊢
    have hlast := on_readBlockLines folding (max ((outer.map (· + 1)).getD 0) 1 + n - 1)
      (first.2.2.rest.length + 1) first.1 first.2.1 hfirst
    generalize readBlockLines folding _ _ _ _ _ = lines at hlast ⊢
    exact meets_pure hlast

/-! ## Plain scalars -/

theorem on_readPlainBreaks : ∀ (limit : Nat) {c : Cursor}, c.On text →
    (readPlainBreaks limit c).2.On text
  | 0, c, h => h
  | limit + 1, c, h => by
    rw [readPlainBreaks]
    split
    · exact h
    · dsimp only
      split
      · exact on_readPlainBreaks limit (h.skipWhile _).takeBreak
      · exact h.skipWhile _

theorem on_readPlainGap (h : c.On text) : (readPlainGap c).2.1.On text := by
  have hblanks := h.takeWhile (· == ' ')
  unfold readPlainGap
  dsimp only
  split
  · exact on_readPlainBreaks _ hblanks.takeBreak
  · exact hblanks

theorem on_readPlainWords (inFlow : Bool) (indent : Nat) :
    ∀ (limit : Nat) (gap : List Char) (stop : Mark) (broken : Bool) {c : Cursor}, c.On text →
      (readPlainWords inFlow indent limit gap stop broken c).2.2.1.On text
  | 0, gap, stop, broken, c, h => h
  | limit + 1, gap, stop, broken, c, h => by
    rw [readPlainWords]
    dsimp only
    generalize (if c.here == '#' then [] else plainWord inFlow c.rest) = word
    split
    · exact h
    · rcases hgap : readPlainGap (c.advance word.length) with ⟨next, c', broken'⟩
      have hc' : c'.On text := by
        simpa only [hgap] using on_readPlainGap (h.advance word.length)
      dsimp only
      split
      · exact hc'
      · exact on_readPlainWords inFlow indent limit _ _ _ hc'

theorem on_readPlain (inFlow : Bool) (outer : Option Nat) (h : c.On text) :
    (readPlain inFlow outer c).2.2.1.On text := by
  unfold readPlain
  dsimp only
  exact on_readPlainWords inFlow _ _ _ _ _ h

/-! ## The lexer -/

namespace Lexer

variable {l : Lexer}

/-- Giving up pending keys moves nothing and raises no fault. -/
theorem meets_dropStale (h : l.cursor.On text) :
    Meets l.dropStale (fun l => l.cursor.On text) (Overlong text) := by
  unfold dropStale
  split
  · exact meets_problem
  · exact meets_ok h

theorem meets_dropKey (h : l.cursor.On text) :
    Meets l.dropKey (fun l => l.cursor.On text) (Overlong text) := by
  unfold dropKey
  split
  · exact meets_ite (fun _ => meets_problem) fun _ => meets_ok h
  · exact meets_ok h

theorem meets_saveKey (h : l.cursor.On text) :
    Meets l.saveKey (fun l => l.cursor.On text) (Overlong text) :=
  meets_ite (fun _ => (meets_dropKey h).bind fun _ hl => meets_pure hl) fun _ => meets_ok h

@[simp] theorem cursor_closeBlocks (l : Lexer) (column : Option Nat) :
    (l.closeBlocks column).cursor = l.cursor := by
  unfold closeBlocks
  split <;> rfl

@[simp] theorem cursor_openBlock (l : Lexer) (kind : TokenKind) :
    (l.openBlock kind).cursor = l.cursor := by
  unfold openBlock
  dsimp only
  split <;> rfl

@[simp] theorem cursor_confirmKey (l : Lexer) (key : PendingKey) :
    (l.confirmKey key).cursor = l.cursor := by
  unfold confirmKey
  dsimp only
  split <;> rfl

theorem on_pushWide (h : l.cursor.On text) (kind : TokenKind) (n : Nat) :
    (l.pushWide kind n).cursor.On text :=
  h.advance n

theorem on_skipGap : ∀ (limit : Nat) {l : Lexer}, l.cursor.On text → (skipGap limit l).cursor.On text
  | 0, l, h => h
  | limit + 1, l, h => by
    have hcomment := Cursor.On.ite ((h.skipWhile (· == ' ')).skipWhile (!isBreakOrEnd ·))
      (h.skipWhile (· == ' ')) (p := (l.cursor.skipWhile (· == ' ')).here == '#')
    rw [skipGap]
    generalize (if (l.cursor.skipWhile (· == ' ')).here == '#' then
      (l.cursor.skipWhile (· == ' ')).skipWhile (!isBreakOrEnd ·)
      else l.cursor.skipWhile (· == ' ')) = c at hcomment
    split
    · exact on_skipGap limit hcomment.takeBreak
    · exact hcomment

theorem on_skipToToken (h : l.cursor.On text) : l.skipToToken.cursor.On text :=
  on_skipGap _ (Cursor.On.ite h.step h)

theorem meets_closeAll (h : l.cursor.On text) :
    Meets l.closeAll (fun l => l.cursor.On text) (Overlong text) :=
  (meets_dropKey (by simpa using h)).bind fun _ hl => meets_pure hl

theorem meets_readEnd (h : l.cursor.On text) :
    Meets l.readEnd (fun l => l.cursor.On text) (Overlong text) :=
  (meets_closeAll h).bind fun _ hl => meets_pure hl

theorem meets_readDirectiveLine (h : l.cursor.On text) :
    Meets l.readDirectiveLine (fun l => l.cursor.On text) (Overlong text) :=
  (meets_closeAll h).bind fun _ hl => (meets_readDirective hl).bind fun _ hr => meets_pure hr

theorem meets_readSeparator (kind : TokenKind) (h : l.cursor.On text) :
    Meets (l.readSeparator kind) (fun l => l.cursor.On text) (Overlong text) :=
  (meets_closeAll h).bind fun _ hl => meets_pure (on_pushWide hl kind 3)

theorem meets_readOpening (kind : TokenKind) (h : l.cursor.On text) :
    Meets (l.readOpening kind) (fun l => l.cursor.On text) (Overlong text) :=
  (meets_saveKey h).bind fun _ hl => meets_pure (on_pushWide hl kind 1)

theorem meets_readClosing (kind : TokenKind) (h : l.cursor.On text) :
    Meets (l.readClosing kind) (fun l => l.cursor.On text) (Overlong text) :=
  (meets_dropKey h).bind fun _ hl => meets_pure (on_pushWide hl kind 1)

theorem meets_readComma (h : l.cursor.On text) :
    Meets l.readComma (fun l => l.cursor.On text) (Overlong text) :=
  (meets_dropKey h).bind fun _ hl => meets_pure (on_pushWide hl .flowEntry 1)

theorem meets_openBlockHere (kind : TokenKind) (complaint : Problem) (h : l.cursor.On text) :
    Meets (l.openBlockHere kind complaint) (fun l => l.cursor.On text) (Overlong text) :=
  meets_ite (fun _ => meets_ok h) fun _ =>
    meets_ite (fun _ => meets_ok (by simpa using h)) fun _ => meets_problem

theorem meets_readDash (h : l.cursor.On text) :
    Meets l.readDash (fun l => l.cursor.On text) (Overlong text) :=
  (meets_openBlockHere _ _ h).bind fun _ hl => (meets_dropKey hl).bind fun _ hk =>
    meets_pure (on_pushWide hk .blockEntry 1)

theorem meets_readQuestion (h : l.cursor.On text) :
    Meets l.readQuestion (fun l => l.cursor.On text) (Overlong text) :=
  (meets_openBlockHere _ _ h).bind fun _ hl => (meets_dropKey hl).bind fun _ hk =>
    meets_pure (on_pushWide hk .key 1)

theorem meets_readColon (h : l.cursor.On text) :
    Meets l.readColon (fun l => l.cursor.On text) (Overlong text) := by
  unfold readColon
  split
  · exact meets_pure (on_pushWide (by simpa using h) .value 1)
  · exact (meets_openBlockHere _ _ h).bind fun l hl =>
      meets_pure (on_pushWide (l := { l with keyAllowed := !l.inFlow }) hl .value 1)

theorem meets_readKeyable {read : Cursor → Except Trouble (TokenKind × Cursor)} (h : l.cursor.On text)
    (hread : ∀ c, c.On text → Meets (read c) (fun r => r.2.On text) (Overlong text)) :
    Meets (l.readKeyable read) (fun l => l.cursor.On text) (Overlong text) :=
  (meets_saveKey h).bind fun _ hl => (hread _ hl).bind fun _ hr => meets_pure hr

theorem meets_readBlockScalar (folding : Bool) (h : l.cursor.On text) :
    Meets (l.readBlockScalar folding) (fun l => l.cursor.On text) (Overlong text) :=
  (meets_dropKey h).bind fun _ hl => (meets_readBlock folding _ hl).bind fun _ hr => meets_pure hr

theorem meets_readPlainScalar (h : l.cursor.On text) :
    Meets l.readPlainScalar (fun l => l.cursor.On text) (Overlong text) :=
  (meets_saveKey h).bind fun _ hl => meets_pure (on_readPlain _ _ hl)

/-- One step of the lexer stays on the text. -/
theorem meets_fetch (h : l.cursor.On text) :
    Meets l.fetch (fun l => l.cursor.On text) (Overlong text) := by
  have hanchor : ∀ (activity : Activity) (kind : String → TokenKind) (c : Cursor), c.On text →
      Meets (readAnchor activity c >>= fun r => pure (kind r.1, r.2))
        (fun r => r.2.On text) (Overlong text) := fun activity kind c hc =>
    (meets_readAnchor activity hc).bind fun _ hr => meets_pure hr
  refine (meets_dropStale (on_skipToToken h)).bind fun l hl => ?_
  have hl : (l.closeBlocks (some l.cursor.mark.column)).cursor.On text := by simpa using hl
  generalize l.closeBlocks (some l.cursor.mark.column) = l at hl
  dsimp only
  split
  · exact meets_readEnd hl
  · exact meets_readOpening _ hl
  · exact meets_readOpening _ hl
  · exact meets_readClosing _ hl
  · exact meets_readClosing _ hl
  · exact meets_readComma hl
  · exact meets_readKeyable hl (hanchor .alias .alias)
  · exact meets_readKeyable hl (hanchor .anchor .anchor)
  · exact meets_readKeyable hl fun c hc => meets_readTag hc
  · exact meets_readKeyable hl fun c hc => meets_readQuoted hc
  · exact meets_readKeyable hl fun c hc => meets_readQuoted hc
  · exact meets_ite (fun _ => meets_readDirectiveLine hl) fun _ =>
      meets_ite (fun _ => meets_readSeparator _ hl) fun _ =>
      meets_ite (fun _ => meets_readSeparator _ hl) fun _ =>
      meets_ite (fun _ => meets_readDash hl) fun _ =>
      meets_ite (fun _ => meets_readQuestion hl) fun _ =>
      meets_ite (fun _ => meets_readColon hl) fun _ =>
      meets_ite (fun _ => meets_readBlockScalar _ hl) fun _ =>
      meets_ite (fun _ => meets_readPlainScalar hl) fun _ => meets_problem

/-- What comes after a step has the blame of the step, or that of what follows. -/
theorem blames_after {α : Type} {step : Except Trouble α} {rest : α → TokenStream}
    {post : α → Prop} {blame : Fault → Prop} {f : Fault} (h : Meets step post blame)
    (hrest : ∀ a, post a → (rest a).trouble = some (.fault f) → blame f)
    (hf : (TokenStream.after step rest).trouble = some (.fault f)) : blame f := by
  cases step with
  | ok a => exact hrest a (h.ensures a rfl) hf
  | error trouble =>
    cases hf
    exact h.blames f rfl

/-- The whole walk of the lexer stays on the text. -/
theorem overlong_of_run {f : Fault} (limit : Nat) (h : l.cursor.On text)
    (hf : (run limit l).trouble = some (.fault f)) : Overlong text f := by
  induction limit generalizing l with
  | zero => cases hf
  | succ limit ih =>
    rw [run] at hf
    refine blames_after (meets_fetch h) (fun l₁ h₁ hf₁ => ?_) hf
    split at hf₁
    · cases hf₁
    · refine blames_after (meets_dropStale h₁) (fun l₂ h₂ hf₂ => ?_) hf₁
      exact ih (l := { l₂ with queue := l₂.queue.drop l₂.ready, given := l₂.given + l₂.ready }) h₂ hf₂

end Lexer

/-- **A fault that ends the tokens of a text is due to a number or an escape in the text.** -/
theorem overlong_of_ofText {f : Fault} (h : (TokenStream.ofText text).trouble = some (.fault f)) :
    Overlong text f := by
  unfold TokenStream.ofText at h
  split at h
  · cases h
  · have hstart : Cursor.On text { rest := text } := List.suffix_rfl
    exact Lexer.overlong_of_run _ hstart h

end Componentry.Yaml
