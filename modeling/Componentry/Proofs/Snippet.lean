import Componentry.Proofs.Script.Printable
import Componentry.Snippet

/-!
# Snippets without long runs of digits

**Main statement.** A text in which no run of digits is too long is a snippet, and its node is
printable (`gives_ofChars`).

Every part of a snippet that is looked at again stands in the text as it is, so that no run of digits
in it is longer than one in the text (`ShortRuns.of_isInfix`).
-/

namespace Componentry.Snippet

open Script (Node Printable fewDigits fewDigits_of_lt)
open Text

/-- No run of digits in a text is too long. -/
def ShortRuns (cs : List Char) : Prop :=
  ∀ run, run <:+: cs → (∀ c ∈ run, isDigit c = true) → run.length ≤ digitLimit

theorem ShortRuns.of_isInfix {cs ds : List Char} (h : ShortRuns cs) (hd : ds <:+: cs) :
    ShortRuns ds :=
  fun run hr => h run (hr.trans hd)

theorem ShortRuns.of_length {cs : List Char} (h : cs.length ≤ digitLimit) : ShortRuns cs :=
  fun _ hr _ => Nat.le_trans hr.length_le h

/-! ## Parts of a text -/

theorem trimLeft_suffix (cs : List Char) : trimLeft cs <:+ cs :=
  List.dropWhile_suffix _

theorem trimRight_isPrefix (cs : List Char) : trimRight cs <+: cs := by
  have h := List.dropWhile_suffix isBlank (l := cs.reverse)
  rw [← List.reverse_prefix, List.reverse_reverse] at h
  exact h

theorem trim_isInfix (cs : List Char) : trim cs <:+: cs :=
  (trimRight_isPrefix _).isInfix.trans (trimLeft_suffix cs).isInfix

/-- The first piece of a cut text stands at its start. -/
theorem prefix_of_splitOn {sep : Char} : ∀ {cs piece : List Char} {rest : List (List Char)},
    splitOn sep cs = piece :: rest → piece <+: cs
  | [], _, _, h => by
    cases h
    exact List.nil_prefix
  | c :: cs, piece, rest, h => by
    rw [splitOn] at h
    split at h
    · cases h
      exact List.nil_prefix
    · next hs =>
      split at h
      · cases h
        exact List.nil_prefix
      · cases h
        exact (List.prefix_cons_inj c).mpr (prefix_of_splitOn hs)

theorem infix_of_mem_splitOn {sep : Char} : ∀ {cs piece : List Char},
    piece ∈ splitOn sep cs → piece <:+: cs
  | [], _, h => by
    rw [splitOn, List.mem_singleton] at h
    exact h ▸ List.infix_rfl
  | c :: cs, piece, h => by
    have hcons : ∀ {q}, q <:+: cs → q <:+: c :: cs :=
      fun hq => hq.trans (List.suffix_cons c cs).isInfix
    rw [splitOn] at h
    split at h
    · rw [List.mem_singleton] at h
      rw [h]
      exact List.nil_infix
    · next p ps hs =>
      have hrest : ∀ q ∈ p :: ps, q <:+: cs := fun q hq => infix_of_mem_splitOn (hs ▸ hq)
      split at h
      · rcases List.mem_cons.mp h with rfl | h
        · exact List.nil_infix
        · exact hcons (hrest _ h)
      · rcases List.mem_cons.mp h with rfl | h
        · exact ((List.prefix_cons_inj c).mpr (prefix_of_splitOn hs)).isInfix
        · exact hcons (hrest _ (List.mem_cons_of_mem _ h))

theorem prefix_of_beforeLast? {c : Char} : ∀ {cs before : List Char},
    beforeLast? c cs = some before → before <+: cs
  | [], _, h => by cases h
  | d :: ds, before, h => by
    rw [beforeLast?] at h
    split at h
    · next b hb =>
      cases h
      exact (List.prefix_cons_inj d).mpr (prefix_of_beforeLast? hb)
    · split at h
      · cases h
        exact List.nil_prefix
      · cases h

theorem splitWord_snd_suffix (cs : List Char) : (splitWord cs).2 <:+ cs :=
  ⟨(splitWord cs).1, splitWord_append cs⟩

theorem infix_of_callParts? {cs name args : List Char} (h : callParts? cs = some (name, args)) :
    args <:+: cs := by
  have hsuffix := splitWord_snd_suffix cs
  unfold callParts? at h
  split at h
  · cases h
  · next hs =>
    rw [hs] at hsuffix
    obtain ⟨before, hb, he⟩ := Option.map_eq_some_iff.mp h
    cases he
    have hprefix := prefix_of_beforeLast? hb
    exact hprefix.isInfix.trans (((List.suffix_cons _ _).trans hsuffix).isInfix)
  · cases h

theorem suffix_of_binaryParts? {cs word operand : List Char} {op : Char}
    (h : binaryParts? cs = some (word, op, operand)) : operand <:+ cs := by
  have hsuffix := splitWord_snd_suffix cs
  unfold binaryParts? at h
  split at h
  · cases h
  · next hs =>
    rw [hs] at hsuffix
    split at h
    · cases h
    · cases h
    · next ht =>
      split at h
      · cases h
        have htrim := trimLeft_suffix (splitWord cs).2
        rw [hs, ht] at htrim
        exact ((List.suffix_cons _ _).trans htrim).trans hsuffix
      · cases h

theorem suffix_of_arrowParts? {cs params body : List Char}
    (h : arrowParts? cs = some (params, body)) : body <:+ cs := by
  unfold arrowParts? at h
  split at h
  · next rest =>
    split at h
    · next after hd =>
      split at h
      · next c body' ht =>
        cases h
        have hafter : after <:+ rest := by
          have := List.dropWhile_suffix (· != ')') (l := rest)
          rw [hd] at this
          exact (List.suffix_cons _ _).trans this
        have htrim := trimLeft_suffix after
        rw [ht] at htrim
        have hbody : c :: body' <:+ '=' :: '>' :: c :: body' :=
          (List.suffix_cons _ _).trans (List.suffix_cons _ _)
        exact hbody.trans (htrim.trans (hafter.trans (List.suffix_cons _ _)))
      · cases h
    · cases h
  · cases h

/-! ## Numbers -/

theorem digitValue?_lt {c : Char} {d : Nat} (h : digitValue? c = some d) : d < 10 := by
  obtain ⟨z, hz, rfl⟩ := Option.map_eq_some_iff.mp h
  have hp := List.find?_some hz
  simp only [Bool.and_eq_true, decide_eq_true_eq] at hp
  omega

/-- A number has at most as many digits as it is read from. -/
theorem natOfDigits_lt (cs : List Char) : natOfDigits cs < Nat.pow 10 cs.length := by
  -- each further digit adds one place to what has been read
  have hfold : ∀ (cs : List Char) (n k : Nat), n < Nat.pow 10 k →
      cs.foldl (fun n c => 10 * n + (digitValue? c).getD 0) n < Nat.pow 10 (k + cs.length) := by
    intro cs
    induction cs with
    | nil => exact fun n k h => h
    | cons c cs ih =>
      intro n k h
      have hd : (digitValue? c).getD 0 < 10 := by
        cases hv : digitValue? c with
        | none => decide
        | some d => exact digitValue?_lt hv
      have hpow : Nat.pow 10 (k + 1) = Nat.pow 10 k * 10 := rfl
      have hlength : k + (c :: cs).length = k + 1 + cs.length := by
        rw [List.length_cons]
        omega
      rw [List.foldl_cons, hlength]
      exact ih _ _ (by omega)
  have h := hfold cs 0 0 (by decide)
  rwa [Nat.zero_add] at h

/-! ## Recognisers -/

theorem gives_atom {cs : List Char} (h : ShortRuns cs) : Gives (atom cs) Printable := by
  unfold atom
  split
  · exact gives_ok (.name _)
  · cases cs with
    | nil => exact gives_ok (.name _)
    | cons c rest =>
      dsimp only
      split
      · exact gives_ok (.text _)
      · split
        · next hall =>
          have hlength := h (c :: rest) List.infix_rfl (List.all_eq_true.mp hall)
          rw [if_neg (Nat.not_lt.mpr hlength)]
          exact gives_ok (.int (fewDigits_of_lt (natOfDigits_lt _) ⟨Nat.succ_pos _, hlength⟩))
        · exact gives_ok (.name _)

theorem gives_expressionOfChars {cs : List Char} (h : ShortRuns cs) :
    Gives (expressionOfChars cs) Printable := by
  fun_induction expressionOfChars cs with
  | case1 => exact gives_ok (.member (.name _) _)
  | case2 => exact gives_ok (.call (.name _) nofun)
  | case3 cs t _ name args hc _ ih =>
    have hpieces : ∀ piece ∈ splitOn ',' args, ShortRuns piece := fun piece hp =>
      h.of_isInfix ((infix_of_mem_splitOn hp).trans ((infix_of_callParts? hc).trans (trim_isInfix cs)))
    refine Gives.bind (gives_mapM fun piece _ => ih piece.1 piece.2 (hpieces _ piece.2)) ?_
    exact fun nodes hnodes => gives_pure (.call (.name _) hnodes)
  | case4 cs t _ _ word op operand hb ih =>
    have hoperand := h.of_isInfix ((suffix_of_binaryParts? hb).isInfix.trans (trim_isInfix cs))
    exact (ih hoperand).bind fun right hr => gives_pure (.binary _ (.name _) hr)
  | case5 cs => exact gives_atom (h.of_isInfix (trim_isInfix cs))

/-- The names of the parameters of an arrow function. -/
def parameterNames (cs : List Char) : List String :=
  ((splitOn ',' cs).map trim).filterMap fun p =>
    if p.isEmpty then none else some (String.ofList p)

theorem parameters_eq_map (cs : List Char) : parameters cs = (parameterNames cs).map .name := by
  rw [parameters, parameterNames, List.map_filterMap]
  congr 1
  funext p
  split <;> rfl

/-- **A text without long runs of digits is a snippet**, and its node is printable. -/
theorem gives_ofChars {cs : List Char} (h : ShortRuns cs) : Gives (ofChars cs) Printable := by
  unfold ofChars
  have htrim := h.of_isInfix (trim_isInfix cs)
  dsimp only
  split
  · next params body hp =>
    rw [parameters_eq_map]
    split
    · exact gives_ok (@Printable.arrowBlock (parameterNames params) [] nofun)
    · have hbody := htrim.of_isInfix ((trim_isInfix body).trans (suffix_of_arrowParts? hp).isInfix)
      exact (gives_expressionOfChars hbody).bind fun node hn => gives_pure (.arrow _ hn)
  · exact gives_expressionOfChars htrim

end Componentry.Snippet
