import Componentry.Document.Value
import Componentry.Proofs.Script.PropertyName

/-!
# Literals of plain data

A reader for the syntax of JSON, with names in place of quoted keys where a key is a name.  Values
contain values, so the reader has a limit on the depth of its calls.  Each call reads at least one
token, and so the number of tokens is enough.

**Main statements.** The tokens of scalars, lists and maps are read back as what they were made from
(`isLiteral_list`, `isLiteral_map`).
-/

namespace Componentry.Script

mutual

/-- The data that tokens start with, and what follows it. -/
def data? : (limit : Nat) → List Token → Option (Tree × List Token)
  | 0, _ => none
  | limit + 1, ts =>
    match ts with
    | .word w :: rest =>
      if w = "null" then some (.scalar .null, rest)
      else if w = "true" then some (.scalar (.bool true), rest)
      else if w = "false" then some (.scalar (.bool false), rest)
      else none
    | .text s :: rest => some (.scalar (.text s), rest)
    | .number n :: rest => some (.scalar (.int n), rest)
    | .mark "-" :: .number n :: rest => some (.scalar (.int (-n)), rest)
    | .mark "[" :: .mark "]" :: rest => some (.list [], rest)
    | .mark "[" :: rest => (items? limit rest).map fun (items, rest) => (.list items, rest)
    | .mark "\x7b" :: .mark "\x7d" :: rest => some (.map [], rest)
    | .mark "\x7b" :: rest => (entries? limit rest).map fun (entries, rest) => (.map entries, rest)
    | _ => none

/-- The items of a list up to its closing bracket, the first of which starts here. -/
def items? : (limit : Nat) → List Token → Option (List Tree × List Token)
  | 0, _ => none
  | limit + 1, ts => do
    let (item, rest) ← data? limit ts
    match rest with
    | .mark "]" :: rest => some ([item], rest)
    | .mark "," :: rest =>
      let (items, rest) ← items? limit rest
      some (item :: items, rest)
    | _ => none

/-- The entries of a map up to its closing brace, the first of which starts here. -/
def entries? : (limit : Nat) → List Token → Option (List (Tree × Tree) × List Token)
  | 0, _ => none
  | limit + 1, ts => do
    let (key, rest) ←
      match ts with
      | .word key :: .mark ":" :: rest | .text key :: .mark ":" :: rest => some (key, rest)
      | _ => none
    let (value, rest) ← data? limit rest
    match rest with
    | .mark "\x7d" :: rest => some ([(.scalar (.text key), value)], rest)
    | .mark "," :: rest =>
      let (entries, rest) ← entries? limit rest
      some ((.scalar (.text key), value) :: entries, rest)
    | _ => none

end

/-- The data that a whole text denotes. -/
def dataLiteral? (cs : List Char) : Option Tree := do
  let ts ← tokens cs
  match data? ts.length ts with
  | some (t, []) => some t
  | _ => none

/-! ## Literals -/

/-- The node is legible, and its tokens are read as the data `t`, whatever follows them. -/
structure IsLiteral (node : Node) (t : Tree) : Prop where
  legible : Legible node
  reads : ∀ (limit : Nat) (rest : List Token), (expressionTokens node).length ≤ limit →
    data? limit (expressionTokens node ++ rest) = some (t, rest)

theorem isLiteral_null : IsLiteral .null (.scalar .null) where
  legible := .null
  reads
    | 0, _, h => absurd h (by decide)
    | _ + 1, _, _ => rfl

theorem isLiteral_bool (b : Bool) : IsLiteral (.bool b) (.scalar (.bool b)) where
  legible := .bool b
  reads
    | 0, _, h => absurd h (by cases b <;> decide)
    | _ + 1, _, _ => by cases b <;> rfl

theorem isLiteral_text (s : String) : IsLiteral (.text s) (.scalar (.text s)) where
  legible := .text s
  reads
    | 0, _, h => absurd h (Nat.not_succ_le_zero 0)
    | _ + 1, _, _ => rfl

theorem isLiteral_int {n : Int} (h : fewDigits n) :
    IsLiteral (.number (.int n)) (.scalar (.int n)) where
  legible := .number h
  reads := by
    intro limit rest hlimit
    rw [expressionTokens] at hlimit ⊢
    by_cases hn : n < 0
    · rw [if_pos hn] at hlimit ⊢
      cases limit with
      | zero => cases hlimit
      | succ limit =>
        have he : -(n.natAbs : Int) = n := by omega
        rw [List.cons_append, List.cons_append, List.nil_append, data?, he]
    · rw [if_neg hn] at hlimit ⊢
      cases limit with
      | zero => cases hlimit
      | succ limit =>
        have he : (n.natAbs : Int) = n := by omega
        rw [List.cons_append, List.nil_append, data?, he]

/-! ### Lists -/

/-- A closing bracket starts no item. -/
theorem items?_close (limit : Nat) (rest : List Token) :
    items? limit (.mark "]" :: rest) = none := by
  match limit with
  | 0 => rfl
  | 1 => rfl
  | _ + 2 => rfl

theorem legible_of_forall₂ : ∀ {nodes : List Node} {ts : List Tree},
    List.Forall₂ IsLiteral nodes ts → ∀ node ∈ nodes, Legible node
  | _, _, .nil => by simp
  | _, _, .cons h hs => List.forall_mem_cons.mpr ⟨h.legible, legible_of_forall₂ hs⟩

/-- The items of a list are read one after another. -/
theorem items?_listTokens {nodes : List Node} {ts : List Tree} (hne : nodes ≠ [])
    (h : List.Forall₂ IsLiteral nodes ts) (limit : Nat) (rest : List Token)
    (hlimit : (listTokens nodes).length < limit) :
    items? limit (listTokens nodes ++ .mark "]" :: rest) = some (ts, rest) := by
  induction h generalizing limit with
  | nil => exact absurd rfl hne
  | cons h hs ih =>
    cases limit with
    | zero => cases hlimit
    | succ limit =>
      cases hs with
      | nil =>
        rw [listTokens] at hlimit ⊢
        rw [items?, h.reads limit _ (by omega)]
        rfl
      | cons h' hs =>
        rw [listTokens, List.length_append, List.length_cons] at hlimit
        · rw [listTokens, List.append_assoc, List.cons_append, items?, h.reads limit _ (by omega)]
          · simp [ih (List.cons_ne_nil _ _) limit (by omega)]
          · simp
        · simp

theorem isLiteral_list {nodes : List Node} {ts : List Tree} (h : List.Forall₂ IsLiteral nodes ts) :
    IsLiteral (.array nodes) (.list ts) where
  legible := .array (legible_of_forall₂ h)
  reads := by
    intro limit rest hlimit
    rw [expressionTokens] at hlimit ⊢
    simp only [List.length_cons, List.length_append, List.length_nil] at hlimit
    cases limit with
    | zero => cases hlimit
    | succ limit =>
      cases h with
      | nil => rfl
      | cons h hs =>
        have hitems := items?_listTokens (List.cons_ne_nil _ _) (.cons h hs) limit rest (by omega)
        rw [List.cons_append, List.append_assoc, List.cons_append, List.nil_append, data?, hitems]
        · rfl
        -- a list that is not empty does not start with its closing bracket
        · intro rest' he
          rw [he, items?_close] at hitems
          cases hitems

/-! ### Maps -/

/-- A property whose key is `e.1` and whose value is a literal of `e.2`. -/
def IsEntry (p : Node × Node) (e : String × Tree) : Prop :=
  p.1 = keyNode e.1 ∧ ¬ IsBrokenWord e.1 ∧ IsLiteral p.2 e.2

/-- An entry of a map under a text. -/
def textEntry (e : String × Tree) : Tree × Tree :=
  (.scalar (.text e.1), e.2)

/-- A closing brace starts no entry. -/
theorem entries?_close (limit : Nat) (rest : List Token) :
    entries? limit (.mark "\x7d" :: rest) = none := by
  cases limit with
  | zero => rfl
  | succ limit => rfl

/-- The tokens of a property are read as an entry. -/
theorem entries?_property {p : Node × Node} {e : String × Tree} (h : IsEntry p e) {limit : Nat}
    (hlimit : (expressionTokens (.property p.1 p.2)).length ≤ limit) (rest : List Token) :
    entries? (limit + 1) (expressionTokens (.property p.1 p.2) ++ rest) =
      match rest with
      | .mark "\x7d" :: rest => some ([textEntry e], rest)
      | .mark "," :: rest => do
        let (entries, rest) ← entries? limit rest
        some (textEntry e :: entries, rest)
      | _ => none := by
  obtain ⟨hkey, -, hvalue⟩ := h
  -- a key is read the same way with and without quotation marks
  have hread : entries? (limit + 1) (expressionTokens (.property p.1 p.2) ++ rest) =
      entries? (limit + 1) (.text e.1 :: .mark ":" :: (expressionTokens p.2 ++ rest)) := by
    rw [expressionTokens, hkey, List.append_assoc, List.cons_append]
    unfold keyNode
    split
    · rfl
    · rfl
  rw [expressionTokens, List.length_append, List.length_cons] at hlimit
  rw [hread, entries?]
  simp only [Option.bind_eq_bind, Option.bind_some]
  rw [hvalue.reads limit rest (by omega)]
  rfl

/-- The entries of a map are read one after another. -/
theorem entries?_listTokens {ps : List (Node × Node)} {es : List (String × Tree)} (hne : ps ≠ [])
    (h : List.Forall₂ IsEntry ps es) (limit : Nat) (rest : List Token)
    (hlimit : (listTokens (properties ps)).length < limit) :
    entries? limit (listTokens (properties ps) ++ .mark "\x7d" :: rest) =
      some (es.map textEntry, rest) := by
  induction h generalizing limit with
  | nil => exact absurd rfl hne
  | cons h hs ih =>
    cases limit with
    | zero => cases hlimit
    | succ limit =>
      cases hs with
      | nil =>
        simp only [properties, List.map_cons, List.map_nil] at hlimit ⊢
        rw [listTokens] at hlimit ⊢
        rw [entries?_property h (by omega)]
        rfl
      | cons h' hs =>
        have ih := ih (List.cons_ne_nil _ _) limit
        simp only [properties, List.map_cons] at hlimit ih ⊢
        rw [listTokens, List.length_append, List.length_cons] at hlimit
        · rw [listTokens, List.append_assoc, entries?_property h (by omega), List.cons_append]
          · simp only [ih (by omega)]
            rfl
          · simp
        · simp

theorem isLiteral_map {ps : List (Node × Node)} {es : List (String × Tree)}
    (h : List.Forall₂ IsEntry ps es) :
    IsLiteral (.object (properties ps)) (.map (es.map textEntry)) where
  legible := by
    refine .object ?_ ?_
    · induction h with
      | nil => simp
      | cons h _ ih => exact List.forall_mem_cons.mpr ⟨h.1 ▸ keyNode_isKey h.2.1, ih⟩
    · induction h with
      | nil => simp
      | cons h _ ih => exact List.forall_mem_cons.mpr ⟨h.2.2.legible, ih⟩
  reads := by
    intro limit rest hlimit
    rw [expressionTokens] at hlimit ⊢
    simp only [List.length_cons, List.length_append, List.length_nil] at hlimit
    cases limit with
    | zero => cases hlimit
    | succ limit =>
      cases h with
      | nil => rfl
      | cons h hs =>
        have hentries := entries?_listTokens (List.cons_ne_nil _ _) (.cons h hs) limit rest
          (by omega)
        rw [List.cons_append, List.append_assoc, List.cons_append, List.nil_append, data?, hentries]
        · rfl
        · intro rest' he
          rw [he, entries?_close] at hentries
          cases hentries

end Componentry.Script
