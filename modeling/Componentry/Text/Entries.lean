/-!
# Entries under names

A list of values under names.  A name has one value; giving it another keeps its place.

**Main statements.** Entries under different names are kept as they are (`ofList_eq`), and of the
entries under one name the last one counts (`mem_ofList_iff`).
-/

namespace Componentry

/-! ## The last under a key -/

section LastBy

variable {α κ : Type}

/-- The item is in the list, and none behind it has the same key. -/
inductive LastBy (key : α → κ) : List α → α → Prop
  | head {a : α} {as : List α} (h : ∀ b ∈ as, key b ≠ key a) : LastBy key (a :: as) a
  | tail {a b : α} {as : List α} (h : LastBy key as b) : LastBy key (a :: as) b

variable {key : α → κ}

theorem lastBy_cons_iff {a b : α} {as : List α} :
    LastBy key (a :: as) b ↔ (b = a ∧ ∀ b' ∈ as, key b' ≠ key b) ∨ LastBy key as b := by
  constructor
  · intro h
    cases h with
    | head h => exact .inl ⟨rfl, h⟩
    | tail h => exact .inr h
  · rintro (⟨rfl, h⟩ | h)
    · exact .head h
    · exact .tail h

theorem not_lastBy_nil (a : α) : ¬ LastBy key [] a := by
  rintro ⟨⟩

end LastBy

/-! ## Entries -/

namespace Entries

variable {α : Type}

/-- The value under a name. -/
def lookup : List (String × α) → String → Option α
  | [], _ => none
  | (key, value) :: rest, name => if key = name then some value else lookup rest name

/-- The entries with another value under a name.  A new name comes last. -/
def assign : List (String × α) → String → α → List (String × α)
  | [], name, value => [(name, value)]
  | (key, old) :: rest, name, value =>
    if key = name then (key, value) :: rest else (key, old) :: assign rest name value

/-- The entries of a list in which names may come more than once; the last value counts. -/
def ofList (entries : List (String × α)) : List (String × α) :=
  entries.foldl (fun done (name, value) => assign done name value) []

variable {entries done : List (String × α)} {name : String} {value : α} {e : String × α}

/-! ### New names -/

theorem assign_of_not_mem (h : name ∉ entries.map Prod.fst) :
    assign entries name value = entries ++ [(name, value)] := by
  induction entries with
  | nil => rfl
  | cons e entries ih =>
    rw [List.map_cons, List.mem_cons, not_or] at h
    rw [assign, if_neg (Ne.symm h.1), ih h.2]
    rfl

/-- Entries are put behind those that are there as long as their names are new. -/
theorem foldl_assign_of_nodup (entries done : List (String × α))
    (h : ((done ++ entries).map Prod.fst).Nodup) :
    entries.foldl (fun done e => assign done e.1 e.2) done = done ++ entries := by
  induction entries generalizing done with
  | nil => exact (List.append_nil done).symm
  | cons e entries ih =>
    have hnew : e.1 ∉ done.map Prod.fst := by
      rw [List.map_append, List.map_cons] at h
      exact fun hmem => (List.nodup_append.mp h).2.2 _ hmem _ List.mem_cons_self rfl
    rw [List.append_cons] at h ⊢
    rw [List.foldl_cons, assign_of_not_mem hnew, ih _ h]

/-- **Entries under different names are kept as they are.** -/
theorem ofList_eq (h : (entries.map Prod.fst).Nodup) : ofList entries = entries :=
  foldl_assign_of_nodup entries [] h

/-! ### Names that come again -/

theorem keys_assign (entries : List (String × α)) (name : String) (value : α) :
    (assign entries name value).map Prod.fst =
      if name ∈ entries.map Prod.fst then entries.map Prod.fst
      else entries.map Prod.fst ++ [name] := by
  induction entries with
  | nil => rfl
  | cons e entries ih =>
    rw [assign]
    split
    · next h => simp [h]
    · next h =>
      rw [List.map_cons, ih, List.map_cons]
      simp only [List.mem_cons, Ne.symm h, false_or]
      split <;> rfl

theorem nodup_assign (h : (entries.map Prod.fst).Nodup) :
    ((assign entries name value).map Prod.fst).Nodup := by
  rw [keys_assign]
  split
  · exact h
  · next hnew =>
    refine List.nodup_append.mpr ⟨h, List.pairwise_singleton _ _, ?_⟩
    rintro key hkey _ hname rfl
    exact hnew (List.mem_singleton.mp hname ▸ hkey)

theorem mem_assign_iff (h : (entries.map Prod.fst).Nodup) :
    e ∈ assign entries name value ↔ e = (name, value) ∨ e ∈ entries ∧ e.1 ≠ name := by
  induction entries with
  | nil => simp [assign]
  | cons e' entries ih =>
    obtain ⟨hnew, hrest⟩ := List.nodup_cons.mp h
    rw [assign]
    split
    · next hname =>
      subst hname
      have hne : e ∈ entries → e.1 ≠ e'.1 := fun he heq => hnew (heq ▸ List.mem_map_of_mem he)
      grind
    · next hname =>
      rw [List.mem_cons, ih hrest]
      grind

theorem mem_foldl_assign_iff (h : (done.map Prod.fst).Nodup) :
    e ∈ entries.foldl (fun done e => assign done e.1 e.2) done ↔
      LastBy Prod.fst entries e ∨ e ∈ done ∧ ∀ e' ∈ entries, e'.1 ≠ e.1 := by
  induction entries generalizing done with
  | nil => simp [not_lastBy_nil]
  | cons a entries ih =>
    -- what is done stays unless its name comes again, and so does the entry that comes now
    rw [List.foldl_cons, ih (nodup_assign h), mem_assign_iff h, lastBy_cons_iff,
      List.forall_mem_cons]
    grind

/-- **Of the entries under a name the last one counts.** -/
theorem mem_ofList_iff : e ∈ ofList entries ↔ LastBy Prod.fst entries e := by
  have hnil : (([] : List (String × α)).map Prod.fst).Nodup := List.nodup_nil
  refine (mem_foldl_assign_iff hnil).trans ?_
  simp

end Entries

end Componentry
