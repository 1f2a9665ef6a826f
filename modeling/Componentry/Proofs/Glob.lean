import Componentry.Glob
import Componentry.Proofs.Outcome

/-!
# What a search finds

A search goes down from a directory, so that what it finds lies behind the path of the directory
(`Path.Behind`), whatever it goes through.

**Main statement.** All that is found are files, behind the directory and not the directory itself
(`exists_names_of_files`).
-/

namespace Componentry

/-- The path goes on from another one. -/
def Path.Behind (base p : Path) : Prop :=
  ∃ names, p = ⟨base.anchor, base.parts ++ names⟩

namespace Path.Behind

variable {p q r : Path}

theorem refl (p : Path) : p.Behind p :=
  ⟨[], by simp⟩

theorem child (p : Path) (name : String) : p.Behind (p.child name) :=
  ⟨[name], rfl⟩

theorem trans (h : p.Behind q) (h' : q.Behind r) : p.Behind r := by
  obtain ⟨names, rfl⟩ := h
  obtain ⟨more, rfl⟩ := h'
  exact ⟨names ++ more, by simp⟩

end Path.Behind

namespace Glob

variable {t : FileTree} {p : Path}

theorem directoriesFrom_behind (t : FileTree) (limit : Nat) (p : Path) :
    Ensures (directoriesFrom t limit p) fun found => ∀ q ∈ found, p.Behind q := by
  induction limit generalizing p with
  | zero =>
    refine ensures_ok fun q hq => ?_
    obtain rfl := List.mem_singleton.mp hq
    exact .refl q
  | succ limit ih =>
    refine (ensures_any _).bind fun listed _ => ?_
    have hbelow : ∀ entry ∈ listed.filter (·.2.isDirectory),
        Ensures (directoriesFrom t limit (p.child entry.1)) fun found => ∀ q ∈ found, p.Behind q := by
      intro entry _
      refine (ih (p.child entry.1)).imp fun found h q hq => ?_
      exact (Path.Behind.child p entry.1).trans (h q hq)
    refine (ensures_mapM hbelow).bind fun found h => ensures_pure fun q hq => ?_
    rcases List.mem_cons.mp hq with rfl | hq
    · exact .refl q
    · obtain ⟨qs, hqs, hq⟩ := List.mem_flatten.mp hq
      exact h.2 qs hqs q hq

/-- What a search finds from a path on. -/
def Found (t : FileTree) (p : Path) (found : List Path) : Prop :=
  ∀ q ∈ found, p.Behind q ∧ t.isFile q = .ok true

theorem Found.of_behind {q : Path} {found : List Path} (h : Found t q found) (hb : p.Behind q) :
    Found t p found :=
  fun r hr => ⟨hb.trans (h r hr).1, (h r hr).2⟩

theorem found_flatten {founds : List (List Path)} (h : ∀ found ∈ founds, Found t p found) :
    Found t p founds.flatten := by
  intro q hq
  obtain ⟨found, hfound, hq⟩ := List.mem_flatten.mp hq
  exact h found hfound q hq

theorem select_found (t : FileTree) (directoriesOnly : Bool) (steps : List GlobStep) (p : Path) :
    Ensures (select t directoriesOnly steps p) (Found t p) := by
  have hnone : Found t p [] := by simp [Found]
  induction steps generalizing p with
  | nil =>
    refine Ensures.bind (fun there h => h) fun there h => ensures_pure ?_
    cases there with
    | false => exact hnone
    | true =>
      intro q hq
      obtain rfl := List.mem_singleton.mp hq
      exact ⟨.refl q, h⟩
  | cons step rest ih =>
    have hnext : ∀ q, p.Behind q → Ensures (select t directoriesOnly rest q) (Found t p) :=
      fun q hb => (ih q (by simp [Found])).imp fun found h => h.of_behind hb
    cases step with
    | name name =>
      have hfits : ∀ fits : Bool, Ensures
          (if fits then select t directoriesOnly rest (p.child name) else pure []) (Found t p) := by
        intro fits
        cases fits with
        | false => exact ensures_pure hnone
        | true => exact hnext _ (.child p name)
      unfold select
      dsimp only
      split
      · exact (ensures_any _).bind fun fits _ => hfits fits
      · exact (ensures_any _).bind fun fits _ => hfits fits
    | pattern pattern =>
      unfold select
      refine (ensures_any _).bind fun listed _ => ?_
      refine (ensures_mapM fun entry _ => hnext _ (.child p entry.1)).bind fun founds h => ?_
      exact ensures_pure (found_flatten h.2)
    | anywhere =>
      unfold select
      refine (directoriesFrom_behind t _ p).bind fun starts hstarts => ?_
      refine (ensures_mapM fun q hq => hnext q (hstarts q hq)).bind fun founds h => ensures_pure ?_
      intro q hq
      exact found_flatten h.2 q (List.mem_eraseDups.mp hq)

theorem not_isDirectory_of_isFile (h : t.isFile p = .ok true) : t.isDirectory p ≠ .ok true := by
  intro hd
  obtain ⟨entry, hfind, _, hfile, rfl⟩ := gives_bind_iff.mp ⟨_, h, rfl⟩
  obtain ⟨_, hfind', _, hdirectory, rfl⟩ := gives_bind_iff.mp ⟨_, hd, rfl⟩
  obtain rfl := Except.ok.inj (hfind.symm.trans hfind')
  rcases entry with _ | _ | _
  · cases hfile
  · cases hdirectory
  · cases hfile

/-- **All that is found are files, behind the directory and not the directory itself.** -/
theorem exists_names_of_files {g : Glob} {base : Path} {found : List Path}
    (h : g.files t base = .ok found) (hp : p ∈ found) :
    t.isFile p = .ok true ∧ ∃ names, names ≠ [] ∧ p = ⟨base.anchor, base.parts ++ names⟩ := by
  obtain ⟨isThere, hbase, found, h, rfl⟩ := gives_bind_iff.mp ⟨_, h, rfl⟩
  cases isThere with
  | false =>
    cases h
    cases hp
  | true =>
    obtain ⟨unsorted, hselect, _, h, rfl⟩ := gives_bind_iff.mp ⟨_, h, rfl⟩
    cases h
    obtain ⟨⟨names, hnames⟩, hfile⟩ :=
      select_found t _ _ base unsorted hselect p (List.mem_mergeSort.mp hp)
    refine ⟨hfile, names, ?_, hnames⟩
    rintro rfl
    obtain rfl : p = base := by simpa using hnames
    exact not_isDirectory_of_isFile hfile hbase

/-- What is found in the order of the paths stays in this order. -/
theorem files_of_sorted {g : Glob} {base : Path} {found : List Path}
    (hbase : t.isDirectory base = .ok true)
    (h : select t g.directoriesOnly g.steps base = .ok found)
    (hsorted : found.Pairwise fun p q => p.isUpTo q) : g.files t base = .ok found := by
  have hsort : found.mergeSort Path.isUpTo = found := List.mergeSort_of_pairwise hsorted
  unfold files
  rw [hbase]
  show Except.bind (select t g.directoriesOnly g.steps base) _ = _
  rw [h]
  exact congrArg Except.ok hsort

end Glob

end Componentry
