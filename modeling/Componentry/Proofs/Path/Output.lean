import Componentry.Proofs.Path

/-!
# Which documents share a module

The name of a document is cut at its suffix, and the suffix of modules is put behind the stem.  A name
without the suffix of documents is its own stem, so a name can be the stem of another one.

**Main statements.** A name has a suffix if there is something in front of the last dot and behind it
(`splitSuffix_eq`).  The module of a document has the stem of the document as its name, up to the
suffix (`output_eq`).  So two documents share a module just when the name of one is the stem of the
other (`output_collides_iff`).  A module is never its document (`parts_output_ne`).
-/

namespace Componentry.Path

variable {p q : Path} {annotated : Bool}

/-! ## Suffixes -/

/-- The part of a name behind the last dot is its suffix, if something is in front of the dot. -/
theorem splitSuffix_eq {stem tail : List Char} (hstem : stem ≠ []) (htail : tail ≠ [])
    (hdot : '.' ∉ tail) : splitSuffix (stem ++ '.' :: tail) = (stem, '.' :: tail) := by
  have hrun : (stem ++ '.' :: tail).reverse.takeWhile (· != '.') = tail.reverse := by
    rw [List.reverse_append, List.reverse_cons, List.append_assoc,
      List.takeWhile_append_of_pos (by
        intro c hc
        simpa using fun he : c = '.' => hdot (he ▸ List.mem_reverse.mp hc))]
    simp
  have hlength : (stem ++ '.' :: tail).length - tail.length - 1 = stem.length := by
    rw [List.length_append, List.length_cons]
    omega
  unfold splitSuffix
  simp only [hrun, List.reverse_reverse, hlength, List.take_left]
  rw [if_neg]
  simp [hstem, htail]

/-- A name that ends in a suffix has it, if something is in front. -/
theorem suffix_of_name {stem suffix : String} {tail : List Char}
    (hname : p.name = stem ++ suffix) (hstem : stem ≠ "") (hsuffix : suffix.toList = '.' :: tail)
    (htail : tail ≠ []) (hdot : '.' ∉ tail) : p.suffix = suffix := by
  have hchars : stem.toList ≠ [] := by simpa using hstem
  rw [Path.suffix, hname, String.toList_append, hsuffix, splitSuffix_eq hchars htail hdot, ← hsuffix,
    String.ofList_toList]

theorem suffix_eq_documentSuffix_iff :
    p.suffix = documentSuffix ↔ ∃ stem, stem ≠ "" ∧ p.name = stem ++ documentSuffix := by
  constructor
  · intro h
    obtain ⟨stem, hname, hsplit⟩ := exists_stem h
    refine ⟨stem, ?_, hname⟩
    rintro rfl
    -- without anything in front of the dot the name would have no suffix
    rw [Path.suffix, hname] at h
    exact absurd h (by decide)
  · rintro ⟨stem, hstem, hname⟩
    have hdocument : documentSuffix.toList = '.' :: "ysx".toList := rfl
    exact suffix_of_name hname hstem hdocument (by decide) (by decide)

theorem suffix_of_moduleSuffix {stem : String} (hname : p.name = stem ++ moduleSuffix annotated)
    (hstem : stem ≠ "") : p.suffix = moduleSuffix annotated := by
  cases annotated with
  | false =>
    have hmodule : (moduleSuffix false).toList = '.' :: "jsx".toList := rfl
    exact suffix_of_name hname hstem hmodule (by decide) (by decide)
  | true =>
    have hmodule : (moduleSuffix true).toList = '.' :: "tsx".toList := rfl
    exact suffix_of_name hname hstem hmodule (by decide) (by decide)

/-! ## Stems -/

/-- What is left of the name of a document in front of the suffix of documents. -/
def stem (p : Path) : String :=
  if p.suffix = documentSuffix then String.ofList (splitSuffix p.name.toList).1 else p.name

theorem stem_of_ne (h : p.suffix ≠ documentSuffix) : p.stem = p.name :=
  if_neg h

theorem name_of_suffix (h : p.suffix = documentSuffix) : p.name = p.stem ++ documentSuffix := by
  obtain ⟨stem, hname, hsplit⟩ := exists_stem h
  rw [Path.stem, if_pos h, hsplit, String.ofList_toList, ← hname]

theorem append_suffix_inj {a b suffix : String} : a ++ suffix = b ++ suffix ↔ a = b := by
  refine ⟨fun h => ?_, fun h => congrArg (· ++ suffix) h⟩
  have hchars := congrArg String.toList h
  rw [String.toList_append, String.toList_append] at hchars
  exact String.toList_inj.mp (List.append_cancel_right hchars)

theorem stem_of_name {stem : String} (hstem : stem ≠ "") (h : p.name = stem ++ documentSuffix) :
    p.suffix = documentSuffix ∧ p.stem = stem := by
  have hsuffix := suffix_eq_documentSuffix_iff.mpr ⟨stem, hstem, h⟩
  exact ⟨hsuffix, append_suffix_inj.mp ((name_of_suffix hsuffix).symm.trans h)⟩

theorem stem_ne (h : p.name ≠ "") : p.stem ≠ "" := by
  by_cases hsuffix : p.suffix = documentSuffix
  · obtain ⟨stem, hne, hname⟩ := suffix_eq_documentSuffix_iff.mp hsuffix
    rwa [(stem_of_name hne hname).2]
  · rwa [stem_of_ne hsuffix]

/-- Two names with the same stem are the same, or one of them is the stem of the other. -/
theorem stem_eq_iff (hp : p.name ≠ "") (hq : q.name ≠ "") : p.stem = q.stem ↔
    p.name = q.name ∨ p.name = q.name ++ documentSuffix ∧ q.suffix ≠ documentSuffix ∨
      q.name = p.name ++ documentSuffix ∧ p.suffix ≠ documentSuffix := by
  constructor
  · intro h
    by_cases hps : p.suffix = documentSuffix <;> by_cases hqs : q.suffix = documentSuffix
    · exact .inl (by rw [name_of_suffix hps, name_of_suffix hqs, h])
    · exact .inr (.inl ⟨by rw [name_of_suffix hps, h, stem_of_ne hqs], hqs⟩)
    · exact .inr (.inr ⟨by rw [name_of_suffix hqs, ← h, stem_of_ne hps], hps⟩)
    · exact .inl (by rw [← stem_of_ne hps, h, stem_of_ne hqs])
  · rintro (hname | ⟨hname, hqs⟩ | ⟨hname, hps⟩)
    · unfold Path.stem Path.suffix
      rw [hname]
    · rw [(stem_of_name hq hname).2, stem_of_ne hqs]
    · rw [(stem_of_name hp hname).2, stem_of_ne hps]

/-! ## Modules -/

theorem withName_inj {name name' : String} :
    p.withName name = q.withName name' ↔ p.parent = q.parent ∧ name = name' := by
  simp only [withName, parent, Path.mk.injEq]
  constructor
  · rintro ⟨hanchor, hparts⟩
    obtain ⟨hfront, hlast⟩ := List.append_inj' hparts rfl
    exact ⟨⟨hanchor, hfront⟩, List.singleton_inj.mp hlast⟩
  · rintro ⟨⟨hanchor, hfront⟩, rfl⟩
    exact ⟨hanchor, by rw [hfront]⟩

theorem name_withName (p : Path) (name : String) : (p.withName name).name = name := by
  simp [Path.name, withName]

/-- A path is what it lies in and its name. -/
theorem withName_name (h : p.name ≠ "") : p.withName p.name = p := by
  have hparts : p.parts.dropLast ++ [p.name] = p.parts := by
    unfold Path.name at h ⊢
    cases hlast : p.parts.getLast? with
    | none => simp [hlast] at h
    | some last => exact List.dropLast_append_getLast? last hlast
  rw [withName, hparts]

/-- The module of a document lies beside it and is named after its stem. -/
theorem output_eq (h : p.name ≠ "") (annotated : Bool) :
    p.output annotated = .ok (p.withName (p.stem ++ moduleSuffix annotated)) := by
  unfold output Path.stem
  rw [if_neg (by simpa using h)]
  by_cases hsuffix : p.suffix = documentSuffix
  · rw [if_pos (beq_iff_eq.mpr hsuffix), if_pos hsuffix]
  · rw [if_neg (by simpa using hsuffix), if_neg hsuffix]

/-- A module does not have the name of a document. -/
theorem suffix_module_ne (h : p.name ≠ "") (annotated : Bool) :
    (p.withName (p.stem ++ moduleSuffix annotated)).suffix ≠ documentSuffix := by
  rw [suffix_of_moduleSuffix (name_withName _ _) (stem_ne h)]
  cases annotated <;> decide

/-- A module has another name than its document. -/
theorem stem_append_ne (h : p.name ≠ "") (annotated : Bool) :
    p.stem ++ moduleSuffix annotated ≠ p.name := by
  intro hname
  -- a name with the suffix of documents is no name of a module, and any other has become longer
  by_cases hps : p.suffix = documentSuffix
  · have hsuffix := suffix_module_ne h annotated
    rw [hname, withName_name h] at hsuffix
    exact hsuffix hps
  · rw [stem_of_ne hps] at hname
    have hlength := congrArg String.length hname
    rw [String.length_append] at hlength
    have hpos : 0 < (moduleSuffix annotated).length := by cases annotated <;> decide
    omega

/-- **Two documents share a module just when the name of one is the stem of the other.**  They lie in
the same directory, one has the name of the other with the suffix of documents behind it, and the other
does not have that suffix.  So documents with the suffix have modules of their own; and no module is a
document, or has the name of one. -/
theorem output_collides_iff (hp : p.name ≠ "") (hq : q.name ≠ "") (annotated : Bool) :
    ∃ a b, p.output annotated = .ok a ∧ q.output annotated = .ok b ∧
      (p ≠ q → (a = b ↔ p.parent = q.parent ∧
        (p.name = q.name ++ documentSuffix ∧ q.suffix ≠ documentSuffix ∨
          q.name = p.name ++ documentSuffix ∧ p.suffix ≠ documentSuffix))) ∧
      (p.suffix = documentSuffix → q.suffix = documentSuffix → a = b → p = q) ∧
      a ≠ p ∧ a.suffix ≠ documentSuffix := by
  have heq_iff : p = q ↔ p.parent = q.parent ∧ p.name = q.name := by
    rw [← withName_inj, withName_name hp, withName_name hq]
  have hshared : p.withName (p.stem ++ moduleSuffix annotated) =
      q.withName (q.stem ++ moduleSuffix annotated) ↔ p.parent = q.parent ∧ p.stem = q.stem := by
    rw [withName_inj, append_suffix_inj]
  refine ⟨_, _, output_eq hp annotated, output_eq hq annotated, ?_, ?_, ?_, suffix_module_ne hp _⟩
  · intro hne
    rw [hshared, stem_eq_iff hp hq]
    refine and_congr_right fun hparent => or_iff_right fun hname => hne ?_
    exact heq_iff.mpr ⟨hparent, hname⟩
  · intro hps hqs he
    obtain ⟨hparent, hstem⟩ := hshared.mp he
    refine heq_iff.mpr ⟨hparent, ?_⟩
    rw [name_of_suffix hps, name_of_suffix hqs, hstem]
  · intro he
    refine stem_append_ne hp annotated ?_
    rw [← name_withName p (p.stem ++ moduleSuffix annotated), he]

/-- `.ysx` is its own stem, and `.ysx.ysx` has it as its stem. -/
theorem output_collides_dotted :
    ∃ a b, (Path.mk .here [".ysx.ysx"]).output false = .ok a ∧
      (Path.mk .here [".ysx"]).output false = .ok b ∧ a = b ∧ a ≠ ⟨.here, [".ysx.ysx"]⟩ := by
  obtain ⟨a, b, ha, hb, hiff, -, hne, -⟩ :=
    output_collides_iff (p := ⟨.here, [".ysx.ysx"]⟩) (q := ⟨.here, [".ysx"]⟩)
      (by decide) (by decide) false
  exact ⟨a, b, ha, hb, (hiff (by decide)).mpr (by decide), hne⟩

/-! ## Dots -/

theorem not_mem_withoutDots (names : List String) : ".." ∉ withoutDots names := by
  induction names using List.reverseRecOn with
  | nil => exact List.not_mem_nil
  | append_singleton names name ih =>
    rw [withoutDots_concat]
    split
    · exact fun hmem => ih (List.dropLast_subset _ hmem)
    · next hname =>
      intro hmem
      rcases List.mem_append.mp hmem with hmem | hmem
      · exact ih hmem
      · exact hname (beq_iff_eq.mpr (List.mem_singleton.mp hmem).symm)

theorem not_mem_resolve {here : Path} (h : resolve here p = .ok q) : ".." ∉ q.parts := by
  unfold resolve at h
  split at h
  · cases h
  · cases h
    exact not_mem_withoutDots _

theorem exists_name_of_output (h : p.output annotated = .ok q) :
    p.name ≠ "" ∧ q = p.withName (p.stem ++ moduleSuffix annotated) := by
  have hname : p.name ≠ "" := by
    intro hname
    rw [output, hname] at h
    cases h
  rw [output_eq hname] at h
  exact ⟨hname, (Except.ok.inj h).symm⟩

theorem not_mem_output (hdots : ".." ∉ p.parts) (h : p.output annotated = .ok q) :
    ".." ∉ q.parts := by
  obtain ⟨-, rfl⟩ := exists_name_of_output h
  intro hmem
  rcases List.mem_append.mp hmem with hmem | hmem
  · exact hdots (List.dropLast_subset _ hmem)
  · have hlength := congrArg String.length (List.mem_singleton.mp hmem)
    have hlong : 2 < (moduleSuffix annotated).length := by cases annotated <;> decide
    rw [String.length_append] at hlength
    have htwo : "..".length = 2 := rfl
    omega

theorem parts_output_ne (h : p.output annotated = .ok q) : q.parts ≠ p.parts := by
  obtain ⟨hname, rfl⟩ := exists_name_of_output h
  intro he
  refine stem_append_ne hname annotated ?_
  rw [← name_withName p (p.stem ++ moduleSuffix annotated), Path.name, he, ← Path.name]

end Componentry.Path
