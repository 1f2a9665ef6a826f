import Componentry.Proofs.Command.Build
import Componentry.Proofs.Toml.Reader

/-!
# Which settings are reported as wrong

The settings of a workspace are read from a file whose content may be anything.  Faults that come from
outside are reported as an error of the settings, which keeps the text and the kind of the fault.

**Main statement.** Every fault on the way to a context is reported so, except for one: what is read as
a map is none (`context_reported_iff`).  Octets that are no text, texts that are no JSON or TOML,
numerals that are too long and paths that lead nowhere all come from outside.
-/

namespace Componentry

/-! ## Faults of single steps -/

section Display

/-- The only thing that has no text is an integer with too many digits. -/
theorem Scalar.failsOnly_debug (s : Scalar) : FailsOnly s.debug (· = .integerTooLong) := by
  cases s with
  | int n =>
    unfold Scalar.debug integerText
    dsimp only
    split
    · exact failsOnly_ok _
    · exact failsOnly_error rfl
  | _ => exact failsOnly_ok _

mutual

theorem Tree.failsOnly_debug : ∀ t : Tree, FailsOnly t.debug (· = .integerTooLong)
  | .scalar s => by
    rw [Tree.debug]
    exact s.failsOnly_debug
  | .list items => by
    rw [Tree.debug]
    exact (Tree.failsOnly_debugs items).bind fun _ _ => failsOnly_pure _
  | .tuple items => by
    rw [Tree.debug]
    refine (Tree.failsOnly_debugs items).bind fun texts _ => ?_
    split
    · exact failsOnly_pure _
    · exact failsOnly_pure _
  | .set items => by
    rw [Tree.debug]
    refine (Tree.failsOnly_debugs items).bind fun texts _ => ?_
    split
    · exact failsOnly_pure _
    · exact failsOnly_pure _
  | .map entries => by
    rw [Tree.debug]
    exact (Tree.failsOnly_debugEntries entries).bind fun _ _ => failsOnly_pure _
  | .again kind => by
    cases kind <;> exact failsOnly_ok _

theorem Tree.failsOnly_debugs : ∀ items : List Tree,
    FailsOnly (Tree.debugs items) (· = .integerTooLong)
  | [] => by
    rw [Tree.debugs]
    exact failsOnly_ok _
  | t :: items => by
    rw [Tree.debugs]
    refine (Tree.failsOnly_debug t).bind fun _ _ => ?_
    exact (Tree.failsOnly_debugs items).bind fun _ _ => failsOnly_pure _

theorem Tree.failsOnly_debugEntries : ∀ entries : List (Tree × Tree),
    FailsOnly (Tree.debugEntries entries) (· = .integerTooLong)
  | [] => by
    rw [Tree.debugEntries]
    exact failsOnly_ok _
  | (k, v) :: entries => by
    rw [Tree.debugEntries]
    refine (Tree.failsOnly_debug k).bind fun _ _ => (Tree.failsOnly_debug v).bind fun _ _ => ?_
    exact (Tree.failsOnly_debugEntries entries).bind fun _ _ => failsOnly_pure _

end

theorem Scalar.failsOnly_display (s : Scalar) : FailsOnly s.display (· = .integerTooLong) := by
  unfold Scalar.display
  split
  · exact failsOnly_ok _
  · exact failsOnly_ok _
  · exact failsOnly_ok _
  · exact failsOnly_ok _
  · exact s.failsOnly_debug

theorem Tree.failsOnly_display (t : Tree) : FailsOnly t.display (· = .integerTooLong) := by
  unfold Tree.display
  split
  · exact Scalar.failsOnly_display _
  · exact Tree.failsOnly_debug _

end Display

namespace Command

section Outside

/-- The fault comes from outside of the program. -/
abbrev Outside (f : Fault) : Prop :=
  isOutside f = true

theorem outside_of_numeral {f : Fault} (h : f.OfNumeral) : Outside f := by
  cases h <;> rfl

variable {t : FileTree} {p here root : Path}

theorem failsOnly_resolve (here p : Path) : FailsOnly (Path.resolve here p) Outside := by
  unfold Path.resolve
  exact failsOnly_ite (failsOnly_error rfl) (failsOnly_ok _)

theorem failsOnly_place (t : FileTree) (p : Path) : FailsOnly (t.place p) Outside := by
  unfold FileTree.place
  refine failsOnly_ite (failsOnly_error rfl) ?_
  have hany : FailsOnly (t.locate [] p) fun _ => True := fun _ _ => trivial
  exact hany.mapError fun _ _ => rfl

theorem failsOnly_read (t : FileTree) (p : Path) : FailsOnly (t.read p) Outside := by
  refine (failsOnly_place t p).bind fun there _ => ?_
  split
  · exact failsOnly_pure _
  · exact failsOnly_throw rfl
  · exact failsOnly_throw rfl

theorem failsOnly_contains (t : FileTree) (p : Path) : FailsOnly (t.contains p) Outside := by
  refine FailsOnly.bind ?_ fun _ _ => failsOnly_pure _
  unfold FileTree.find? FileTree.findFrom
  refine failsOnly_ite (failsOnly_ok _) ?_
  split
  · exact failsOnly_ok _
  · exact failsOnly_ite (failsOnly_ok _) (failsOnly_error rfl)

theorem failsOnly_findM? {α : Type} {test : α → Except Fault Bool} {E : Fault → Prop}
    (h : ∀ a, FailsOnly (test a) E) : ∀ as : List α, FailsOnly (as.findM? test) E
  | [] => failsOnly_pure _
  | a :: as => by
    refine (h a).bind fun found _ => ?_
    cases found with
    | true => exact failsOnly_pure _
    | false => exact failsOnly_findM? h as

end Outside

end Command

/-! ## Settings -/

namespace Settings

open Command (Outside)

theorem failsOnly_locate (t : FileTree) (root : Path) (given : Option Path) :
    FailsOnly (locate t root given) Outside := by
  cases given with
  | none => exact Command.failsOnly_findM? (Command.failsOnly_contains t) _
  | some path => exact Command.failsOnly_findM? (Command.failsOnly_contains t) _

theorem failsOnly_content (t : FileTree) (path : Path) : FailsOnly (content t path) Outside := by
  have hany : ∀ {α : Type} (x : Except Text.Defect α),
      FailsOnly (x.mapError .undecodable) Outside := by
    intro α x
    have hx : FailsOnly x fun _ => True := fun _ _ => trivial
    exact hx.mapError fun _ _ => rfl
  refine (Command.failsOnly_read t path).bind fun octets _ => ?_
  refine failsOnly_ite ?_ ?_
  · refine (hany _).bind fun text _ => (Toml.failsOnly_parse text).imp ?_
    rintro f (⟨complaint, rfl⟩ | h)
    · rfl
    · exact Command.outside_of_numeral h
  · refine (hany _).bind fun text _ => (Json.failsOnly_parse text).imp ?_
    rintro f (⟨complaint, rfl⟩ | h)
    · rfl
    · exact Command.outside_of_numeral h

theorem failsOnly_directory? (root : Path) (value : Option Tree) :
    FailsOnly (directory? root value) Outside := by
  cases value with
  | none => exact failsOnly_pure _
  | some value =>
    have htext : FailsOnly value.display Outside := value.failsOnly_display.imp (by rintro f rfl; rfl)
    refine htext.bind fun text _ => failsOnly_ite (failsOnly_pure _) ?_
    exact (Command.failsOnly_resolve _ _).bind fun _ _ => failsOnly_pure _

theorem entriesOf_eq_ok_iff {value : Tree} {entries : List (Tree × Tree)} :
    entriesOf value = .ok entries ↔ value = .map entries := by
  cases value <;> simp [entriesOf]

/-- What is no map has no entries that could be looked up. -/
theorem entriesOf_of_ne {value : Tree} (h : ∀ entries, value ≠ .map entries) :
    entriesOf value = .error (.noMember value.fullTypeName "get") := by
  unfold entriesOf
  split
  · next entries => exact absurd rfl (h entries)
  · rfl

/-- The section with the defaults; one that counts as nothing is empty. -/
def defaultsIn (entries : List (Tree × Tree)) : Tree :=
  (present? entries "defaults").getD (.map [])

/-- The content of a file is a map, and so is the section with the defaults. -/
def IsSectioned (content : Tree) : Prop :=
  ∃ entries, content = .map entries ∧ ∃ fields, defaultsIn entries = .map fields

variable {env : Environment} {root : Path} {content : Tree}

/-- Any content with sections gives settings, or a fault from outside. -/
theorem failsOnly_ofTree (h : IsSectioned content) : FailsOnly (ofTree env root content) Outside := by
  obtain ⟨entries, rfl, fields, hfields⟩ := h
  have htext : ∀ value : Tree, FailsOnly value.display Outside :=
    fun value => value.failsOnly_display.imp (by rintro f rfl; rfl)
  have hrest : ∀ (annotated : Bool) (documents : String), FailsOnly (do
      let moduleDirectory ← directory? root (present? fields "out_dir")
      let declarationDirectory ← directory? root (present? fields "types_out")
      return { annotated, moduleDirectory, documents, declarationDirectory : Settings }) Outside :=
    fun annotated documents => (failsOnly_directory? _ _).bind fun _ _ =>
      (failsOnly_directory? _ _).bind fun _ _ => failsOnly_pure _
  unfold ofTree
  refine FailsOnly.bind (failsOnly_ok _) fun found hfound => ?_
  obtain rfl := Except.ok.inj hfound
  refine FailsOnly.bind (entriesOf_eq_ok_iff.mpr hfields ▸ failsOnly_ok _) fun found hfound => ?_
  obtain rfl : fields = found :=
    Except.ok.inj ((entriesOf_eq_ok_iff.mpr hfields).symm.trans hfound)
  dsimp only
  split
  · exact (htext _).bind fun documents _ => hrest _ documents
  · exact hrest _ _

/-- Where a map is missing, the fault says which type has no entries. -/
theorem ofTree_of_not_isSectioned (h : ¬ IsSectioned content) :
    ∃ type, ofTree env root content = .error (.noMember type "get") := by
  by_cases hmap : ∃ entries, content = .map entries
  · obtain ⟨entries, rfl⟩ := hmap
    have hfields : ∀ fields, defaultsIn entries ≠ .map fields :=
      fun fields he => h ⟨entries, rfl, fields, he⟩
    refine ⟨(defaultsIn entries).fullTypeName, ?_⟩
    show entriesOf (defaultsIn entries) >>= _ = _
    rw [entriesOf_of_ne hfields]
    rfl
  · refine ⟨content.fullTypeName, ?_⟩
    unfold ofTree
    rw [entriesOf_of_ne fun entries he => hmap ⟨entries, he⟩]
    rfl

end Settings

/-! ## Workspaces -/

namespace Workspace

open Command (Outside)

/-- The file with the settings of a workspace can be read, but a map is missing in it. -/
def IsMisshapen (t : FileTree) (here root : Path) (given : Option Path) : Prop :=
  ∃ root' path content, Path.resolve here root = .ok root' ∧
    Settings.locate t root' given = .ok (some path) ∧ Settings.content t path = .ok content ∧
    ¬ Settings.IsSectioned content

variable {t : FileTree} {env : Environment} {here root : Path} {given : Option Path}

theorem isSectioned_empty : Settings.IsSectioned (.map []) :=
  ⟨[], rfl, [], rfl⟩

/-- A workspace that is not misshapen is loaded, or there is a fault from outside. -/
theorem failsOnly_load (h : ¬ IsMisshapen t here root given) :
    FailsOnly (load t env here root given) Outside := by
  refine (Command.failsOnly_resolve here root).bind fun root' hroot => ?_
  refine (Settings.failsOnly_locate t root' given).bind fun source hsource => ?_
  cases source with
  | none =>
    have hempty : FailsOnly (Settings.ofTree env root' (.map [])) Outside :=
      Settings.failsOnly_ofTree isSectioned_empty
    exact hempty.bind fun _ _ => failsOnly_pure _
  | some path =>
    refine (Settings.failsOnly_content t path).bind fun content hcontent => ?_
    have hsections : Settings.IsSectioned content := by
      by_contra hnot
      exact h ⟨root', path, content, hroot, hsource, hcontent, hnot⟩
    exact (Settings.failsOnly_ofTree hsections).bind fun _ _ => failsOnly_pure _

theorem load_of_isMisshapen (h : IsMisshapen t here root given) :
    ∃ type, load t env here root given = .error (.noMember type "get") := by
  obtain ⟨root', path, content, hroot, hsource, hcontent, hnot⟩ := h
  obtain ⟨type, htype⟩ : ∃ type, Settings.ofTree env root' content = .error (.noMember type "get") :=
    Settings.ofTree_of_not_isSectioned hnot
  refine ⟨type, ?_⟩
  unfold load
  rw [hroot]
  show Settings.locate t root' given >>= _ = _
  rw [hsource]
  show Settings.content t path >>= _ = _
  rw [hcontent]
  show Settings.ofTree env root' content >>= _ = _
  rw [htype]
  rfl

end Workspace

/-! ## Contexts -/

namespace Command

/-- The outcome is the context with the workspace that was loaded, or an error of the settings that
keeps the text and the kind of the fault. -/
inductive Reported (loaded : Except Fault Workspace) : Except Failure Context → Prop
  | context {c : Context} (h : loaded = .ok c.workspace) : Reported loaded (.ok c)
  | error {f : Fault} {e : CommandError} (h : loaded = .error f) (hkind : e.kind = .config)
    (hcontext : e.context = [("original_exception", f.message), ("original_type", f.kind)]) :
    Reported loaded (.error (.command e))

variable {env : Environment} {here : Path} {request : Request} {s : Session}
  {workspace given : Option Path} {loaded : Except Fault Workspace}
  {outcome : Except Failure Context}

/-- What was loaded is reported, or it is a fault that does not come from outside and is passed on. -/
theorem contextMake_cases (hworkspace : resolveGiven here request.workspace = .ok workspace)
    (hgiven : resolveGiven here request.settings = .ok given)
    (hloaded : Workspace.load s.files env here (workspace.getD here) given = loaded)
    (houtcome : ((Context.make env here request).run s).1 = outcome) :
    FailsOnly loaded Outside ∧ Reported loaded outcome ∨
      ∃ f, loaded = .error f ∧ ¬ Outside f ∧ outcome = .error (.fault f) := by
  subst houtcome
  unfold Context.make
  rw [run_bind_ok (run_ofExcept hworkspace s), run_bind_ok (run_ofExcept hgiven s),
    run_bind_ok (run_files s), hloaded]
  cases loaded with
  | ok w =>
    refine .inl ⟨failsOnly_ok w, ?_⟩
    dsimp only
    split
    · exact .context rfl
    · exact .context rfl
  | error f =>
    dsimp only
    by_cases houtside : Outside f
    · rw [if_pos houtside]
      exact .inl ⟨failsOnly_error houtside, .error rfl rfl rfl⟩
    · rw [if_neg houtside]
      exact .inr ⟨f, rfl, houtside, rfl⟩

/-- **Wrong settings are reported as such, unless a map is missing in them.**  Whatever is in the file
with the settings of a workspace, there is a context or an error of the settings with the text and the
kind of the fault, just when the content of the file is a map with a map under `defaults`, or cannot be
read at all.  Otherwise the fault is passed on: a value of another type has no entries. -/
theorem context_reported_iff (hworkspace : resolveGiven here request.workspace = .ok workspace)
    (hgiven : resolveGiven here request.settings = .ok given)
    (hloaded : Workspace.load s.files env here (workspace.getD here) given = loaded)
    (houtcome : ((Context.make env here request).run s).1 = outcome) :
    (Reported loaded outcome ↔
      ¬ Workspace.IsMisshapen s.files here (workspace.getD here) given) ∧
    (Workspace.IsMisshapen s.files here (workspace.getD here) given →
      ∃ type, outcome = .error (.fault (.noMember type "get"))) := by
  have hpassed : Workspace.IsMisshapen s.files here (workspace.getD here) given →
      ∃ type, outcome = .error (.fault (.noMember type "get")) := by
    intro hmiss
    obtain ⟨type, hload⟩ : ∃ type,
        Workspace.load s.files env here (workspace.getD here) given = .error (.noMember type "get") :=
      Workspace.load_of_isMisshapen hmiss
    rw [hload] at hloaded
    subst hloaded
    rcases contextMake_cases hworkspace hgiven hload houtcome with ⟨hfails, -⟩ | ⟨f, hf, -, hout⟩
    · exact absurd (hfails _ rfl) Bool.false_ne_true
    · cases hf
      exact ⟨type, hout⟩
  refine ⟨⟨fun hreported hmiss => ?_, fun hsound => ?_⟩, hpassed⟩
  · obtain ⟨type, rfl⟩ := hpassed hmiss
    cases hreported
  · rcases contextMake_cases hworkspace hgiven hloaded houtcome with ⟨-, h⟩ | ⟨f, hf, hinside, -⟩
    · exact h
    · rw [← hloaded] at hf
      exact absurd (Workspace.failsOnly_load hsound f hf) hinside

/-- A workspace whose settings are a list. -/
def listedFiles : FileTree :=
  ⟨[(["ws"], .directory), (["ws", ".ysxrc"], .file "[]".toUTF8)]⟩

/-- A list is no map: its fault is passed on. -/
theorem context_reported_iff_list :
    ∃ loaded outcome, Workspace.load listedFiles {} workDirectory workDirectory none = loaded ∧
      ((Context.make {} workDirectory {}).run { files := listedFiles }).1 = outcome ∧
      Workspace.IsMisshapen listedFiles workDirectory workDirectory none ∧
      ¬ Reported loaded outcome ∧ ∃ type, outcome = .error (.fault (.noMember type "get")) := by
  have hmiss : Workspace.IsMisshapen listedFiles workDirectory workDirectory none := by
    refine ⟨workDirectory, workDirectory.child ".ysxrc", .list [], rfl, ?_, ?_, ?_⟩
    · exact toOption_eq_some_iff.mp (by decide +kernel)
    · rfl
    · rintro ⟨entries, he, -⟩
      cases he
  have hworkspace : resolveGiven workDirectory ({} : Request).workspace = .ok none := rfl
  have hgiven : resolveGiven workDirectory ({} : Request).settings = .ok none := rfl
  obtain ⟨hiff, hpassed⟩ :=
    context_reported_iff (s := { files := listedFiles }) hworkspace hgiven rfl rfl
  exact ⟨_, _, rfl, rfl, hmiss, fun hreported => hiff.mp hreported hmiss, hpassed hmiss⟩

end Command

end Componentry
