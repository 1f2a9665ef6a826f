import Componentry.Proofs.Command.Build
import Componentry.Proofs.FileTree.Fitting
import Componentry.Proofs.Path.Output

/-!
# Compiling one document

Compiling a document has two parts.  First the document is read and compiled, and the path of the module
is found; no file changes until then (`Job.keeps_prepare`).  Then the module is written, and a line says
so.

**Main statement.** Either the module is written, or no file changes (`transpile_outcome`).

The writing makes directories before it comes to the file.  Something that is in the way of the file
keeps the directories from being made as well (`FileChange.writeText_of_blocks`).  But if a name is too
long, the directories before it are made and stay; and if the line at the end is refused, the run fails
with the module in its place (`failed_transpile_leaves_traces`).
-/

namespace Componentry.Command

open FileChange (writeText)

/-! ## Jobs -/

/-- A document that is to be compiled. -/
structure Job where
  context : Context
  input : String
  output : Option String
  annotated : Bool
  printsTree : Bool

namespace Job

/-- Whether the module gets type annotations. -/
def annotates (job : Job) : Bool :=
  job.context.workspace.annotates (asked job.annotated)

/-- Where the document is. -/
def source (job : Job) : Except Fault Path :=
  Path.resolve job.context.here (.ofText job.input)

/-- Where the module of the document belongs. -/
def target (job : Job) (source : Path) : Except Fault Path :=
  match job.output with
  | some text => Path.resolve job.context.here (.ofText text)
  | none => source.output job.annotates

/-- The document at `source` comes to the module `code`, which belongs to `target`. -/
structure Yields (job : Job) (files : FileTree) (source target : Path) (code : String) : Prop where
  found : job.source = .ok source
  compiled : freshModule? files job.annotates source = some code
  addressed : job.target source = .ok target

/-- The action of the job. -/
def perform (job : Job) : Action Unit :=
  Command.transpile job.context job.input job.output job.annotated job.printsTree

/-- The first part: the module, and the path that it is written to. -/
def prepare (job : Job) : Action (Path × String) := do
  let source ← Action.ofExcept job.source
  requirePath source
  let code ← moduleOf source job.annotates
  return (← Action.ofExcept (job.target source), code)

/-- The line that is printed at the end. -/
def line (job : Job) (target : Path) : String :=
  successLine s!"Transpiled {job.input} → {target.name}"

/-- The second part: the module is written. -/
def deliver (job : Job) (target : Path) (code : String) : Action Unit := do
  Action.change (writeText target code)
  Action.note (.wroteModule code.length target.text)
  Action.print (job.line target)

variable {job : Job} {files t : FileTree} {p source target : Path} {code : String} {s s' : Session}
  {refusal : String → Option Fault} {result : Except Failure Unit}

theorem perform_eq (h : job.printsTree = false) :
    job.perform = job.prepare >>= fun made => job.deliver made.1 made.2 := by
  unfold perform transpile prepare deliver line moduleOf target
  rw [h]
  cases job.output with
  | none => simp [bind_assoc, outputPath, source, annotates]
  | some text => simp [bind_assoc, outputPath, source, annotates]

/-! ## The first part -/

theorem eq_of_run_ofExcept {α : Type} {x : Except Fault α} {a : α}
    (h : (Action.ofExcept x).run s = (.ok a, s')) : x = .ok a ∧ s' = s := by
  cases x with
  | error f => cases h
  | ok b =>
    cases h
    exact ⟨rfl, rfl⟩

theorem keeps_load (p : Path) : Keeps (Action.load p) := by
  intro s
  obtain ⟨s', hrun, hagrees⟩ := run_load (s := s) (p := p) rfl
  rw [hrun]
  exact hagrees

theorem keeps_ofTraced {α : Type} (x : Traced α) : Keeps (Action.ofTraced x) := by
  intro s
  obtain ⟨s', hrun, hagrees⟩ := run_ofTraced x s
  rw [hrun]
  exact hagrees

theorem keeps_print (text : String) : Keeps (Action.print text) := by
  intro s
  obtain ⟨s', hrun, hagrees⟩ := run_print text s
  rw [hrun]
  exact hagrees

theorem keeps_moduleOf (p : Path) (annotated : Bool) : Keeps (moduleOf p annotated) :=
  (keeps_load p).bind fun _ => keeps_ofTraced _

theorem keeps_prepare (job : Job) : Keeps job.prepare := by
  refine (keeps_ofExcept _).bind fun source => (keeps_requirePath source).bind fun _ => ?_
  exact (keeps_moduleOf _ _).bind fun _ => (keeps_ofExcept _).bind fun _ => keeps_pure _

theorem run_moduleOf_iff {annotated : Bool} :
    (∃ s', (moduleOf p annotated).run s = (.ok code, s')) ↔
      freshModule? s.files annotated p = some code := by
  rw [freshModule?_eq_some_iff]
  constructor
  · rintro ⟨s', h⟩
    obtain ⟨d, s₁, hload, htraced⟩ := run_bind_eq_ok h
    obtain ⟨s₂, hload', -⟩ := run_load (s := s) (p := p) rfl
    obtain ⟨s₃, htraced', -⟩ := run_ofTraced (Component.compile d.graph d.root annotated) s₁
    refine ⟨d, congrArg Prod.fst (hload'.symm.trans hload), ?_⟩
    have hresult := congrArg Prod.fst (htraced'.symm.trans htraced)
    cases hr : (Component.compile d.graph d.root annotated).result with
    | error f =>
      rw [hr] at hresult
      cases hresult
    | ok code' =>
      rw [hr] at hresult
      cases hresult
      rfl
  · rintro ⟨d, hload, hresult⟩
    obtain ⟨s₁, hrun, -⟩ := run_load hload
    obtain ⟨s₂, hrun', -⟩ := run_ofTraced (Component.compile d.graph d.root annotated) s₁
    refine ⟨s₂, (run_bind_ok hrun).trans ?_⟩
    rw [hrun', hresult]
    rfl

/-- A path that can be read leads somewhere. -/
theorem run_requirePath {octets : ByteArray} (h : s.files.read p = .ok octets) :
    (requirePath p).run s = (.ok (), s) := by
  obtain ⟨hplace, hfile⟩ := FileTree.read_eq_ok_iff.mp h
  obtain ⟨hnull, hlocate⟩ := FileTree.locate_of_place hplace
  have hcontains : s.files.contains p = .ok true := by
    unfold FileTree.contains FileTree.find? FileTree.findFrom
    rw [hnull, hlocate]
    simp only [hfile]
    rfl
  unfold requirePath
  rw [run_bind_ok (run_files s), run_bind_ok (run_ofExcept hcontains s)]
  rfl

/-- The first part comes to what the job yields. -/
theorem run_prepare_iff : (∃ s', job.prepare.run s = (.ok (target, code), s')) ↔
    ∃ source, job.Yields s.files source target code := by
  constructor
  · rintro ⟨s', h⟩
    obtain ⟨source, s₁, hsource, hrest⟩ := run_bind_eq_ok h
    obtain ⟨⟨⟩, s₂, hrequire, hrest⟩ := run_bind_eq_ok hrest
    obtain ⟨code', s₃, hcode, hrest⟩ := run_bind_eq_ok hrest
    obtain ⟨target', s₄, htarget, hpure⟩ := run_bind_eq_ok hrest
    cases hpure
    obtain ⟨hfound, rfl⟩ := eq_of_run_ofExcept hsource
    have hfiles : s₂.files = s₁.files := by
      have hkept := (keeps_requirePath source s₁).files
      rwa [hrequire] at hkept
    refine ⟨source, hfound, ?_, (eq_of_run_ofExcept htarget).1⟩
    rw [← hfiles]
    exact run_moduleOf_iff.mp ⟨s₃, hcode⟩
  · rintro ⟨source, hsource, hcode, htarget⟩
    obtain ⟨octets, hread, -⟩ := succeeds_read (.inl (Option.isSome_iff_exists.mpr ⟨code, hcode⟩))
    obtain ⟨s', hmodule⟩ := run_moduleOf_iff.mpr hcode
    refine ⟨s', ?_⟩
    unfold prepare
    rw [run_bind_ok (run_ofExcept hsource s), run_bind_ok (run_requirePath hread), run_bind_ok hmodule,
      run_bind_ok (run_ofExcept htarget s')]
    rfl

/-! ## The second part -/

theorem run_change_error {c : FileChange Unit} {f : Fault} (h : c.run s.files = (.error f, t)) :
    (Action.change c).run s = (.error (.fault f), { s with files := t }) := by
  unfold Action.change
  have hget : (get : Action Session).run s = (.ok s, s) := rfl
  rw [run_bind_ok hget, h]
  rfl

/-- The module is written, whether or not the line is printed. -/
theorem run_deliver_ok (h : (writeText target code).run s.files = (.ok (), t)) :
    ∃ s', (job.deliver target code).run s = (lineResult (s.refusal (job.line target)), s') ∧
      s'.files = t := by
  unfold deliver
  rw [run_bind_ok (run_change h)]
  obtain ⟨s', hrun, hagrees⟩ := run_print (job.line target)
    { s with files := t, notes := s.notes ++ [.wroteModule code.length target.text] }
  exact ⟨s', hrun, hagrees.files⟩

theorem run_deliver_error {f : Fault} (h : (writeText target code).run s.files = (.error f, t)) :
    (job.deliver target code).run s = (.error (.fault f), { s with files := t }) :=
  run_bind_error (run_change_error h)

/-! ## Both parts -/

/-- The target of a job has no dots. -/
theorem Yields.not_mem (h : job.Yields files source target code) : ".." ∉ target.parts := by
  have htarget := h.addressed
  unfold Job.target at htarget
  split at htarget
  · exact Path.not_mem_resolve htarget
  · exact Path.not_mem_output (Path.not_mem_resolve h.found) htarget

theorem Yields.unique {source' target' : Path} {code' : String}
    (h : job.Yields files source target code) (h' : job.Yields files source' target' code') :
    target = target' ∧ code = code' := by
  obtain rfl := Except.ok.inj (h.found.symm.trans h'.found)
  exact ⟨Except.ok.inj (h.addressed.symm.trans h'.addressed),
    Option.some.inj (h.compiled.symm.trans h'.compiled)⟩

/-- What a job makes of files `t`, with the result that it has. -/
inductive Ends (job : Job) (refusal : String → Option Fault) (t : FileTree) :
    Except Failure Unit → FileTree → Prop
  /-- There is no module, or something is in its way: nothing changes. -/
  | kept {f : Failure}
    (h : ∀ source target code, job.Yields t source target code → t.Blocks target) :
    Ends job refusal t (.error f) t
  /-- The path of the module is too long: directories on the way may have been made. -/
  | halfway {source target : Path} {code : String} {f : Failure} {t' : FileTree}
    (hy : job.Yields t source target code) (hfree : ¬ t.Blocks target) (hlong : ¬ target.Fits)
    (hgrows : FileTree.Grows target.parent.Passes t t') : Ends job refusal t (.error f) t'
  /-- The module is written, and the line at the end is printed or refused. -/
  | written {source target : Path} {code : String} {t' : FileTree}
    (hy : job.Yields t source target code) (hfree : ¬ t.Blocks target) (hfits : target.Fits)
    (hw : (writeText target code).run t = (.ok (), t')) :
    Ends job refusal t (lineResult (refusal (job.line target))) t'

/-- **A job is done, or no file changes.** -/
theorem ends_perform (hprints : job.printsTree = false) (hrooted : s.files.Rooted) :
    Ends job s.refusal s.files (job.perform.run s).1 (job.perform.run s).2.files := by
  have hkept := keeps_prepare job s
  rw [perform_eq hprints]
  rcases hprepare : job.prepare.run s with ⟨f | ⟨target, code⟩, s₁⟩
  · rw [hprepare] at hkept
    have hfiles : s₁.files = s.files := hkept.files
    rw [run_bind_error hprepare, hfiles]
    -- the first part would have succeeded if the job yielded anything
    refine .kept fun source target code hyields => ?_
    obtain ⟨s', hrun⟩ := run_prepare_iff.mpr ⟨source, hyields⟩
    cases hprepare.symm.trans hrun
  · rw [hprepare] at hkept
    have hfiles : s₁.files = s.files := hkept.files
    have hrefusal : s₁.refusal = s.refusal := hkept.refusal
    obtain ⟨source, hyields⟩ := run_prepare_iff.mp ⟨s₁, hprepare⟩
    have hiff := FileChange.writeText_succeeds_iff hrooted hyields.not_mem code
    rw [run_bind_ok hprepare]
    rcases hwrite : (writeText target code).run s.files with ⟨f | ⟨⟩, t⟩
    · rw [run_deliver_error (hfiles.symm ▸ hwrite)]
      by_cases hblocks : s.files.Blocks target
      · obtain ⟨f', hrun⟩ := FileChange.writeText_of_blocks hrooted hyields.not_mem hblocks code
        cases hrun.symm.trans hwrite
        exact .kept fun _ _ _ hyields' => (hyields.unique hyields').1 ▸ hblocks
      · have hlong : ¬ target.Fits := by
          intro hfits
          have hok := hiff.mpr ⟨hfits, hblocks⟩
          rw [hwrite] at hok
          cases hok
        exact .halfway hyields hblocks hlong (FileChange.grows_of_writeText_error hwrite)
    · obtain ⟨hfits, hfree⟩ := hiff.mp (congrArg Prod.fst hwrite)
      obtain ⟨s', hdeliver, rfl⟩ := run_deliver_ok (hfiles.symm ▸ hwrite)
      rw [hdeliver, hrefusal]
      exact .written hyields hfree hfits hwrite

/-- With the output path that a job has by default, the module does not come over its document. -/
theorem Yields.spot_ne (h : job.Yields files source target code) (houtput : job.output = none) :
    target.spot ≠ source.spot := by
  have htarget := h.addressed
  unfold Job.target at htarget
  rw [houtput] at htarget
  rw [FileTree.spot_eq_parts h.not_mem, FileTree.spot_eq_parts (Path.not_mem_resolve h.found)]
  exact Path.parts_output_ne htarget

/-- The module is at its path in `t`, in directories that are made if need be, and all other files are
as they were.  The document is one of them if no path was given for the module. -/
structure Done (job : Job) (files t : FileTree) (source target : Path) (code : String) : Prop where
  delivered : FileChange.Delivered target code files t
  source : job.output = none → target.spot ≠ source.spot ∧ t.read source = files.read source

theorem Yields.done (h : job.Yields files source target code)
    (hw : (writeText target code).run files = (.ok (), t)) :
    job.Done files t source target code where
  delivered := FileChange.delivered_writeText h.not_mem hw
  source houtput := by
    have hne := h.spot_ne houtput
    obtain ⟨octets, hread, -⟩ := succeeds_read (.inl (Option.isSome_iff_exists.mpr ⟨code, h.compiled⟩))
    refine ⟨hne, ?_⟩
    rw [hread]
    refine (FileChange.written_writeText hw).read_eq hread fun text htext => ?_
    rwa [List.mem_singleton.mp htext]

theorem Ends.succeeds_iff (h : job.Ends refusal files result t) : result = .ok () ↔
    ∃ source target code, job.Yields files source target code ∧ ¬ files.Blocks target ∧ target.Fits ∧
      refusal (job.line target) = none := by
  cases h with
  | kept h =>
    refine iff_of_false (by simp) ?_
    rintro ⟨source, target, code, hy, hfree, -⟩
    exact hfree (h source target code hy)
  | halfway hy hfree hlong hgrows =>
    refine iff_of_false (by simp) ?_
    rintro ⟨source, target, code, hy', -, hfits, -⟩
    exact hlong ((hy.unique hy').1 ▸ hfits)
  | written hy hfree hfits hw =>
    refine lineResult_eq_ok_iff.trans ⟨fun hprinted => ⟨_, _, _, hy, hfree, hfits, hprinted⟩, ?_⟩
    rintro ⟨source, target, code, hy', -, -, hprinted⟩
    rwa [(hy.unique hy').1]

theorem Ends.done (h : job.Ends refusal files result t) (hok : result = .ok ()) :
    ∃ source target code, job.Yields files source target code ∧ job.Done files t source target code := by
  cases h with
  | kept => cases hok
  | halfway => cases hok
  | written hy _ _ hw => exact ⟨_, _, _, hy, hy.done hw⟩

/-- What is left of a job that fails. -/
theorem Ends.left (h : job.Ends refusal files result t) (hfails : result ≠ .ok ()) :
    t = files ∨ ∃ source target code, job.Yields files source target code ∧ ¬ files.Blocks target ∧
      (¬ target.Fits ∧ FileTree.Grows target.parent.Passes files t ∨
        refusal (job.line target) ≠ none ∧ job.Done files t source target code) := by
  cases h with
  | kept => exact .inl rfl
  | halfway hy hfree hlong hgrows => exact .inr ⟨_, _, _, hy, hfree, .inl ⟨hlong, hgrows⟩⟩
  | written hy hfree _ hw =>
    exact .inr ⟨_, _, _, hy, hfree, .inr ⟨mt lineResult_eq_ok_iff.mpr hfails, hy.done hw⟩⟩

/-- A module that cannot be written leaves what the writing has done until then. -/
theorem run_perform_error {f : Fault} (hprints : job.printsTree = false)
    (hy : job.Yields s.files source target code)
    (hw : (writeText target code).run s.files = (.error f, t)) :
    (job.perform.run s).1 = .error (.fault f) ∧ (job.perform.run s).2.files = t := by
  obtain ⟨s', hprepare⟩ := run_prepare_iff.mpr ⟨source, hy⟩
  have hkept := keeps_prepare job s
  rw [hprepare] at hkept
  have hfiles : s'.files = s.files := hkept.files
  rw [perform_eq hprints, run_bind_ok hprepare, run_deliver_error (hfiles.symm ▸ hw)]
  exact ⟨rfl, rfl⟩

/-- A job that prints the tree changes nothing. -/
theorem keeps_perform (h : job.printsTree = true) : Keeps job.perform := by
  unfold perform transpile
  rw [h]
  refine (keeps_ofExcept _).bind fun source => (keeps_requirePath source).bind fun _ => ?_
  refine (keeps_load source).bind fun document => (keeps_ofExcept _).bind fun tree => ?_
  exact (keeps_ofExcept _).bind fun text => keeps_print text

end Job

/-! ## Runs -/

/-- The task is to compile one document. -/
def Task.IsTranspile : Task → Prop
  | .transpile _ _ _ _ => True
  | _ => False

section Run

variable {env : Environment} {here : Path} {files : FileTree} {arguments : List String} {job : Job}

/-- The arguments ask for the job, in the context that the settings give. -/
def Job.AskedBy (job : Job) (env : Environment) (here : Path) (files : FileTree)
    (arguments : List String) : Prop :=
  ∃ request s, Request.ofArguments arguments = .ok request ∧
    request.task = some (.transpile job.input job.output job.annotated job.printsTree) ∧
    (Context.make env here request).run (.start env files) = (.ok job.context, s)

/-- The run of a job that was asked for. -/
theorem Job.AskedBy.exists_session (h : job.AskedBy env here files arguments) : ∃ s verbose,
    (Session.start env files).Agrees s ∧
    (Command.run env here files arguments).session = (job.perform.run s).2 ∧
    (Command.run env here files arguments).ending = .ofResult env verbose (job.perform.run s).1 := by
  obtain ⟨request, s, hrequest, htask, hcontext⟩ := h
  have hkept := keeps_contextMake env here request (.start env files)
  rw [hcontext] at hkept
  have hperform : (Context.make env here request >>= fun context =>
      Task.perform (.transpile job.input job.output job.annotated job.printsTree) (some context)).run
        (.start env files) = job.perform.run s := run_bind_ok hcontext
  unfold Command.run
  simp only [hrequest, htask]
  exact ⟨s, request.verbose, hkept, runAction_eq hperform⟩

/-- Without a job nothing changes. -/
theorem exists_askedBy (h : ∀ request task, Request.ofArguments arguments = .ok request →
      request.task = some task → task.IsTranspile) :
    (∃ job : Job, job.AskedBy env here files arguments) ∨
      (Command.run env here files arguments).session.files = files := by
  unfold Command.run
  cases hrequest : Request.ofArguments arguments with
  | error halt => cases halt <;> exact .inr rfl
  | ok request =>
    dsimp only
    cases htask : request.task with
    | none => exact .inr rfl
    | some task =>
      cases task with
      | transpile input output annotated printsTree =>
        have hkept := keeps_contextMake env here request (.start env files)
        rcases hcontext : (Context.make env here request).run (.start env files) with ⟨f | c, s⟩
        · rw [hcontext] at hkept
          dsimp only
          unfold runAction
          rw [run_bind_error hcontext]
          exact .inr hkept.files
        · exact .inl ⟨⟨c, input, output, annotated, printsTree⟩, request, s, hrequest, htask, hcontext⟩
      | build source out annotated => exact (h request _ hrequest htask).elim
      | types out => exact (h request _ hrequest htask).elim

/-- A run that prints the tree changes nothing. -/
theorem Job.AskedBy.files_eq (h : job.AskedBy env here files arguments)
    (hprints : job.printsTree = true) :
    (Command.run env here files arguments).session.files = files := by
  obtain ⟨s, verbose, hagrees, hsession, -⟩ := h.exists_session
  rw [hsession]
  exact (Job.keeps_perform hprints s).files.trans hagrees.files

/-- Any other run ends as the job does. -/
theorem Job.AskedBy.exists_ends (h : job.AskedBy env here files arguments)
    (hprints : job.printsTree = false) (hrooted : files.Rooted) : ∃ result,
    ((Command.run env here files arguments).ending = .exit 0 "" ↔ result = .ok ()) ∧
      job.Ends env.refusal files result (Command.run env here files arguments).session.files := by
  obtain ⟨s, verbose, hagrees, hsession, hending⟩ := h.exists_session
  have hfiles : s.files = files := hagrees.files
  have hrefusal : s.refusal = env.refusal := hagrees.refusal
  have hends := Job.ends_perform hprints (hfiles.symm ▸ hrooted)
  rw [hfiles, hrefusal] at hends
  rw [hsession, hending]
  exact ⟨_, Ending.ofResult_eq_exit_iff, hends⟩

/-- **Compiling a document is done, or no file changes.**  Let the arguments ask for no other task, and
let everything in the file tree lie in a directory.  A run that fails changes nothing, with two
exceptions.  If nothing is in the way of the module but its path is too long, directories on the way to
it may be new.  If only the line at the end is refused, the module is written.  A run that prints the
tree changes nothing.  Any other run succeeds just when the document comes to a module, nothing is in the
way of it, its path is not too long, and the line is printed; and then the module is written. -/
theorem transpile_outcome {run : Run}
    (htask : ∀ request task, Request.ofArguments arguments = .ok request →
      request.task = some task → task.IsTranspile)
    (hrooted : files.Rooted) (hrun : Command.run env here files arguments = run) :
    (run.ending ≠ .exit 0 "" → run.session.files = files ∨
      ∃ (job : Job) (source target : Path) (code : String), job.AskedBy env here files arguments ∧
        job.printsTree = false ∧ job.Yields files source target code ∧ ¬ files.Blocks target ∧
        (¬ target.Fits ∧ FileTree.Grows target.parent.Passes files run.session.files ∨
          env.refusal (job.line target) ≠ none ∧
            job.Done files run.session.files source target code)) ∧
    ∀ job : Job, job.AskedBy env here files arguments →
      (job.printsTree = true → run.session.files = files) ∧
      (job.printsTree = false →
        (run.ending = .exit 0 "" ↔ ∃ source target code, job.Yields files source target code ∧
          ¬ files.Blocks target ∧ target.Fits ∧ env.refusal (job.line target) = none) ∧
        (run.ending = .exit 0 "" → ∃ source target code, job.Yields files source target code ∧
          job.Done files run.session.files source target code)) := by
  subst hrun
  refine ⟨fun hfails => ?_, fun job hasked => ⟨hasked.files_eq, fun hprints => ?_⟩⟩
  · rcases exists_askedBy htask with ⟨job, hasked⟩ | hsame
    · cases hprints : job.printsTree with
      | true => exact .inl (hasked.files_eq hprints)
      | false =>
        obtain ⟨result, hiff, hends⟩ := hasked.exists_ends hprints hrooted
        rcases hends.left (mt hiff.mpr hfails) with hsame | ⟨source, target, code, hleft⟩
        · exact .inl hsame
        · exact .inr ⟨job, source, target, code, hasked, hprints, hleft⟩
    · exact .inl hsame
  · obtain ⟨result, hiff, hends⟩ := hasked.exists_ends hprints hrooted
    rw [hiff]
    exact ⟨hends.succeeds_iff, hends.done⟩

end Run

/-- A document and some other file. -/
def pageFiles : FileTree :=
  ⟨[(["ws"], .directory), (["ws", "page.ysx"], .file "render: one\n".toUTF8),
    (["ws", "out"], .directory), (["ws", "out", "note"], .file "old".toUTF8)]⟩

/-- The document is to be compiled. -/
def pageJob (output : String) : Job where
  context := { here := workDirectory, root := workDirectory, workspace := { root := workDirectory } }
  input := "page.ysx"
  output := some output
  annotated := false
  printsTree := false

/-- What arguments for the page spell. -/
def pageRequest (output : String) : Request where
  task := some (.transpile "page.ysx" (some output) false false)

section Page

variable {output : String} {arguments : List String} {target : Path}

theorem askedBy_pageJob (h : Request.ofArguments arguments = .ok (pageRequest output)) :
    (pageJob output).AskedBy {} workDirectory pageFiles arguments := by
  have hparts : ((Context.make {} workDirectory {}).run (.start {} pageFiles)).1.toOption.map
      (fun c => (c.here, c.root, c.workspace)) =
        some (workDirectory, workDirectory, { root := workDirectory }) := by decide +kernel
  obtain ⟨⟨here, root, workspace⟩, hcontext, he⟩ := Option.map_eq_some_iff.mp hparts
  cases he
  exact ⟨pageRequest output, _, h, rfl, Prod.ext (toOption_eq_some_iff.mp hcontext) rfl⟩

theorem yields_pageJob (h : Path.resolve workDirectory (.ofText output) = .ok target) :
    (pageJob output).Yields pageFiles (workDirectory.child "page.ysx") target (pageOf "one") where
  found := by
    change Path.resolve workDirectory (.ofText "page.ysx") = _
    exact toOption_eq_some_iff.mp (by decide +kernel)
  compiled := by
    change freshModule? pageFiles (Workspace.annotates { root := workDirectory } (asked false)) _ = _
    rw [freshModule?_eq_bind]
    decide +kernel
  addressed := h

end Page

/-- The module is written, the directory for it is made, and the other file is as it was. -/
theorem transpile_outcome_page : ∃ run,
    Command.run {} workDirectory pageFiles ["transpile", "page.ysx", "out/new/page.jsx"] = run ∧
      run.ending = .exit 0 "" ∧
      run.session.files.read ⟨.root, ["ws", "out", "new", "page.jsx"]⟩ = .ok (pageOf "one").toUTF8 ∧
      run.session.files.get? ["ws", "out", "new"] = some .directory ∧
      run.session.files.get? ["ws", "out", "note"] = some (.file "old".toUTF8) := by
  have hrooted : pageFiles.Rooted := FileTree.rooted_of_isRooted (by decide +kernel)
  have hrequest : Request.ofArguments ["transpile", "page.ysx", "out/new/page.jsx"] =
      .ok (pageRequest "out/new/page.jsx") := toOption_eq_some_iff.mp (by decide +kernel)
  have hresolve : Path.resolve workDirectory (.ofText "out/new/page.jsx") =
      .ok ⟨.root, ["ws", "out", "new", "page.jsx"]⟩ := toOption_eq_some_iff.mp (by decide +kernel)
  have hyields := yields_pageJob hresolve
  obtain ⟨hfits, hfree⟩ :=
    (FileChange.writeText_succeeds_iff hrooted hyields.not_mem (pageOf "one")).mp
      (toOption_eq_some_iff.mp (by decide +kernel))
  obtain ⟨-, hjobs⟩ := transpile_outcome
    (fun request task hrequest' htask => by
      cases hrequest.symm.trans hrequest'
      cases htask
      trivial)
    hrooted rfl
  obtain ⟨hsucceeds, hdone⟩ := (hjobs _ (askedBy_pageJob hrequest)).2 rfl
  have hending := hsucceeds.mpr ⟨_, _, _, hyields, hfree, hfits, rfl⟩
  obtain ⟨source, target, code, hyields', hfiles, -⟩ := hdone hending
  obtain ⟨rfl, rfl⟩ := hyields.unique hyields'
  refine ⟨_, rfl, hending, hfiles.reads, ?_, ?_⟩
  · exact hfiles.directories _ (by decide +kernel) (by decide +kernel)
  · exact (hfiles.frame _ (by decide +kernel)).keeps rfl

/-! ## What a failed run leaves -/

/-- A name with one octet more than names may have. -/
def longName : String :=
  String.ofList (List.replicate 256 'n')

/-- A path for the module with such a name in it, behind a directory that is not there yet. -/
def longOutput : String :=
  "new/" ++ longName ++ "/page.jsx"

theorem toList_longName : longName.toList = List.replicate 256 'n' :=
  String.toList_ofList

theorem ofText_longOutput :
    Path.ofText longOutput = ⟨.here, ["new"] ++ [longName] ++ ["page.jsx"]⟩ := by
  have hchars : longOutput.toList = "new/".toList ++ List.replicate 256 'n' ++ "/page.jsx".toList := by
    unfold longOutput
    rw [String.toList_append, String.toList_append, toList_longName]
  unfold Path.ofText
  rw [hchars]
  decide +kernel

theorem hasNull_longName (anchor : Anchor) : Path.hasNull ⟨anchor, [longName]⟩ = false := by
  unfold Path.hasNull
  rw [List.any_cons, toList_longName]
  decide +kernel

theorem resolve_longOutput : Path.resolve workDirectory (.ofText longOutput) =
    .ok ⟨.root, ["ws", "new"] ++ [longName] ++ ["page.jsx"]⟩ := by
  have hnull : Path.hasNull ⟨.here, ["new"] ++ [longName] ++ ["page.jsx"]⟩ = false := by
    rw [Path.hasNull_append, Path.hasNull_append, hasNull_longName]
    decide +kernel
  unfold Path.resolve
  rw [ofText_longOutput, hnull, if_neg Bool.false_ne_true]
  exact toOption_eq_some_iff.mp (by decide +kernel)

/-- The directory `new` is made, and the next one is not. -/
theorem writeText_longOutput : ∃ f t,
    (writeText ⟨.root, ["ws", "new"] ++ [longName] ++ ["page.jsx"]⟩ (pageOf "one")).run pageFiles =
      (.error f, t) ∧ t.get? ["ws", "new"] = some .directory := by
  have hdots : ".." ∉ ["ws", "new"] := by decide +kernel
  have hrooted : pageFiles.Rooted := FileTree.rooted_of_isRooted (by decide +kernel)
  obtain ⟨hfits, hfree⟩ :=
    (FileChange.writeText_succeeds_iff (p := ⟨.root, ["ws", "new"]⟩) hrooted hdots "").mp
      (toOption_eq_some_iff.mp (by decide +kernel))
  have hnull : Path.hasNull ⟨.root, ["ws", "new"] ++ [longName]⟩ = false := by
    rw [Path.hasNull_append, hasNull_longName, hfits.null]
    rfl
  exact FileChange.writeText_of_long hfits hdots hfree rfl hnull (by decide +kernel) (by decide +kernel) _

/-- An output that takes no line. -/
def mute : Environment where
  refusal _ := some (.foreign "ValueError" "I/O operation on closed file.")

/-- A failed run may leave something behind.  If the directory of the module has too long a name, the
directory above it is made.  If no line can be printed, the module is written all the same. -/
theorem failed_transpile_leaves_traces :
    (∃ run, Command.run {} workDirectory pageFiles ["transpile", "--", "page.ysx", longOutput] = run ∧
      run.ending ≠ .exit 0 "" ∧ pageFiles.get? ["ws", "new"] = none ∧
      run.session.files.get? ["ws", "new"] = some .directory) ∧
    ∃ run, Command.run mute workDirectory pageFiles ["transpile", "page.ysx", "page.jsx"] = run ∧
      run.ending.code? = some 1 ∧ pageFiles.get? ["ws", "page.jsx"] = none ∧
      run.session.files.read (workDirectory.child "page.jsx") = .ok (pageOf "one").toUTF8 := by
  constructor
  · have hrequest : Request.ofArguments ["transpile", "--", "page.ysx", longOutput] =
        .ok (pageRequest longOutput) := toOption_eq_some_iff.mp (by decide +kernel)
    obtain ⟨s, verbose, hagrees, hsession, hending⟩ := (askedBy_pageJob hrequest).exists_session
    have hfiles : s.files = pageFiles := hagrees.files
    have hyields := yields_pageJob resolve_longOutput
    obtain ⟨f, t, hwrite, hmade⟩ := writeText_longOutput
    rw [← hfiles] at hyields hwrite
    obtain ⟨hresult, hleft⟩ := Job.run_perform_error rfl hyields hwrite
    refine ⟨_, rfl, ?_, rfl, ?_⟩
    · rw [hending, hresult]
      exact Ending.ofFailure_ne_exit _ _ _ _
    · rw [hsession, hleft]
      exact hmade
  · refine ⟨_, rfl, by decide +kernel, rfl, ?_⟩
    exact toOption_eq_some_iff.mp (by decide +kernel)

end Componentry.Command
