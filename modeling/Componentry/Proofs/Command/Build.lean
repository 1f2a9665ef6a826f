import Componentry.Command.Run
import Componentry.Proofs.Command.Source
import Componentry.Proofs.Command.Target

/-!
# What a build leaves behind

A build goes through its documents one by one.  It reads a document, compiles it and writes the module
into the files that the next document is read from.

**Main statement.** What a build comes to for a document is a matter of the files at the start, and a
document that is none changes nothing for the others (`build_confines_failures`).

The documents are still there when it is their turn, since no module is written over one.  So a run
through the documents writes the modules of the documents as they were at the start
(`run_mapM_buildOne`), and these are all changes of files (`FileChange.Written`).  One module may still
be written over another if the search for documents steps up (`stepping_up_overwrites_module`).
-/

namespace Componentry.Command

open FileChange (writeText writeTexts)

variable {files t : FileTree} {plan : Plan} {p target : Path} {d : Document} {code : String}
  {e : DocumentError} {s s' : Session} {annotated : Bool}

/-! ## One document -/

/-- The sessions have the same files and refuse the same lines. -/
structure Session.Agrees (s s' : Session) : Prop where
  files : s'.files = s.files
  refusal : s'.refusal = s.refusal

theorem Session.agrees_refl (s : Session) : s.Agrees s :=
  ⟨rfl, rfl⟩

theorem Session.Agrees.trans {s'' : Session} (h : s.Agrees s') (h' : s'.Agrees s'') : s.Agrees s'' :=
  ⟨h'.files.trans h.files, h'.refusal.trans h.refusal⟩

theorem run_files (s : Session) : Action.files.run s = (.ok s.files, s) :=
  rfl

theorem run_load {f : Except Failure Document} (h : Document.load s.files p = f) :
    ∃ s', (Action.load p).run s = (f, s') ∧ s.Agrees s' := by
  unfold Action.load
  rw [run_bind_ok (run_files s), h]
  cases f with
  | error f => exact ⟨s, rfl, s.agrees_refl⟩
  | ok d => exact ⟨{ s with notes := s.notes ++ [.loaded d.logName] }, rfl, rfl, rfl⟩

theorem run_ofTraced {α : Type} (x : Traced α) (s : Session) : ∃ s',
    (Action.ofTraced x).run s = (x.result.mapError .fault, s') ∧ s.Agrees s' := by
  refine ⟨{ s with notes := s.notes ++ x.notes }, ?_, rfl, rfl⟩
  unfold Action.ofTraced
  cases x.result <;> rfl

theorem run_moduleOrError_ok (hload : Document.load s.files p = .ok d)
    (hresult : (Component.compile d.graph d.root annotated).result = .ok code) :
    ∃ s', (moduleOrError p annotated).run s = (.ok (.ok code), s') ∧ s.Agrees s' := by
  obtain ⟨s₁, hrun, hagrees⟩ := run_load hload
  obtain ⟨s', hrun', hagrees'⟩ := run_ofTraced (Component.compile d.graph d.root annotated) s₁
  have hcode : (moduleOf p annotated).run s = (.ok code, s') := by
    unfold moduleOf
    rw [run_bind_ok hrun, hrun', hresult]
    rfl
  exact ⟨s', run_tryCatch_ok (run_bind_ok hcode), hagrees.trans hagrees'⟩

theorem run_moduleOrError_error (hload : Document.load s.files p = .error (.document e))
    (hkind : e.kind = .schema) :
    ∃ s', (moduleOrError p annotated).run s = (.ok (.error e), s') ∧ s.Agrees s' := by
  obtain ⟨s', hrun, hagrees⟩ := run_load hload
  refine ⟨s', ?_, hagrees⟩
  have hfailed : (moduleOf p annotated).run s = (.error (.document e), s') := run_bind_error hrun
  unfold moduleOrError
  rw [run_tryCatch_error (run_bind_error hfailed)]
  simp only [hkind, beq_self_eq_true, if_true]
  rfl

theorem run_ofExcept {α : Type} {a : α} {x : Except Fault α} (h : x = .ok a) (s : Session) :
    (Action.ofExcept x).run s = (.ok a, s) := by
  rw [h]
  rfl

theorem run_change {c : FileChange Unit} (h : c.run s.files = (.ok (), t)) :
    (Action.change c).run s = (.ok (), { s with files := t }) := by
  unfold Action.change
  have hget : (get : Action Session).run s = (.ok s, s) := rfl
  rw [run_bind_ok hget, h]
  rfl

/-- What the attempt to print a line comes to. -/
def lineResult (refused : Option Fault) : Except Failure Unit :=
  match refused with
  | none => .ok ()
  | some f => .error (.fault f)

theorem lineResult_eq_ok_iff {refused : Option Fault} : lineResult refused = .ok () ↔ refused = none := by
  cases refused <;> simp [lineResult]

theorem run_print (line : String) (s : Session) : ∃ s',
    (Action.print line).run s = (lineResult (s.refusal line), s') ∧ s.Agrees s' := by
  unfold Action.print
  have hget : (get : Action Session).run s = (.ok s, s) := rfl
  rw [run_bind_ok hget]
  cases s.refusal line with
  | none => exact ⟨{ s with printed := s.printed ++ line ++ "\n" }, rfl, rfl, rfl⟩
  | some f => exact ⟨s, rfl, s.agrees_refl⟩

/-- A document that comes to a module: the module is written to its target. -/
theorem run_buildOne_module (htarget : plan.target p = .ok target)
    (hload : Document.load s.files p = .ok d)
    (hresult : (Component.compile d.graph d.root plan.annotated).result = .ok code)
    (hwrite : (writeText target code).run s.files = (.ok (), t)) :
    ∃ s', (buildOne plan p).run s = (.ok none, s') ∧ Session.Agrees { s with files := t } s' := by
  obtain ⟨s₁, hrun, hagrees⟩ := run_moduleOrError_ok hload hresult
  rw [← hagrees.files] at hwrite
  refine ⟨{ s₁ with files := t, notes := s₁.notes ++ [.wrote target.text] }, ?_, rfl, hagrees.refusal⟩
  unfold buildOne
  rw [run_bind_ok (run_ofExcept htarget s), run_bind_ok hrun]
  dsimp only
  rw [run_bind_ok (run_change hwrite)]
  rfl

/-- A document that breaks the schema: it is reported, and no file changes. -/
theorem run_buildOne_error (htarget : plan.target p = .ok target)
    (hload : Document.load s.files p = .error (.document e)) (hkind : e.kind = .schema) :
    ∃ s', (buildOne plan p).run s = (.ok (some e.format), s') ∧ s.Agrees s' := by
  obtain ⟨s₁, hrun, hagrees⟩ := run_moduleOrError_error hload hkind
  refine ⟨{ s₁ with notes := s₁.notes ++ [.failed p.text e.message] }, ?_, hagrees.files,
    hagrees.refusal⟩
  unfold buildOne
  rw [run_bind_ok (run_ofExcept htarget s), run_bind_ok hrun]
  rfl

/-! ## One document after the other -/

/-- The modules of the documents as they are in some files, with their targets. -/
def Plan.modules (plan : Plan) (files : FileTree) (sources : List Path) : List (Path × String) :=
  sources.filterMap fun source => do
    let target ← (plan.target source).toOption
    return (target, ← freshModule? files plan.annotated source)

theorem Plan.modules_cons_module {sources : List Path} (htarget : plan.target p = .ok target)
    (h : freshModule? files plan.annotated p = some code) :
    plan.modules files (p :: sources) = (target, code) :: plan.modules files sources := by
  simp [Plan.modules, htarget, h, Except.toOption]

theorem Plan.modules_cons_none {sources : List Path}
    (h : freshModule? files plan.annotated p = none) :
    plan.modules files (p :: sources) = plan.modules files sources := by
  simp [Plan.modules, h]

/-- What is needed to go through the documents: each of them has a target, no target is a document,
and each of them comes to a module or breaks the schema. -/
structure Plan.Workable (plan : Plan) (files : FileTree) (sources : List Path) : Prop where
  target : ∀ p ∈ sources, Succeeds (plan.target p)
  apart : ∀ p ∈ sources, ∀ q ∈ sources, ∀ target, plan.target p = .ok target → target.spot ≠ q.spot
  ends : ∀ p ∈ sources,
    (freshModule? files plan.annotated p).isSome ∨ (schemaError? files p).isSome

theorem Plan.Workable.tail {sources : List Path} (h : plan.Workable files (p :: sources)) :
    plan.Workable files sources where
  target q hq := h.target q (.tail _ hq)
  apart q hq r hr := h.apart q (.tail _ hq) r (.tail _ hr)
  ends q hq := h.ends q (.tail _ hq)

/-- Writing a module changes no document that is still to be read. -/
theorem Plan.Workable.read_after {sources : List Path} {t' : FileTree}
    (h : plan.Workable files (p :: sources))
    (hsame : ∀ q ∈ p :: sources, t.read q = files.read q) (htarget : plan.target p = .ok target)
    (hwrite : (writeText target code).run t = (.ok (), t')) :
    ∀ q ∈ sources, t'.read q = files.read q := by
  intro q hq
  obtain ⟨octets, hread, -⟩ := succeeds_read (h.ends q (.tail _ hq))
  have hne : ∀ text ∈ [(target, code)], text.1.spot ≠ q.spot := by
    intro text htext
    obtain rfl := List.mem_singleton.mp htext
    exact h.apart p List.mem_cons_self q (.tail _ hq) target htarget
  rw [hread]
  refine (FileChange.written_writeText hwrite).read_eq ?_ hne
  rw [hsame q (.tail _ hq), hread]

theorem run_mapM_cons {α β : Type} {f : α → Action β} {a : α} {b : β} {as : List α} {bs : List β}
    {s₁ : Session} (h : (f a).run s = (.ok b, s₁)) (hs : (as.mapM f).run s₁ = (.ok bs, s')) :
    ((a :: as).mapM f).run s = (.ok (b :: bs), s') := by
  rw [List.mapM_cons, run_bind_ok h, run_bind_ok hs]
  rfl

/-- **A run through the documents writes the modules of the documents as they were at the start.** -/
theorem run_mapM_buildOne {sources : List Path} (h : plan.Workable files sources)
    (hsame : ∀ p ∈ sources, s.files.read p = files.read p)
    (hwrites : (writeTexts (plan.modules files sources)).run s.files = (.ok (), t)) :
    ∃ s', (sources.mapM (buildOne plan)).run s =
      (.ok (sources.map fun p => (schemaError? files p).map (·.format)), s') ∧
        Session.Agrees { s with files := t } s' := by
  induction sources generalizing s with
  | nil => exact ⟨s, rfl, congrArg Prod.snd hwrites, rfl⟩
  | cons p sources ih =>
    obtain ⟨target, htarget, -⟩ := h.target p List.mem_cons_self
    have hload := load_congr (hsame p List.mem_cons_self)
    cases hcode : freshModule? files plan.annotated p with
    | none =>
      obtain ⟨e, he⟩ := Option.isSome_iff_exists.mp
        ((h.ends p List.mem_cons_self).resolve_left (by simp [hcode]))
      obtain ⟨herror, hkind⟩ := schemaError?_eq_some_iff.mp he
      obtain ⟨s₁, hrun, hagrees⟩ := run_buildOne_error htarget (hload.trans herror) hkind
      rw [Plan.modules_cons_none hcode, ← hagrees.files] at hwrites
      obtain ⟨s', hrest, hagrees'⟩ := ih h.tail
        (fun q hq => (congrArg (·.read q) hagrees.files).trans (hsame q (.tail _ hq))) hwrites
      refine ⟨s', ?_, hagrees'.files, hagrees'.refusal.trans hagrees.refusal⟩
      rw [List.map_cons, he]
      exact run_mapM_cons hrun hrest
    | some code =>
      obtain ⟨d, hd, hresult⟩ := freshModule?_eq_some_iff.mp hcode
      rw [Plan.modules_cons_module htarget hcode] at hwrites
      obtain ⟨⟨⟩, t₁, hwrite, hwrites⟩ := run_bind_eq_ok hwrites
      obtain ⟨s₁, hrun, hagrees⟩ := run_buildOne_module htarget (hload.trans hd) hresult hwrite
      obtain rfl : s₁.files = t₁ := hagrees.files
      obtain ⟨s', hrest, hagrees'⟩ := ih h.tail (h.read_after hsame htarget hwrite) hwrites
      refine ⟨s', ?_, hagrees'.files, hagrees'.refusal.trans hagrees.refusal⟩
      rw [List.map_cons, schemaError?_eq_none hcode]
      exact run_mapM_cons hrun hrest

/-! ## The plan -/

/-- The plan of a build that was asked for. -/
def planFor (env : Environment) (here : Path) (request : Request) (source : Option String)
    (out : Option (Option String)) (annotated : Bool) : Action Plan := do
  Plan.make (← Context.make env here request) source out annotated

/-- The action changes no files, and the same lines are refused after it. -/
def Keeps {α : Type} (x : Action α) : Prop :=
  ∀ s : Session, s.Agrees (x.run s).2

section Keeps

variable {α β : Type}

theorem keeps_pure (a : α) : Keeps (pure a : Action α) :=
  fun s => s.agrees_refl

theorem keeps_throw (f : Failure) : Keeps (throw f : Action α) :=
  fun s => s.agrees_refl

theorem Keeps.bind {x : Action α} {f : α → Action β} (hx : Keeps x) (hf : ∀ a, Keeps (f a)) :
    Keeps (x >>= f) := by
  intro s
  have hfirst := hx s
  rcases hrun : x.run s with ⟨e | a, s₁⟩
  · rw [run_bind_error hrun]
    rwa [hrun] at hfirst
  · rw [hrun] at hfirst
    rw [run_bind_ok hrun]
    exact hfirst.trans (hf a s₁)

theorem keeps_files : Keeps Action.files :=
  fun s => s.agrees_refl

theorem keeps_note (n : Note) : Keeps (Action.note n) :=
  fun _ => ⟨rfl, rfl⟩

theorem keeps_ofExcept (x : Except Fault α) : Keeps (Action.ofExcept x) := by
  cases x with
  | error f => exact keeps_throw _
  | ok a => exact keeps_pure a

theorem keeps_contextMake (env : Environment) (here : Path) (request : Request) :
    Keeps (Context.make env here request) := by
  refine (keeps_ofExcept _).bind fun root => (keeps_ofExcept _).bind fun given => ?_
  refine keeps_files.bind fun files => ?_
  split
  · dsimp only
    split
    · exact (keeps_note _).bind fun _ => keeps_pure _
    · exact keeps_pure _
  · split
    · exact keeps_throw _
    · exact keeps_throw _

theorem keeps_requirePath (p : Path) : Keeps (requirePath p) := by
  refine keeps_files.bind fun files => (keeps_ofExcept _).bind fun there => ?_
  cases there with
  | false => exact keeps_throw _
  | true => exact keeps_pure _

theorem keeps_planMake (c : Context) (source : Option String) (out : Option (Option String))
    (annotated : Bool) : Keeps (Plan.make c source out annotated) := by
  have hout : Keeps (outputPath c.here out) := by
    rcases out with _ | _ | text
    · exact keeps_pure _
    · exact keeps_throw _
    · exact (keeps_ofExcept _).bind fun _ => keeps_pure _
  refine (keeps_ofExcept _).bind fun root => (keeps_requirePath _).bind fun _ => ?_
  exact hout.bind fun _ => keeps_pure _

theorem keeps_planFor (env : Environment) (here : Path) (request : Request)
    (source : Option String) (out : Option (Option String)) (annotated : Bool) :
    Keeps (planFor env here request source out annotated) :=
  (keeps_contextMake env here request).bind fun c => keeps_planMake c source out annotated

end Keeps

/-! ## The build -/

section Build

variable {sources : List Path}

/-- What a build comes to if these documents break the schema and its last line is refused. -/
def buildResult (failures : List DocumentError) (total : Nat) (refused : Option Fault) :
    Except Failure Unit :=
  if failures.isEmpty then lineResult refused
  else .error (buildFailure (failures.map (·.format)) total)

theorem buildResult_eq_ok_iff {failures : List DocumentError} {total : Nat} {refused : Option Fault} :
    buildResult failures total refused = .ok () ↔ failures = [] ∧ refused = none := by
  cases failures <;> simp [buildResult, lineResult_eq_ok_iff]

theorem run_buildAll (h : plan.Workable files sources)
    (hsame : ∀ p ∈ sources, s.files.read p = files.read p)
    (hwrites : (writeTexts (plan.modules files sources)).run s.files = (.ok (), t)) :
    ∃ s', (buildAll plan sources).run s =
      (buildResult (sources.filterMap (schemaError? files)) sources.length
        (s.refusal (plan.report sources)), s') ∧ s'.files = t := by
  obtain ⟨s₁, hrun, hagrees⟩ := run_mapM_buildOne h hsame hwrites
  have hreports : (sources.map fun p => (schemaError? files p).map (·.format)).filterMap id =
      (sources.filterMap (schemaError? files)).map (·.format) := by
    rw [List.filterMap_map, List.map_filterMap]
    rfl
  unfold buildAll
  rw [run_bind_ok hrun]
  dsimp only
  rw [hreports, List.isEmpty_map, buildResult]
  by_cases hnone : (sources.filterMap (schemaError? files)).isEmpty = true
  · obtain ⟨s', hprint, hkept⟩ := run_print (plan.report sources) s₁
    rw [if_pos hnone, if_pos hnone, hprint, hagrees.refusal]
    exact ⟨s', rfl, hkept.files.trans hagrees.files⟩
  · rw [if_neg hnone, if_neg hnone]
    exact ⟨s₁, rfl, hagrees.files⟩

theorem run_build {c : Context} {source : Option String} {out : Option (Option String)}
    (hplan : (Plan.make c source out annotated).run s = (.ok plan, s')) (hkept : s'.files = files)
    (hsources : plan.sources files = .ok sources) (h : plan.Workable files sources)
    (hwrites : (writeTexts (plan.modules files sources)).run files = (.ok (), t)) :
    ∃ s'', (build c source out annotated).run s =
      (buildResult (sources.filterMap (schemaError? files)) sources.length
        (s'.refusal (plan.report sources)), s'') ∧ s''.files = t := by
  subst hkept
  unfold build
  rw [run_bind_ok hplan, run_bind_ok (run_files s'), run_bind_ok (run_ofExcept hsources s')]
  exact run_buildAll h (fun _ _ => rfl) hwrites

/-- How a run ends with a result. -/
def Ending.ofResult (env : Environment) (verbose : Bool) : Except Failure Unit → Ending
  | .ok () => .exit 0 ""
  | .error f => .ofFailure env verbose 1 f

theorem Ending.ofFailure_ne_exit (env : Environment) (verbose : Bool) (code : Int) (f : Failure) :
    Ending.ofFailure env verbose code f ≠ .exit 0 "" := by
  unfold Ending.ofFailure
  split
  · intro he
    cases he
  · intro he
    cases he

theorem Ending.ofResult_eq_exit_iff {env : Environment} {verbose : Bool} {result : Except Failure Unit} :
    Ending.ofResult env verbose result = .exit 0 "" ↔ result = .ok () := by
  rcases result with f | ⟨⟩
  · exact iff_of_false (Ending.ofFailure_ne_exit _ _ _ _) (by simp)
  · exact iff_of_true rfl rfl

theorem runAction_eq {env : Environment} {verbose : Bool} {level : NoteLevel} {action : Action Unit}
    {result : Except Failure Unit} (h : action.run (.start env files) = (result, s)) :
    (runAction env verbose level files action).session = s ∧
      (runAction env verbose level files action).ending = .ofResult env verbose result := by
  unfold runAction
  rw [h]
  rcases result with f | ⟨⟩
  · exact ⟨rfl, rfl⟩
  · exact ⟨rfl, rfl⟩

/-- The run of a build that was asked for. -/
theorem run_of_plan {env : Environment} {here : Path} {arguments : List String} {request : Request}
    {source : Option String} {out : Option (Option String)}
    (hrequest : Request.ofArguments arguments = .ok request)
    (htask : request.task = some (.build source out annotated))
    (hplan : ((planFor env here request source out annotated).run (.start env files)).1 = .ok plan)
    (hsources : plan.sources files = .ok sources) (h : plan.Workable files sources)
    (hwrites : (writeTexts (plan.modules files sources)).run files = (.ok (), t)) :
    (Command.run env here files arguments).session.files = t ∧
      (Command.run env here files arguments).ending = .ofResult env request.verbose
        (buildResult (sources.filterMap (schemaError? files)) sources.length
          (env.refusal (plan.report sources))) := by
  have hkept := keeps_planFor env here request source out annotated (.start env files)
  rcases hrun : (planFor env here request source out annotated).run (.start env files) with ⟨result, s₀⟩
  rw [hrun] at hplan hkept
  obtain rfl : result = .ok plan := hplan
  obtain ⟨c, s₁, hcontext, hmake⟩ := run_bind_eq_ok hrun
  have hsame : s₀.files = files := hkept.files
  have hrefusal : s₀.refusal = env.refusal := hkept.refusal
  obtain ⟨s', hbuild, hfiles⟩ := run_build hmake hsame hsources h hwrites
  have hperform : (Context.make env here request >>= fun context =>
      Task.perform (.build source out annotated) (some context)).run (.start env files) =
        (build c source out annotated).run s₁ := run_bind_ok hcontext
  obtain ⟨hsession, hending⟩ := runAction_eq (hperform.trans hbuild)
  unfold Command.run
  simp only [hrequest, htask]
  refine ⟨(congrArg Session.files hsession).trans hfiles, hending.trans ?_⟩
  rw [hrefusal]

end Build

/-! ## The main statement -/

section Confinement

variable {sources : List Path}

theorem Plan.mem_modules {text : Path × String} : text ∈ plan.modules files sources ↔
    ∃ p ∈ sources, plan.target p = .ok text.1 ∧
      freshModule? files plan.annotated p = some text.2 := by
  obtain ⟨target, code⟩ := text
  rw [Plan.modules, List.mem_filterMap]
  constructor
  · rintro ⟨p, hp, h⟩
    obtain ⟨_, htarget, h⟩ := Option.bind_eq_some_iff.mp h
    obtain ⟨_, hcode, h⟩ := Option.bind_eq_some_iff.mp h
    cases h
    exact ⟨p, hp, toOption_eq_some_iff.mp htarget, hcode⟩
  · rintro ⟨p, hp, htarget, hcode⟩
    refine ⟨p, hp, ?_⟩
    rw [htarget, hcode]
    rfl

theorem Plan.workable (hsources : plan.sources files = .ok sources)
    (hsuffix : ∀ p ∈ sources, p.suffix = documentSuffix)
    (hends : ∀ p ∈ sources,
      (freshModule? files plan.annotated p).isSome ∨ (schemaError? files p).isSome) :
    plan.Workable files sources where
  target p hp := by
    obtain ⟨target, htarget, -⟩ := Plan.exists_target hsources hp (hsuffix p hp)
    exact ⟨target, htarget, trivial⟩
  apart p hp q hq target htarget := by
    obtain ⟨_, htarget', hmirrors⟩ := Plan.exists_target hsources hp (hsuffix p hp)
    obtain rfl := Except.ok.inj (htarget.symm.trans htarget')
    obtain ⟨_, -, hmirrors'⟩ := Plan.exists_target hsources hq (hsuffix q hq)
    exact hmirrors.spot_ne hmirrors'
  ends := hends

/-- What is written to the target of a document is the module of that document. -/
theorem Plan.KeepsApart.module_at_target (hapart : plan.KeepsApart sources)
    (hsources : plan.sources files = .ok sources)
    (hsuffix : ∀ p ∈ sources, p.suffix = documentSuffix) (hp : p ∈ sources)
    (hread : Succeeds (files.read p)) (htarget : plan.target p = .ok target)
    {text : Path × String} (htext : text ∈ plan.modules files sources)
    (hspot : text.1.spot = target.spot) : freshModule? files plan.annotated p = some text.2 := by
  obtain ⟨q, hq, htarget', hfresh⟩ := Plan.mem_modules.mp htext
  obtain ⟨_, hagain, hmirrors⟩ := Plan.exists_target hsources hp (hsuffix p hp)
  obtain rfl := Except.ok.inj (htarget.symm.trans hagain)
  obtain ⟨_, hagain', hmirrors'⟩ := Plan.exists_target hsources hq (hsuffix q hq)
  obtain rfl := Except.ok.inj (htarget'.symm.trans hagain')
  exact freshModule?_of_spot hread
    (hapart.spot_eq hq hp htarget' htarget hmirrors' hmirrors hspot) hfresh

end Confinement

/-- **A failing document does not affect the rest of a build.**  All documents that are found have
the suffix of documents, each of them comes to a module or breaks the schema, and the modules can be
written.  Then every document that comes to a module has at its target what a new instance makes of
the document as it was at the start.  At the target of a document that breaks the schema, and wherever
else no module belongs, there is what was there before; where nothing was, there may be a directory
now, on the way to a module.  The build fails if there are documents that break the schema, and names
their errors in the order of the documents; otherwise it fails if its last line is refused. -/
theorem build_confines_failures {env : Environment} {here : Path} {files : FileTree}
    {arguments : List String} {request : Request} {source : Option String}
    {out : Option (Option String)} {annotated : Bool} {plan : Plan} {sources : List Path} {run : Run}
    (hrequest : Request.ofArguments arguments = .ok request)
    (htask : request.task = some (.build source out annotated))
    (hplan : ((planFor env here request source out annotated).run (.start env files)).1 = .ok plan)
    (hsources : plan.sources files = .ok sources)
    (hsuffix : ∀ p ∈ sources, p.suffix = documentSuffix)
    (hends : ∀ p ∈ sources,
      (freshModule? files plan.annotated p).isSome ∨ (schemaError? files p).isSome)
    (hwrites : ((writeTexts (plan.modules files sources)).run files).1 = .ok ())
    (hapart : plan.KeepsApart sources)
    (hrun : Command.run env here files arguments = run) :
    (∀ p ∈ sources, ∃ target, plan.target p = .ok target ∧ plan.Mirrors p target ∧
      (∀ code, freshModule? files plan.annotated p = some code →
        run.session.files.read target = .ok code.toUTF8) ∧
      ((schemaError? files p).isSome → files.GrowsAt run.session.files target.spot
        (∃ text ∈ plan.modules files sources, text.1.parent.Passes target.spot))) ∧
    (∀ place, (∀ text ∈ plan.modules files sources, text.1.spot ≠ place) →
      files.GrowsAt run.session.files place
        (∃ text ∈ plan.modules files sources, text.1.parent.Passes place)) ∧
    (run.ending = .exit 0 "" ↔
      (∀ p ∈ sources, schemaError? files p = none) ∧ env.refusal (plan.report sources) = none) ∧
    (∀ failures, sources.filterMap (schemaError? files) = failures → failures ≠ [] →
      ∃ e : CommandError, run.ending = .ofFailure env request.verbose 1 (.command e) ∧
        e.kind = .build ∧
        e.message = s!"{failures.length} of {sources.length} YSX files failed to transpile" ∧
        e.context = failures.mapIdx fun i failure => (s!"failure_{i + 1}", failure.format)) := by
  subst hrun
  have hworkable := Plan.workable hsources hsuffix hends
  rcases hwritten : (writeTexts (plan.modules files sources)).run files with ⟨result, t⟩
  rw [hwritten] at hwrites
  obtain rfl : result = .ok () := hwrites
  obtain ⟨hfiles, hending⟩ := run_of_plan hrequest htask hplan hsources hworkable hwritten
  have hw := FileChange.written_writeTexts hwritten
  rw [hfiles, hending]
  refine ⟨?_, hw.frame, ?_, ?_⟩
  · intro p hp
    obtain ⟨target, htarget, hmirrors⟩ := Plan.exists_target hsources hp (hsuffix p hp)
    have hmodule : ∀ text ∈ plan.modules files sources, text.1.spot = target.spot →
        freshModule? files plan.annotated p = some text.2 := fun text htext hspot =>
      hapart.module_at_target hsources hsuffix hp (succeeds_read (hends p hp)) htarget htext hspot
    refine ⟨target, htarget, hmirrors, ?_, ?_⟩
    · intro code hcode
      obtain ⟨last, hlast, hspot, hread⟩ := hw.reads (target, code)
        (Plan.mem_modules.mpr ⟨p, hp, htarget, hcode⟩)
      obtain rfl := Option.some.inj (hcode.symm.trans (hmodule last hlast hspot))
      exact hread
    · intro hfails
      obtain ⟨e, he⟩ := Option.isSome_iff_exists.mp hfails
      refine hw.frame _ fun text htext hspot => ?_
      cases (freshModule?_eq_none he).symm.trans (hmodule text htext hspot)
  · rw [Ending.ofResult_eq_exit_iff, buildResult_eq_ok_iff, List.filterMap_eq_nil_iff]
  · rintro failures hfailures hne
    obtain ⟨e, failures, rfl⟩ := List.exists_cons_of_ne_nil hne
    rw [hfailures]
    refine ⟨_, rfl, rfl, ?_, ?_⟩
    · rw [List.length_map]
    · refine List.ext_getElem? fun i => ?_
      rw [List.getElem?_mapIdx, List.getElem?_mapIdx, List.getElem?_map, Option.map_map]
      rfl

/-- The directory that the builds below run in. -/
def workDirectory : Path :=
  ⟨.root, ["ws"]⟩

/-- The module of a document that renders a text. -/
def pageOf (text : String) : String :=
  "import React from \"react\";\nfunction Component(props) \x7b\n  return \"" ++ text ++
    "\";\n\x7d\nexport default Component;"

/-- A document, another one that renders nothing, and an old module of the latter. -/
def mixedFiles : FileTree :=
  ⟨[(["ws"], .directory), (["ws", "good.ysx"], .file "render: one\n".toUTF8),
    (["ws", "odd.ysx"], .file "title: two\n".toUTF8), (["ws", "out"], .directory),
    (["ws", "out", "odd.jsx"], .file "old".toUTF8)]⟩

def mixedPlan : Plan where
  workspace := { root := workDirectory }
  sourceRoot := workDirectory
  out := some (workDirectory.child "out")
  annotated := false

def mixedSources : List Path :=
  [workDirectory.child "good.ysx", workDirectory.child "odd.ysx"]

theorem build_confines_failures_mixed :
    ∃ run, Command.run {} workDirectory mixedFiles ["build", "--out", "out"] = run ∧
      run.session.files.read ⟨.root, ["ws", "out", "good.jsx"]⟩ = .ok (pageOf "one").toUTF8 ∧
      run.session.files.get? ["ws", "out", "odd.jsx"] = some (.file "old".toUTF8) ∧
      ∃ e : CommandError, run.ending = .ofFailure {} false 1 (.command e) ∧
        e.message = "1 of 2 YSX files failed to transpile" := by
  have hrequest : Request.ofArguments ["build", "--out", "out"] =
      .ok { task := some (.build none (some (some "out")) false) } :=
    toOption_eq_some_iff.mp (by decide +kernel)
  have hplan : ((planFor {} workDirectory { task := some (.build none (some (some "out")) false) }
      none (some (some "out")) false).run (.start {} mixedFiles)).1 = .ok mixedPlan :=
    toOption_eq_some_iff.mp (by decide +kernel)
  have hglob : Glob.ofText mixedPlan.workspace.settings.documents =
      .ok ⟨[.anywhere, .pattern (.ofText "*.ysx")], false⟩ :=
    toOption_eq_some_iff.mp (by decide +kernel)
  have hsources : mixedPlan.sources mixedFiles = .ok mixedSources :=
    Plan.sources_of_sorted hglob (toOption_eq_some_iff.mp (by decide +kernel))
      (toOption_eq_some_iff.mp (by decide +kernel)) (by decide +kernel)
  have hmodule : freshModule? mixedFiles false (workDirectory.child "good.ysx") =
      some (pageOf "one") := by
    rw [freshModule?_eq_bind]
    decide +kernel
  obtain ⟨e, he⟩ : ∃ e, schemaError? mixedFiles (workDirectory.child "odd.ysx") = some e :=
    Option.isSome_iff_exists.mp (by decide +kernel)
  have hends : ∀ p ∈ mixedSources, (freshModule? mixedFiles mixedPlan.annotated p).isSome ∨
      (schemaError? mixedFiles p).isSome := by
    refine List.forall_mem_cons.mpr ⟨.inl ?_, List.forall_mem_singleton.mpr (.inr ?_)⟩
    · exact Option.isSome_iff_exists.mpr ⟨_, hmodule⟩
    · exact Option.isSome_iff_exists.mpr ⟨_, he⟩
  have htarget : mixedPlan.target (workDirectory.child "good.ysx") =
      .ok ⟨.root, ["ws", "out", "good.jsx"]⟩ := toOption_eq_some_iff.mp (by decide +kernel)
  have hmodules : mixedPlan.modules mixedFiles mixedSources =
      [(⟨.root, ["ws", "out", "good.jsx"]⟩, pageOf "one")] := by
    rw [mixedSources, Plan.modules_cons_module htarget hmodule,
      Plan.modules_cons_none (freshModule?_eq_none he)]
    rfl
  have hfailing : mixedSources.filterMap (schemaError? mixedFiles) = [e] := by
    simp [mixedSources, schemaError?_eq_none hmodule, he]
  have hwrites : ((writeTexts (mixedPlan.modules mixedFiles mixedSources)).run mixedFiles).1 =
      .ok () := by
    rw [hmodules]
    exact toOption_eq_some_iff.mp (by decide +kernel)
  have hapart : mixedPlan.KeepsApart mixedSources := by
    have hdown : ∀ p ∈ mixedSources, ¬ mixedPlan.StepsUp p := by decide +kernel
    intro _ p hp q hq hup
    exact absurd hup (not_or.mpr ⟨hdown p hp, hdown q hq⟩)
  obtain ⟨htargets, hframe, -, hfailures⟩ := build_confines_failures hrequest rfl hplan hsources
    (by decide +kernel) hends hwrites hapart rfl
  refine ⟨_, rfl, ?_, ?_, ?_⟩
  · obtain ⟨target, hagain, -, hread, -⟩ := htargets _ List.mem_cons_self
    obtain rfl := Except.ok.inj (htarget.symm.trans hagain)
    exact hread _ hmodule
  · refine (hframe ["ws", "out", "odd.jsx"] ?_).keeps rfl
    rw [hmodules]
    decide +kernel
  · obtain ⟨e, hending, -, hmessage, -⟩ := hfailures _ hfailing (List.cons_ne_nil _ _)
    have htext : toString 1 ++ " of " ++ toString 2 ++ " YSX files failed to transpile" =
        "1 of 2 YSX files failed to transpile" := by decide +kernel
    exact ⟨e, hending, hmessage.trans htext⟩

/-- Two documents with the same name, in directories beside each other.  The search steps up. -/
def steppingFiles : FileTree :=
  ⟨[(["ws"], .directory),
    (["ws", "ysx.toml"], .file "[defaults]\nsource_glob = \"**/../**/*.ysx\"\n".toUTF8),
    (["ws", "p"], .directory), (["ws", "p", "a.ysx"], .file "render: two\n".toUTF8),
    (["ws", "src"], .directory), (["ws", "src", "a.ysx"], .file "render: one\n".toUTF8),
    (["ws", "src", "d"], .directory)]⟩

def steppingPlan : Plan where
  workspace :=
    { root := workDirectory, settings := { documents := "**/../**/*.ysx" }
      source := some (workDirectory.child "ysx.toml") }
  sourceRoot := workDirectory.child "src"
  out := some ⟨.root, ["ws", "out", "p"]⟩
  annotated := false

def steppingSources : List Path :=
  [⟨.root, ["ws", "src", "..", "p", "a.ysx"]⟩, ⟨.root, ["ws", "src", "..", "src", "a.ysx"]⟩,
    ⟨.root, ["ws", "src", "d", "..", "a.ysx"]⟩]

/-- Below the output directory `out/p`, the target of `src/../p/a.ysx` is `out/p/../p/a.jsx` and that
of `src/d/../a.ysx` is `out/p/d/../a.jsx`. -/
def steppingModules : List (Path × String) :=
  [(⟨.root, ["ws", "out", "p", "..", "p", "a.jsx"]⟩, pageOf "two"),
    (⟨.root, ["ws", "out", "p", "..", "src", "a.jsx"]⟩, pageOf "one"),
    (⟨.root, ["ws", "out", "p", "d", "..", "a.jsx"]⟩, pageOf "one")]

/-- If documents are found by steps up, the module of one may be written over the module of another:
here all documents come to modules and all modules are written, and still the target of one does not
hold its module. -/
theorem stepping_up_overwrites_module : ∃ request plan sources run,
    Request.ofArguments ["build", "src", "--out", "out/p"] = .ok request ∧
    request.task = some (.build (some "src") (some (some "out/p")) false) ∧
    ((planFor {} workDirectory request (some "src") (some (some "out/p")) false).run
      (.start {} steppingFiles)).1 = .ok plan ∧
    plan.sources steppingFiles = .ok sources ∧
    (∀ p ∈ sources, p.suffix = documentSuffix) ∧
    (∀ p ∈ sources, (freshModule? steppingFiles plan.annotated p).isSome ∨
      (schemaError? steppingFiles p).isSome) ∧
    ((writeTexts (plan.modules steppingFiles sources)).run steppingFiles).1 = .ok () ∧
    Command.run {} workDirectory steppingFiles ["build", "src", "--out", "out/p"] = run ∧
    ∃ p ∈ sources, ∃ target code, plan.target p = .ok target ∧
      freshModule? steppingFiles plan.annotated p = some code ∧
      run.session.files.read target ≠ .ok code.toUTF8 := by
  have hrequest : Request.ofArguments ["build", "src", "--out", "out/p"] =
      .ok { task := some (.build (some "src") (some (some "out/p")) false) } :=
    toOption_eq_some_iff.mp (by decide +kernel)
  have hplan : ((planFor {} workDirectory
      { task := some (.build (some "src") (some (some "out/p")) false) } (some "src")
      (some (some "out/p")) false).run (.start {} steppingFiles)).1 = .ok steppingPlan :=
    toOption_eq_some_iff.mp (by decide +kernel)
  have hglob : Glob.ofText steppingPlan.workspace.settings.documents =
      .ok ⟨[.anywhere, .name "..", .anywhere, .pattern (.ofText "*.ysx")], false⟩ :=
    toOption_eq_some_iff.mp (by decide +kernel)
  have hsources : steppingPlan.sources steppingFiles = .ok steppingSources :=
    Plan.sources_of_sorted hglob (toOption_eq_some_iff.mp (by decide +kernel))
      (toOption_eq_some_iff.mp (by decide +kernel)) (by decide +kernel)
  have hsuffix : ∀ p ∈ steppingSources, p.suffix = documentSuffix := by decide +kernel
  have hmodules : steppingPlan.modules steppingFiles steppingSources = steppingModules := by
    simp only [Plan.modules, freshModule?_eq_bind]
    decide +kernel
  have hends : ∀ p ∈ steppingSources,
      (freshModule? steppingFiles steppingPlan.annotated p).isSome ∨
        (schemaError? steppingFiles p).isSome := by
    have hlength := congrArg List.length hmodules
    intro p hp
    have hboth := List.filterMap_length_eq_length.mp hlength p hp
    obtain ⟨text, htext⟩ := Option.isSome_iff_exists.mp hboth
    obtain ⟨_, -, htext⟩ := Option.bind_eq_some_iff.mp htext
    obtain ⟨code, hcode, -⟩ := Option.bind_eq_some_iff.mp htext
    exact .inl (Option.isSome_iff_exists.mpr ⟨code, hcode⟩)
  have hwrites : ((writeTexts (steppingPlan.modules steppingFiles steppingSources)).run
      steppingFiles).1 = .ok () := by
    rw [hmodules]
    exact toOption_eq_some_iff.mp (by decide +kernel)
  have hread : ((writeTexts (steppingPlan.modules steppingFiles steppingSources)).run
      steppingFiles).2.read ⟨.root, ["ws", "out", "p", "..", "p", "a.jsx"]⟩ =
        .ok (pageOf "one").toUTF8 := by
    rw [hmodules]
    exact toOption_eq_some_iff.mp (by decide +kernel)
  have hfirst : (⟨.root, ["ws", "out", "p", "..", "p", "a.jsx"]⟩, pageOf "two") ∈
      steppingPlan.modules steppingFiles steppingSources := by
    rw [hmodules]
    exact List.mem_cons_self
  obtain ⟨p, hp, htarget, hcode⟩ := Plan.mem_modules.mp hfirst
  rcases hwritten : (writeTexts (steppingPlan.modules steppingFiles steppingSources)).run
    steppingFiles with ⟨result, t⟩
  rw [hwritten] at hwrites hread
  obtain rfl : result = .ok () := hwrites
  have hrun := (run_of_plan hrequest rfl hplan hsources (Plan.workable hsources hsuffix hends)
    hwritten).1
  refine ⟨_, steppingPlan, steppingSources, _, hrequest, rfl, hplan, hsources, hsuffix, hends,
    congrArg Prod.fst hwritten, rfl, p, hp, _, _, htarget, hcode, ?_⟩
  rw [hrun, hread]
  intro he
  exact absurd (Except.ok.inj he) (by decide +kernel)

end Componentry.Command
