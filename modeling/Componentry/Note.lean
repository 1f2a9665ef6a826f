import Componentry.Fault

/-!
# Notes

A note is a line for the log: what the program did, or could not do, on the way to its result.  It
has a level, the part of the program it comes from, and a message.

A `Traced` computation gives its notes in the order in which they were made, and a result or a
fault; notes made before a fault are kept.  Leaving the notes out commutes with all operations
(`result_pure`, `result_bind`).
-/

namespace Componentry

/-- How much a note matters. -/
inductive NoteLevel where
  | debug
  | info
  | warning
  | error
  deriving DecidableEq, Repr

namespace NoteLevel

/-- The rank of a level; what matters more ranks higher. -/
def rank : NoteLevel → Nat
  | .debug => 10
  | .info => 20
  | .warning => 30
  | .error => 40

/-- The word for a level in the log. -/
def word : NoteLevel → String
  | .debug => "DEBUG"
  | .info => "INFO"
  | .warning => "WARNING"
  | .error => "ERROR"

end NoteLevel

/-- A line for the log. -/
inductive Note where
  /-- A document with the given name was read. -/
  | loaded (name : String)
  /-- A component is being built. -/
  | building (stateful : Bool) (name : String)
  /-- A container inside itself was met. -/
  | cyclic
  /-- Code that is no snippet was kept as a text. -/
  | unparsable (reason : String)
  /-- A hook of an unknown kind was left out. -/
  | unsupportedHook (kind : String)
  /-- An import entry without a source was left out. -/
  | skippedImport (entry : String)
  /-- Settings were read from a file. -/
  | usingSettings (path : String)
  /-- A module was written during a build. -/
  | wrote (path : String)
  /-- A module of the given length was written. -/
  | wroteModule (length : Nat) (path : String)
  /-- The type declarations were written. -/
  | wroteDeclarations (path : String)
  /-- A document could not be built. -/
  | failed (path reason : String)
  deriving DecidableEq, Repr

namespace Note

/-- How much a note matters. -/
def level : Note → NoteLevel
  | .failed _ _ => .error
  | _ => .debug

/-- The part of the program that a note comes from. -/
def channel : Note → String
  | .loaded _ => "ysx.loader"
  | .building _ _ | .cyclic | .unparsable _ => "ysx.transpiler"
  | .unsupportedHook _ | .skippedImport _ => "ysx.hooks"
  | .usingSettings _ => "ysx.cli.context"
  | .wrote _ | .failed _ _ => "ysx.cli.commands.build"
  | .wroteModule _ _ => "ysx.cli.commands.transpile"
  | .wroteDeclarations _ => "ysx.integration"

/-- The text of a note. -/
def message : Note → String
  | .loaded name => s!"Loaded YSX document {name}"
  | .building stateful name =>
    "Building " ++ (if stateful then "stateful" else "stateless") ++ " component " ++ name
  | .cyclic => "Cyclic reference in document tree compiled as null"
  | .unparsable reason => s!"Embedding unparsable code as a string: {reason}"
  | .unsupportedHook kind => s!"Unsupported hook '{kind}' emitted as an empty statement"
  | .skippedImport entry => s!"Skipping import entry without a module source: {entry}"
  | .usingSettings path => s!"Using workspace configuration {path}"
  | .wrote path => s!"Wrote {path}"
  | .wroteModule length path => s!"Wrote {length} characters to {path}"
  | .wroteDeclarations path => s!"Wrote type declarations to {path}"
  | .failed path reason => s!"Failed to transpile {path}: {reason}"

end Note

/-- A result or a fault, with the notes made on the way. -/
structure Traced (α : Type) where
  notes : List Note := []
  result : Except Fault α

namespace Traced

/-- Makes a note. -/
def note (n : Note) : Traced Unit :=
  ⟨[n], .ok ()⟩

/-- A computation without notes. -/
def lift {α : Type} (r : Except Fault α) : Traced α :=
  ⟨[], r⟩

/-- One computation after another. -/
protected def bind {α β : Type} (x : Traced α) (f : α → Traced β) : Traced β :=
  match x.result with
  | .ok a => ⟨x.notes ++ (f a).notes, (f a).result⟩
  | .error e => ⟨x.notes, .error e⟩

instance : Monad Traced where
  pure a := ⟨[], .ok a⟩
  bind := Traced.bind

instance : MonadLift (Except Fault) Traced where
  monadLift := lift

@[simp] theorem result_lift {α : Type} (r : Except Fault α) : (lift r).result = r := rfl

@[simp] theorem result_pure {α : Type} (a : α) : (pure a : Traced α).result = .ok a := rfl

/-- The result of one computation after another is the result of the second on the result of the
first. -/
@[simp] theorem result_bind {α β : Type} (x : Traced α) (f : α → Traced β) :
    (x >>= f).result = x.result >>= fun a => (f a).result := by
  show (Traced.bind x f).result = _
  unfold Traced.bind
  cases x.result <;> rfl

theorem bind_pure_self {α : Type} (x : Traced α) : (x >>= fun a => pure a) = x := by
  obtain ⟨notes, result⟩ := x
  cases result <;> simp [bind, pure, Traced.bind]

theorem pure_bind_apply {α β : Type} (a : α) (f : α → Traced β) : (pure a >>= f) = f a := by
  simp [bind, pure, Traced.bind]

theorem bind_bind {α β γ : Type} (x : Traced α) (f : α → Traced β) (h : β → Traced γ) :
    x >>= f >>= h = x >>= fun a => f a >>= h := by
  obtain ⟨notes, result⟩ := x
  cases result with
  | error e => rfl
  | ok a =>
    simp only [bind, Traced.bind]
    cases (f a).result <;> simp

/-- How computations are grouped makes no difference. -/
instance : LawfulMonad Traced :=
  LawfulMonad.mk' Traced bind_pure_self pure_bind_apply bind_bind

/-- The result of several computations in turn. -/
theorem result_mapM {α β : Type} (f : α → Traced β) (as : List α) :
    (as.mapM f).result = as.mapM fun a => (f a).result := by
  induction as with
  | nil => rfl
  | cons a as ih => simp only [List.mapM_cons, result_bind, ih, result_pure]; rfl

end Traced

end Componentry
