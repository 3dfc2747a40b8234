import ScopeFrames.Diagnostic
import ScopeFrames.TraceError

namespace ScopeFrames

inductive StepKind : Type
  | program
  | procedure
  | block
  | close
  | declare
  | resolve
  deriving DecidableEq

namespace StepKind

def word : StepKind → String
  | .program => "program"
  | .procedure => "procedure"
  | .block => "block"
  | .close => "end"
  | .declare => "declare"
  | .resolve => "resolve"

def all : List StepKind := [.program, .procedure, .block, .close, .declare, .resolve]

def ofWord? (w : String) : Option StepKind := all.find? (·.word = w)

def needsName : StepKind → Bool
  | .block | .close => false
  | _ => true

theorem ofWord?_word (k : StepKind) : ofWord? k.word = some k := by
  cases k <;> decide

end StepKind

structure Step where
  kind : StepKind
  name? : Option String := none
  category : Option Category := none
  base : Option Category := none
  bounds : Option (Int64 × Int64) := none
  line : Option Nat := none
  column : Option Nat := none
  deriving DecidableEq

namespace Step

def name (s : Step) : String := s.name?.getD ""

def span (s : Step) : Span :=
  match s.line, s.column with
  | some line, some column => .identifier line column s.name.utf8ByteSize
  | _, _ => .dummy

def span? (s : Step) : Option Span :=
  match s.line, s.column with
  | some line, some column => Span.identifier? line column s.name.utf8ByteSize
  | _, _ => some .dummy

def fault? (s : Step) : Option String :=
  if s.kind.needsName && s.name.isEmpty then
    some s!"'{s.kind.word}' step requires a name"
  else if s.kind = .declare then
    match s.category, s.base with
    | none, _ => some "declare step requires a type"
    | some .procedure, _ | some .program, _ =>
      some "procedures and programs are opened with their own step kinds"
    | some .array, none => some "array declaration requires a base_type"
    | some _, _ => none
  else if s.category.isSome || s.base.isSome || s.bounds.isSome then
    some s!"'{s.kind.word}' step does not take type information"
  else
    none

def check (s : Step) (index : Nat) : Except TraceError Unit :=
  match s.fault? with
  | some reason => .error (.invalidStep index reason)
  | none => .ok ()

def declaration? (s : Step) : Option Declaration :=
  match s.kind, s.category with
  | .declare, some .array => some (.array s.name (s.base.getD .undefined) s.bounds)
  | .declare, some c => some (.simple s.name c)
  | _, _ => none

end Step

structure Trace where
  name? : Option String := none
  steps : List Step := []
  deriving DecidableEq

namespace Trace

def name (t : Trace) : String := t.name?.getD "<unnamed>"

def checkFrom (index : Nat) : List Step → Except TraceError Unit
  | [] => .ok ()
  | s :: rest =>
    match s.check index with
    | .error e => .error e
    | .ok () => checkFrom (index + 1) rest

def check (t : Trace) : Except TraceError Unit := checkFrom 0 t.steps

end Trace

end ScopeFrames
