import ScopeFrames.Event
import ScopeFrames.Listing

namespace ScopeFrames

inductive Declaration : Type
  | simple (name : String) (category : Category)
  | array (name : String) (base : Category) (bounds : Option (Int64 × Int64))
  deriving DecidableEq

namespace Declaration

def name : Declaration → String
  | .simple name _ | .array name _ _ => name

def entry : Declaration → Except TableError Entry
  | .simple name category => .ok (.simple name category)
  | .array name base none => .ok (.array name base none)
  | .array name base (some (start, stop)) =>
    match Bounds.between start stop with
    | .error e => .error e
    | .ok bounds => .ok (.array name base (some bounds))

end Declaration

structure Diagnostic where
  code : Code
  isError : Bool
  message : String
  span : Span
  level : Option Nat
  deriving DecidableEq

namespace Diagnostic

def refused (e : TableError) (span : Span) (level : Option Nat) : Diagnostic :=
  ⟨e.code, true, e.message, span, level⟩

def undeclared (name : String) (span : Span) (level : Option Nat) : Diagnostic :=
  ⟨.undeclared, true, s!"Use of undeclared identifier '{name}'", span, level⟩

def shadowed (name : String) (outer : Nat) (span : Span) (level : Option Nat) : Diagnostic :=
  ⟨.shadowed, false, s!"Declaration of '{name}' hides the one at scope level {outer}", span, level⟩

def severity (d : Diagnostic) : String := if d.isError then "error" else "warning"

def text (d : Diagnostic) : String :=
  let place := if d.span.isDummy then "" else s!" at {d.span.start.text}"
  s!"{d.severity}[{d.code.text}]: {d.message}{place}"

def event [Limits] (d : Diagnostic) : Event :=
  let e := if d.isError then Event.error d.code d.message else Event.warning d.code d.message
  (e.placed d.span).noting "scope_level" (dash (d.level.map toString))

end Diagnostic

structure Resolution where
  name : String
  category : Category
  depth : Nat
  label : Option Label
  deriving DecidableEq

def Resolution.of (e : Entry) (depth : Nat) : Resolution := ⟨e.name, e.category, depth, e.label⟩

structure Report where
  scopes : List ClosedScope := []
  diagnostics : List Diagnostic := []
  declared : Nat := 0
  resolved : Nat := 0
  unresolved : Nat := 0
  deriving DecidableEq

namespace Report

def errorCount (r : Report) : Nat := r.diagnostics.countP (·.isError)
def warningCount (r : Report) : Nat := r.diagnostics.length - r.errorCount
def hasErrors (r : Report) : Bool := 0 < r.errorCount

def program? (r : Report) : Option ClosedScope := r.scopes.find? (·.level = 0)

def summary (r : Report) : String :=
  s!"{r.scopes.length} scope(s) closed, {r.declared} declaration(s), "
    ++ s!"{r.resolved} reference(s) resolved, {r.errorCount} error(s), {r.warningCount} warning(s)"

end Report

end ScopeFrames
