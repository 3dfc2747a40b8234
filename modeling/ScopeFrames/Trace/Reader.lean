import ScopeFrames.Toml
import ScopeFrames.Trace

namespace ScopeFrames

open Toml

def Category.ofToml : Value → Except Cause Category := Value.asChoice "a category" Category.ofWord?

def StepKind.ofToml : Value → Except Cause StepKind := Value.asChoice "a step kind" StepKind.ofWord?

def Step.ofToml (v : Value) : Except Cause Step := do
  let field ← v.field?
  return {
    kind := ← Value.required "kind" StepKind.ofToml (field 0 "kind")
    name? := ← Value.optional Value.asString (field 1 "name")
    category := ← Value.optional Category.ofToml (field 2 "type")
    base := ← Value.optional Category.ofToml (field 3 "base_type")
    bounds := ← Value.optional Value.asPair (field 4 "bounds")
    line := ← Value.optional (Value.asNatural Limits.maxColumn) (field 5 "line")
    column := ← Value.optional (Value.asNatural Limits.maxColumn) (field 6 "column") }

def Step.listOfToml (items : List Value) : Except Cause (List Step) := items.mapM Step.ofToml

namespace Trace

def ofToml (v : Value) : Except Cause Trace := do
  let field ← v.field?
  let steps ← Value.optional (fun v => do Step.listOfToml (← v.asItems)) (field 1 "step")
  return { name? := ← Value.optional Value.asString (field 0 "name"), steps := steps.getD [] }

variable [Limits]

def ofText (text : String) : Except TraceError Trace :=
  match read ofToml text with
  | .error detail => .error (.malformed detail)
  | .ok t =>
    if t.steps.length > Limits.traceSteps then
      .error (.tooManySteps t.steps.length Limits.traceSteps)
    else
      match t.check with
      | .error e => .error e
      | .ok () => .ok t

end Trace

structure FileContent where
  size : Nat
  text : Except String String

variable [Limits]

namespace Trace

def ofFile (path : String) : Option FileContent → Except TraceError Trace
  | none => .error (.notFound path)
  | some file =>
    if file.size > Limits.traceBytes then .error (.tooLarge file.size Limits.traceBytes)
    else
      match file.text with
      | .error reason => .error (.unreadable path reason)
      | .ok text => ofText text

end Trace

def TraceError.event (path : String) (e : TraceError) : Event :=
  match e with
  | .notFound _ => (Event.error e.code "Trace file not found").noting "path" path
  | .tooLarge size max =>
    (((Event.error e.code "Trace file exceeds size limit").noting "path" path).noting
      "size_bytes" (toString size)).noting "max_size_bytes" (toString max)
  | .unreadable _ reason =>
    ((Event.error e.code "Failed to read trace file").noting "path" path).noting "io_error" reason
  | .malformed _ => (Event.error e.code "Trace is not valid TOML").noting "detail" e.message
  | .invalidStep _ _ =>
    (Event.error e.code "Trace contains an invalid step").noting "detail" e.message
  | .tooManySteps count max =>
    ((Event.error e.code "Trace exceeds the step limit").noting "steps" (toString count)).noting
      "max_steps" (toString max)

def Trace.fileEvents (path : String) (file : Option FileContent) :
    Except TraceError Trace → Array Event
  | .error e => #[(Event.debug "Loading trace").noting "path" path, e.event path]
  | .ok t =>
    let told := ((Event.milestone .traceLoaded "Trace loaded").noting "path" path).noting
      "name" t.name
    #[ (Event.debug "Loading trace").noting "path" path,
       (told.noting "steps" (toString t.steps.length)).noting
        "size_bytes" (toString ((file.map (·.size)).getD 0)) ]

end ScopeFrames
