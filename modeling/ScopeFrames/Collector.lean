import ScopeFrames.Event
import ScopeFrames.FilePath

namespace ScopeFrames

structure FileEvents where
  path : String
  events : Array Event := #[]
  deriving DecidableEq

variable [Limits]

namespace FileEvents

def overflowMessage : String :=
  s!"Event limit of {Limits.eventsPerFile} reached; later events dropped"

/-- Keeps the event while there is room; the first one without room leaves a warning. -/
def record (f : FileEvents) (e : Event) : FileEvents :=
  if f.events.size < Limits.eventsPerFile then { f with events := f.events.push e }
  else if f.events.size = Limits.eventsPerFile then
    { f with events := f.events.push (.warning .eventsDropped overflowMessage) }
  else f

def errors (f : FileEvents) : List Event := f.events.toList.filter (·.isError)
def warnings (f : FileEvents) : List Event := f.events.toList.filter (·.isWarning)

def describe (path kind : String) (e : Event) : String :=
  let place := match e.span with
    | some span => s!"  --> {path}:{span.start.text}\n"
    | none => ""
  let notes := (e.context.notes.filter fun (key, _) => key ≠ "file" && key ≠ "file_id").map
    fun (key, value) => s!"  = {key}: {value}\n"
  let help :=
    if e.isError && e.code.action ≠ Code.noAction then s!"  = help: {e.code.action}\n" else ""
  s!"{kind}[{e.code.text}]: {e.message}\n" ++ place ++ String.join notes ++ help

def section? (f : FileEvents) : Option String :=
  if f.errors.isEmpty && f.warnings.isEmpty then none
  else some <| s!"Checking {f.path}...\n"
    ++ String.join (f.errors.map (describe f.path "error"))
    ++ String.join (f.warnings.map (describe f.path "warning"))
    ++ "\n"

end FileEvents

structure Totals where
  files : Nat
  failedFiles : Nat
  errors : Nat
  warnings : Nat
  deriving DecidableEq

def Totals.hasErrors (t : Totals) : Bool := 0 < t.errors

structure Collector where
  files : List FileEvents := []
  deriving DecidableEq

namespace Collector

def update (path : String) (f : FileEvents → FileEvents) : List FileEvents → List FileEvents
  | [] => [f { path }]
  | file :: rest =>
    match FilePath.order path file.path with
    | .lt => f { path } :: file :: rest
    | .eq => f file :: rest
    | .gt => file :: update path f rest

def mention (c : Collector) (path : String) : Collector := ⟨update path id c.files⟩

def record (c : Collector) (path : String) (e : Event) : Collector :=
  ⟨update path (·.record e) c.files⟩

def totals (c : Collector) : Totals :=
  { files := c.files.length
    failedFiles := c.files.countP (!·.errors.isEmpty)
    errors := c.files.foldl (· + ·.errors.length) 0
    warnings := c.files.foldl (· + ·.warnings.length) 0 }

def report (c : Collector) : String :=
  let totals := c.totals
  let errors := if 0 < totals.errors then s!"Total errors: {totals.errors}\n" else ""
  let warnings := if 0 < totals.warnings then s!"Total warnings: {totals.warnings}\n" else ""
  String.join (c.files.filterMap (·.section?)) ++ errors ++ warnings

end Collector

end ScopeFrames
