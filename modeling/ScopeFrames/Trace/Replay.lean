import ScopeFrames.Analysis
import ScopeFrames.Calendar
import ScopeFrames.Trace

namespace ScopeFrames

variable [Limits]

def Analysis.take (a : Analysis) (s : Step) : Analysis :=
  match s.kind with
  | .program => (a.beginProgram s.name s.span).2
  | .procedure => (a.beginProcedure s.name s.span).2
  | .block => (a.beginBlock s.span).2
  | .close => if a.atProgram then (a.endProgram s.span).2 else (a.endScope s.span).2
  | .declare =>
    match s.declaration? with
    | some d => (a.declare d s.span).2
    | none => a
  | .resolve => (a.resolve s.name s.span).2

structure Run where
  executed : Nat := 0
  analysis : Analysis
  deriving DecidableEq

namespace Run

def announce (r : Run) (s : Step) : Analysis :=
  r.analysis.note <| ((Event.debug "Replaying step").noting "index" (toString r.executed)).noting
    "kind" s.kind.word

def through : List Step → Run → Run
  | [], r => r
  | s :: rest, r =>
    if r.analysis.halted then r
    else through rest { executed := r.executed + 1, analysis := (r.announce s).take s }

/-- The same with overflow checks, which stop it in a step that has no span. -/
def checked : List Step → Run → Except Run Run
  | [], r => .ok r
  | s :: rest, r =>
    if r.analysis.halted then .ok r
    else if s.span?.isNone then .error { r with analysis := r.announce s }
    else checked rest { executed := r.executed + 1, analysis := (r.announce s).take s }

end Run

namespace Trace

def run (t : Trace) (policy : Policy) (preferences : Preferences) : Run :=
  Run.through t.steps { analysis := .start policy preferences }

def checked (t : Trace) (policy : Policy) (preferences : Preferences) : Except Run Run :=
  Run.checked t.steps { analysis := .start policy preferences }

def overflows (t : Trace) (r : Run) : Bool := (t.steps.take r.executed).any (·.span?.isNone)

end Trace

structure Replay where
  source : String
  total : Nat
  executed : Nat
  halted : Bool
  openScopes : Nat
  report : Report
  deriving DecidableEq

namespace Replay

def of (t : Trace) (r : Run) : Replay :=
  { source := t.name
    total := t.steps.length
    executed := r.executed
    halted := r.analysis.halted
    openScopes := r.analysis.opened.length
    report := r.analysis.summarize }

def isClean (r : Replay) : Bool := !r.report.hasErrors && !r.halted && r.openScopes == 0

def milestone (r : Replay) (t : Trace) : Event :=
  let told := (Event.milestone .replayComplete "Trace replay complete").noting "trace" t.name
  (((told.noting "steps" (toString r.executed)).noting
    "scopes" (toString r.report.scopes.length)).noting
    "errors" (toString r.report.errorCount)).noting
    "warnings" (toString r.report.warningCount)

def text (r : Replay) (time : String) : String :=
  let heading := s!"Trace {r.source} ({r.executed} of {r.total} steps replayed, {time})\n"
  let scopes := r.report.scopes.map fun s => "\n" ++ s.listing
  let problems := r.report.diagnostics.map fun d => d.text ++ "\n"
  let gap := if problems.isEmpty then "" else "\n"
  let opened := if 0 < r.openScopes then s!"note: {r.openScopes} scope(s) left open\n" else ""
  let halted := if r.halted then "note: replay halted on first error\n" else ""
  heading ++ String.join scopes ++ gap ++ String.join problems ++ opened ++ halted
    ++ r.report.summary

end Replay

def Trace.replay (t : Trace) (policy : Policy) (preferences : Preferences) : Replay :=
  .of t (t.run policy preferences)

end ScopeFrames
