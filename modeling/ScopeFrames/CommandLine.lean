import ScopeFrames.Config
import ScopeFrames.Trace.Reader
import ScopeFrames.Trace.Replay

namespace ScopeFrames

structure Transcript where
  exit : Nat := 0
  output : String := ""
  errors : String := ""
  deriving DecidableEq

structure Clock where
  report : String
  event : String

structure Surroundings where
  clock : Clock
  environment? : String → Option String
  file? : String → Option FileContent

namespace CommandLine

variable [Limits]

def version : String := "0.1.0"

def usage (program : String) : String :=
  s!"Usage: {program} <trace.toml> [options]\n       {program} --help\n"

def help (program : String) : String :=
  let limits := Limits.listing.map fun line => s!"    {line}\n"
  s!"scopetab v{version}\n"
    ++ "Replay a declaration trace through the nested-scope symbol table\n"
    ++ "\n"
    ++ "USAGE:\n"
    ++ s!"    {program} <trace.toml> [options]\n"
    ++ "\n"
    ++ "ARGUMENTS:\n"
    ++ "    <trace.toml>    Declaration trace: [[step]] tables with kind = program,\n"
    ++ "                    procedure, block, end, declare or resolve\n"
    ++ "\n"
    ++ "OPTIONS:\n"
    ++ "    --help          Show this help message\n"
    ++ "    --quiet         Suppress console log output\n"
    ++ "    --json-logs     Emit log events as JSON lines\n"
    ++ "\n"
    ++ "OUTPUT:\n"
    ++ "    Every closed scope with its entries, offsets and frame size\n"
    ++ "    Cargo-style diagnostics; exit status 1 if any error was reported\n"
    ++ "\n"
    ++ "LIMITS:\n"
    ++ String.join limits

def unknown (options : List String) : List String :=
  options.filter fun o => o ≠ "--quiet" && o ≠ "--json-logs"

def configure (config : Config) (options : List String) : Config :=
  let logging := config.logging
  { config with logging :=
    { logging with
      console := logging.console && !options.contains "--quiet"
      structured := logging.structured || options.contains "--json-logs" } }

def eventLine (format : LineFormat) (time : String) (e : Event) : String :=
  match format with
  | .text => e.text
  | .json => e.line time

def written (j : Journal) (time : String) (errors : Bool) : String :=
  match j.sink.format with
  | none => ""
  | some format =>
    let events := j.written.toList.filter (·.isError = errors)
    String.join (events.map fun e => eventLine format time e ++ "\n")

def failure (e : TraceError) : String :=
  s!"\nFAILED: {e.message}\n  Code: {e.code.text} ({e.code.description})\n  Help: {e.code.action}\n"

def replayFile (path : String) (file : Option FileContent) (config : Config) (j : Journal) :
    Except TraceError (Trace × Run) × Journal :=
  j.within ⟨path, 0⟩ fun j =>
    let loaded := Trace.ofFile path file
    let j := j.emitAll (Trace.fileEvents path file loaded)
    match loaded with
    | .error e => (.error e, j)
    | .ok t =>
      let run := t.run config.layout config.analysis
      (.ok (t, run), (j.emitAll run.analysis.events).emit ((Replay.of t run).milestone t))

def replay (s : Surroundings) (path : String) (options : List String) : Transcript :=
  let config := configure (.ofEnvironment s.environment?) options
  let warnings := String.join <|
    (unknown options).map fun o => s!"Warning: Unknown option '{o}'\n"
  let journal : Journal := { sink := config.logging.sink }
  let journal := journal.emit (.milestone .initialized "Logging initialized")
  let (result, journal) := replayFile path (s.file? path) config journal
  let output := written journal s.clock.event false
  let errors := warnings ++ written journal s.clock.event true
  match result with
  | .error e => { exit := 1, output, errors := errors ++ failure e }
  | .ok (t, run) =>
    let replay := { Replay.of t run with source := path }
    let totals := journal.collector.totals
    let problems :=
      if totals.hasErrors || 0 < totals.warnings then s!"\n{journal.collector.report}\n" else ""
    { exit := if replay.report.hasErrors then 1 else 0
      output := output ++ replay.text s.clock.report ++ "\n" ++ problems
      errors }

def run (s : Surroundings) (program : String) : List String → Transcript
  | [] => { exit := 1, errors := usage program }
  | "--help" :: _ => { output := help program }
  | path :: options => replay s path options

end CommandLine

end ScopeFrames
