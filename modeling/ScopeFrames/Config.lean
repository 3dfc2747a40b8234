import ScopeFrames.Analysis
import ScopeFrames.Journal
import ScopeFrames.Toml

namespace ScopeFrames

open Toml

structure LogPreferences where
  structured : Bool := false
  console : Bool := true
  least : Level := .warning
  deriving DecidableEq

def LogPreferences.sink (p : LogPreferences) : Sink :=
  { format := if p.structured then some .json else if p.console then some .text else none
    least := p.least }

structure Config where
  layout : Policy := {}
  analysis : Preferences := {}
  logging : LogPreferences := {}
  deriving DecidableEq

namespace Environment

def integer? (text : String) : Option Int64 :=
  let (negative, digits) := match text.toList with
    | '-' :: rest => (true, rest)
    | '+' :: rest => (false, rest)
    | rest => (false, rest)
  if digits.isEmpty || !digits.all Char.isDigit then none
  else
    let n : Int := numeral 10 digits
    Word.ofInt? (if negative then -n else n)

def boolean? (text : String) : Option Bool :=
  match text with
  | "true" => some true
  | "false" => some false
  | _ => none

def unit? (text : String) : Option Int64 := (integer? text).filter (0 < ·)

end Environment

inductive Setting : Type
  | baseOffset
  | intUnit
  | booleanUnit
  | charUnit
  | warnOnShadowing
  | logTransitions
  | stopOnFirstError
  | structured
  | console
  | least
  deriving DecidableEq

namespace Setting

def name : Setting → String
  | .baseOffset => "SCOPETAB_LAYOUT_BASE_OFFSET"
  | .intUnit => "SCOPETAB_LAYOUT_INT_UNIT_SIZE"
  | .booleanUnit => "SCOPETAB_LAYOUT_BOOLEAN_UNIT_SIZE"
  | .charUnit => "SCOPETAB_LAYOUT_CHAR_UNIT_SIZE"
  | .warnOnShadowing => "SCOPETAB_ANALYSIS_WARN_ON_SHADOWING"
  | .logTransitions => "SCOPETAB_ANALYSIS_LOG_SCOPE_TRANSITIONS"
  | .stopOnFirstError => "SCOPETAB_ANALYSIS_STOP_ON_FIRST_ERROR"
  | .structured => "SCOPETAB_LOGGING_USE_STRUCTURED"
  | .console => "SCOPETAB_LOGGING_ENABLE_CONSOLE"
  | .least => "SCOPETAB_LOGGING_MIN_LEVEL"

def all : List Setting :=
  [.baseOffset, .intUnit, .booleanUnit, .charUnit, .warnOnShadowing, .logTransitions,
    .stopOnFirstError, .structured, .console, .least]

end Setting

/-- Takes what the environment sets and can be read, and the default for the rest. -/
def Config.ofEnvironment [Limits] (lookup : String → Option String) : Config :=
  let get {α : Type} (s : Setting) (read : String → Option α) (default : α) : α :=
    ((lookup s.name).bind read).getD default
  let base : Config := { layout := .standard }
  { layout :=
      { baseOffset := get .baseOffset Environment.integer? base.layout.baseOffset
        intUnit := get .intUnit Environment.unit? base.layout.intUnit
        booleanUnit := get .booleanUnit Environment.unit? base.layout.booleanUnit
        charUnit := get .charUnit Environment.unit? base.layout.charUnit }
    analysis :=
      { warnOnShadowing :=
          get .warnOnShadowing Environment.boolean? base.analysis.warnOnShadowing
        logTransitions := get .logTransitions Environment.boolean? base.analysis.logTransitions
        stopOnFirstError :=
          get .stopOnFirstError Environment.boolean? base.analysis.stopOnFirstError }
    logging :=
      { structured := get .structured Environment.boolean? base.logging.structured
        console := get .console Environment.boolean? base.logging.console
        least := get .least Level.ofText? base.logging.least } }

def Level.word : Level → String
  | .error => "Error"
  | .warning => "Warning"
  | .info => "Info"
  | .debug => "Debug"

def Level.ofWord? (w : String) : Option Level :=
  [Level.error, .warning, .info, .debug].find? (·.word = w)

theorem Level.ofWord?_word (l : Level) : ofWord? l.word = some l := by
  cases l <;> decide

def Policy.ofToml (v : Value) : Except Cause Policy := do
  let field ← v.field?
  let unit (place : Nat) (name : String) := Value.required name Value.asInteger (field place name)
  return {
    baseOffset := ← unit 0 "base_offset"
    intUnit := ← unit 1 "int_unit_size"
    booleanUnit := ← unit 2 "boolean_unit_size"
    charUnit := ← unit 3 "char_unit_size" }

def Preferences.ofToml (v : Value) : Except Cause Preferences := do
  let field ← v.field?
  let flag (place : Nat) (name : String) := Value.required name Value.asBoolean (field place name)
  return {
    warnOnShadowing := ← flag 0 "warn_on_shadowing"
    logTransitions := ← flag 1 "log_scope_transitions"
    stopOnFirstError := ← flag 2 "stop_on_first_error" }

def LogPreferences.ofToml (v : Value) : Except Cause LogPreferences := do
  let field ← v.field?
  let flag (place : Nat) (name : String) := Value.required name Value.asBoolean (field place name)
  return {
    structured := ← flag 0 "use_structured_logging"
    console := ← flag 1 "enable_console_logging"
    least := ← Value.required "min_log_level" (Value.asChoice "a log level" Level.ofWord?)
      (field 2 "min_log_level") }

def Config.ofToml (v : Value) : Except Cause Config := do
  let field ← v.field?
  return {
    layout := ← Value.required "layout" Policy.ofToml (field 0 "layout")
    analysis := ← Value.required "analysis" Preferences.ofToml (field 1 "analysis")
    logging := ← Value.required "logging" LogPreferences.ofToml (field 2 "logging") }

def Config.ofText (text : String) : Except String Config := Toml.read Config.ofToml text

end ScopeFrames
