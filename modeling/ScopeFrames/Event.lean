import ScopeFrames.Code
import ScopeFrames.Context
import ScopeFrames.Json
import ScopeFrames.Span

namespace ScopeFrames

inductive Level : Type
  | error
  | warning
  | info
  | debug
  deriving DecidableEq

namespace Level

def text : Level → String
  | .error => "ERROR"
  | .warning => "WARN"
  | .info => "INFO"
  | .debug => "DEBUG"

def rank : Level → Nat
  | .error => 0
  | .warning => 1
  | .info => 2
  | .debug => 3

def admits (least l : Level) : Bool := l.rank ≤ least.rank

/-- Reads a level by name or rank.  Case does not matter; outside ASCII no letter has one of these
names' letters as its lower case. -/
def ofText? (s : String) : Option Level :=
  match s.toLower with
  | "error" | "0" => some .error
  | "warning" | "warn" | "1" => some .warning
  | "info" | "2" => some .info
  | "debug" | "3" => some .debug
  | _ => none

end Level

structure Event where
  level : Level
  code : Code
  message : String
  span : Option Span := none
  context : Context := {}
  deriving DecidableEq

namespace Event

def boundaryBefore (s : String) : Nat → s.Pos
  | 0 => s.startPos
  | n + 1 => (s.pos? ⟨n + 1⟩).getD (boundaryBefore s n)

variable [Limits]

def clip (message : String) : String :=
  if message.utf8ByteSize ≤ Limits.messageBytes then message
  else (message.sliceTo (boundaryBefore message Limits.messageBytes)).copy

def ofLevel (level : Level) (code : Code) (message : String) : Event :=
  { level, code, message := clip message }

def error (code : Code) (message : String) : Event := .ofLevel .error code message
def warning (code : Code) (message : String) : Event := .ofLevel .warning code message

def milestone (code : Code) (message : String) : Event := .ofLevel .info code message

def debug (message : String) : Event := .ofLevel .debug .debug message

def placed (e : Event) (span : Span) : Event := { e with span := some span }

def noting (e : Event) (key value : String) : Event :=
  { e with context := e.context.insert key value }

def isError (e : Event) : Bool := e.level = .error
def isWarning (e : Event) : Bool := e.level = .warning

def text (e : Event) : String :=
  let place := match e.span with
    | some span => s!" at {span.start.text}"
    | none => ""
  s!"[{e.level.text}] {e.code.text} - {e.message}{place}"

def json (e : Event) (timestamp : String) : Json :=
  let context := if e.context.notes.isEmpty then [] else
    [("context", Json.object (e.context.notes.map fun (key, value) => (key, .string value)))]
  let span := match e.span with
    | none => []
    | some s =>
      [("span", Json.object
        [ ("column", .number s.start.column), ("end_column", .number s.stop.column),
          ("end_line", .number s.stop.line), ("line", .number s.start.line) ])]
  .object <|
    [("category", .string e.code.category), ("code", .string e.code.text)]
      ++ context
      ++ [ ("level", .string e.level.text), ("message", .string e.message),
           ("severity", .string e.code.severity.text) ]
      ++ span
      ++ [("timestamp", .string timestamp)]

def line (e : Event) (timestamp : String) : String := (e.json timestamp).render

end Event

end ScopeFrames
