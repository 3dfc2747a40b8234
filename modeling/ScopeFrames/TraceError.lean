import ScopeFrames.Code

namespace ScopeFrames

inductive TraceError : Type
  | notFound (path : String)
  | tooLarge (size max : Nat)
  | unreadable (path reason : String)
  | malformed (detail : String)
  | invalidStep (index : Nat) (reason : String)
  | tooManySteps (count max : Nat)
  deriving DecidableEq

namespace TraceError

def message : TraceError → String
  | .notFound path => s!"Trace file not found: {path}"
  | .tooLarge size max => s!"Trace file too large: {size} bytes (max: {max})"
  | .unreadable path reason => s!"I/O error reading trace {path}: {reason}"
  | .malformed detail => s!"Invalid trace TOML: {detail}"
  | .invalidStep index reason => s!"Invalid trace step {index}: {reason}"
  | .tooManySteps count max => s!"Trace has too many steps: {count} (max: {max})"

def code : TraceError → Code
  | .notFound .. => .traceNotFound
  | .tooLarge .. => .traceTooLarge
  | .unreadable .. => .traceUnreadable
  | .malformed .. => .traceMalformed
  | .invalidStep .. => .invalidStep
  | .tooManySteps .. => .tooManySteps

end TraceError

end ScopeFrames
