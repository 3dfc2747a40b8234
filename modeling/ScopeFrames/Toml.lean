import ScopeFrames.Toml.Reader
import ScopeFrames.Toml.Shape

namespace ScopeFrames.Toml

def place (read : List Char) : Nat × Nat :=
  (read.count '\n' + 1, (read.reverse.takeWhile (· ≠ '\n')).length + 1)

def Fault.message (f : Fault) (text : List Char) : String :=
  let (line, column) := place (text.take (text.length - f.left))
  s!"{f.cause.message} at line {line}, column {column}"

def read {α : Type} (shape : Value → Except Cause α) (text : String) : Except String α :=
  let chars := text.toList
  match document chars with
  | .error fault => .error (fault.message chars)
  | .ok entries =>
    match shape (.table .headed entries) with
    | .error cause => .error cause.message
    | .ok a => .ok a

end ScopeFrames.Toml
