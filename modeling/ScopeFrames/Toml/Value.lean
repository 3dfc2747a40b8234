import ScopeFrames.Word

namespace ScopeFrames.Toml

/-- How a table came to be, which decides what may still be added to it. -/
inductive Form : Type
  | inline
  | dotted
  | implied
  | headed
  deriving DecidableEq

inductive Value : Type
  | string (s : String)
  | integer (n : Int64)
  | float
  | boolean (b : Bool)
  | time
  | array (items : List Value)
  | table (form : Form) (entries : List (String × Value))
  | tables (elements : List (List (String × Value)))

inductive Cause : Type
  | lineEnd
  | unclosedString
  | badEscape
  | badKey
  | missingEquals
  | badValue
  | badNumber
  | numberRange
  | unclosedArray
  | unclosedTable
  | unclosedHeader
  | tooDeep
  | duplicateKey (key : String)
  | notATable (key : String)
  | missing (field : String)
  | expected (kind : String)
  deriving DecidableEq

namespace Cause

def message : Cause → String
  | .lineEnd => "expected the end of the line"
  | .unclosedString => "string is not closed or has a control character"
  | .badEscape => "unknown escape sequence"
  | .badKey => "expected a key"
  | .missingEquals => "expected an equals sign after the key"
  | .badValue => "expected a value"
  | .badNumber => "malformed number"
  | .numberRange => "number out of range"
  | .unclosedArray => "array is not closed"
  | .unclosedTable => "inline table is not closed"
  | .unclosedHeader => "table header is not closed"
  | .tooDeep => "nested too deeply"
  | .duplicateKey key => s!"duplicate key '{key}'"
  | .notATable key => s!"'{key}' is not a table that can be extended"
  | .missing field => s!"missing field '{field}'"
  | .expected kind => s!"expected {kind}"

end Cause

structure Fault where
  cause : Cause
  left : Nat
  deriving DecidableEq

def refuse {α : Type} (cause : Cause) (left : List Char) : Except Fault α :=
  .error ⟨cause, left.length⟩

end ScopeFrames.Toml
