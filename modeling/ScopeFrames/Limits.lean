import ScopeFrames.Word

namespace ScopeFrames

/-- The limits that a build lays down, within those that hold for every build. -/
class Limits where
  source : String
  scopeDepth : Nat
  entriesPerScope : Nat
  identifierBytes : Nat
  firstLabel : Nat
  baseOffset : Int64
  intUnit : Int64
  booleanUnit : Int64
  charUnit : Int64
  traceBytes : Nat
  traceSteps : Nat
  logBuffer : Nat
  eventsPerFile : Nat
  messageBytes : Nat
  scopeDepth_ge : 2 ≤ scopeDepth := by decide
  scopeDepth_le : scopeDepth ≤ 4096 := by decide
  entriesPerScope_pos : 0 < entriesPerScope := by decide
  identifierBytes_pos : 0 < identifierBytes := by decide
  units_pos : 0 < intUnit ∧ 0 < booleanUnit ∧ 0 < charUnit := by decide
  traceBytes_le : traceBytes ≤ 100000000 := by decide
  eventsPerFile_le : eventsPerFile ≤ logBuffer := by decide
  labels_suffice : firstLabel + traceSteps ≤ 4294967295 := by decide

namespace Limits

instance development : Limits where
  source := "Generated from config/development.toml"
  scopeDepth := 256
  entriesPerScope := 10000
  identifierBytes := 255
  firstLabel := 1
  baseOffset := 0
  intUnit := 1
  booleanUnit := 1
  charUnit := 1
  traceBytes := 10485760
  traceSteps := 100000
  logBuffer := 10000
  eventsPerFile := 1000
  messageBytes := 10000

@[reducible] def production : Limits where
  source := "Generated from config/production.toml"
  scopeDepth := 128
  entriesPerScope := 5000
  identifierBytes := 128
  firstLabel := 1
  baseOffset := 0
  intUnit := 1
  booleanUnit := 1
  charUnit := 1
  traceBytes := 1048576
  traceSteps := 50000
  logBuffer := 5000
  eventsPerFile := 500
  messageBytes := 4000

def maxLabel : Nat := 4294967295

def maxColumn : Nat := 4294967295

section

variable [Limits]

theorem scopeDepth_pos : 0 < scopeDepth :=
  Nat.lt_of_lt_of_le Nat.zero_lt_two scopeDepth_ge

theorem firstLabel_le : firstLabel ≤ maxLabel :=
  Nat.le_of_add_right_le labels_suffice

def listing : List String :=
  [ s!"Source: {source}",
    s!"Max scope depth: {scopeDepth}",
    s!"Max entries per scope: {entriesPerScope}",
    s!"Max identifier length: {identifierBytes}",
    s!"First label: {firstLabel}",
    s!"Layout: base {Word.text baseOffset}, int {Word.text intUnit}, "
      ++ s!"boolean {Word.text booleanUnit}, char {Word.text charUnit}",
    s!"Trace: max {traceBytes} bytes, max {traceSteps} steps",
    s!"Logging: buffer {logBuffer}, per-file {eventsPerFile}" ]

def report : String := "\n".intercalate listing

end

end Limits

end ScopeFrames
