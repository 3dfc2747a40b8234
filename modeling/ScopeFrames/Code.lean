namespace ScopeFrames

structure Code where
  text : String
  deriving DecidableEq

inductive Severity : Type
  | critical
  | high
  | medium
  | low
  deriving DecidableEq

def Severity.text : Severity → String
  | .critical => "Critical"
  | .high => "High"
  | .medium => "Medium"
  | .low => "Low"

def Severity.rank : Severity → Nat
  | .critical => 0
  | .high => 1
  | .medium => 2
  | .low => 3

structure Registration where
  code : Code
  category : String
  severity : Severity
  halts : Bool
  description : String
  action : String

namespace Code

def internalFault : Code := ⟨"ERR001"⟩
def initializationFault : Code := ⟨"ERR002"⟩

def traceNotFound : Code := ⟨"E005"⟩
def traceTooLarge : Code := ⟨"E007"⟩
def traceUnreadable : Code := ⟨"E011"⟩
def traceMalformed : Code := ⟨"E012"⟩
def invalidStep : Code := ⟨"E013"⟩
def tooManySteps : Code := ⟨"E014"⟩

def duplicateName : Code := ⟨"E090"⟩
def unknownName : Code := ⟨"E091"⟩
def emptyStack : Code := ⟨"E092"⟩
def invalidScopeOwner : Code := ⟨"E093"⟩
def limitExceeded : Code := ⟨"E094"⟩
def invalidBounds : Code := ⟨"E095"⟩

def undeclared : Code := ⟨"E110"⟩
def shadowed : Code := ⟨"W110"⟩

def incompleteEntry : Code := ⟨"E120"⟩
def layoutOverflow : Code := ⟨"E121"⟩

def initialized : Code := ⟨"I004"⟩
def traceLoaded : Code := ⟨"I006"⟩
def scopeClosed : Code := ⟨"I050"⟩
def programClosed : Code := ⟨"I051"⟩
def replayComplete : Code := ⟨"I060"⟩

def debug : Code := ⟨"D000"⟩

def eventsDropped : Code := ⟨"W000"⟩

def register : List Registration :=
  [ ⟨internalFault, "System", .critical, true, "Critical internal system error",
      "File a bug report with the failing trace"⟩,
    ⟨initializationFault, "System", .critical, true, "System initialization failure",
      "Check configuration and environment variables"⟩,
    ⟨traceNotFound, "Trace", .medium, true, "Declaration trace file not found",
      "Check the trace path"⟩,
    ⟨traceTooLarge, "Trace", .medium, true, "Declaration trace exceeds maximum size",
      "Split the trace or raise max_trace_file_size"⟩,
    ⟨traceUnreadable, "Trace", .medium, true, "I/O error while reading declaration trace",
      "Check file permissions and disk state"⟩,
    ⟨traceMalformed, "Trace", .medium, true, "Declaration trace is not valid TOML",
      "Fix the TOML syntax reported in the message"⟩,
    ⟨invalidStep, "Trace", .medium, true, "Declaration trace step is malformed",
      "Supply the fields required by the step kind"⟩,
    ⟨tooManySteps, "Trace", .medium, true, "Declaration trace has too many steps",
      "Split the trace or raise max_trace_steps"⟩,
    ⟨duplicateName, "SymbolTable", .medium, false, "Identifier redeclared in the same scope",
      "Rename one of the declarations"⟩,
    ⟨unknownName, "SymbolTable", .medium, false, "Identifier not present in the targeted scope",
      "Declare the identifier before updating it"⟩,
    ⟨emptyStack, "SymbolTable", .high, true, "No poppable scope on the scope stack",
      "Balance scope entry and exit; close the program scope with finish"⟩,
    ⟨invalidScopeOwner, "SymbolTable", .high, false,
      "Scope owner is missing or not a procedure or program",
      "Declare the procedure before entering its scope"⟩,
    ⟨limitExceeded, "SymbolTable", .high, true, "Compile-time symbol table limit exceeded",
      "Reduce nesting or declarations, or rebuild with a larger profile"⟩,
    ⟨invalidBounds, "SymbolTable", .medium, false, "Array start index exceeds end index",
      "Swap or correct the array bounds"⟩,
    ⟨undeclared, "Analysis", .medium, false, "Reference to an undeclared identifier",
      "Declare the identifier in this or an enclosing scope"⟩,
    ⟨shadowed, "Analysis", .low, false, "Declaration hides one in an enclosing scope",
      "Rename the inner declaration if the hiding is unintended"⟩,
    ⟨incompleteEntry, "Layout", .high, false,
      "Entry lacks the size information needed for frame layout",
      "Give arrays resolved bounds and a scalar base type"⟩,
    ⟨layoutOverflow, "Layout", .high, true, "Frame offset arithmetic overflowed",
      "Reduce array sizes or unit sizes"⟩,
    ⟨initialized, "System", .low, false, "System initialization completed", "Continue"⟩,
    ⟨traceLoaded, "Trace", .low, false, "Declaration trace loaded", "Continue to replay"⟩,
    ⟨scopeClosed, "Layout", .low, false, "Scope closed and frame laid out", "Continue"⟩,
    ⟨programClosed, "Layout", .low, false, "Program scope closed and frame laid out", "Continue"⟩,
    ⟨replayComplete, "Trace", .low, false, "Declaration trace replay completed",
      "Review the reported scopes"⟩ ]

def registration? (c : Code) : Option Registration :=
  register.find? (·.code = c)

def category (c : Code) : String := (c.registration?.map (·.category)).getD "Unknown"

def severity (c : Code) : Severity := (c.registration?.map (·.severity)).getD .medium

def halts (c : Code) : Bool := (c.registration?.map (·.halts)).getD false

def description (c : Code) : String := (c.registration?.map (·.description)).getD "Unknown error"

def noAction : String := "No specific action available"

def action (c : Code) : String := (c.registration?.map (·.action)).getD noAction

end Code

end ScopeFrames
