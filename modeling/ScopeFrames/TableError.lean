import ScopeFrames.Code
import ScopeFrames.Word

namespace ScopeFrames

inductive TableError : Type
  | duplicateName (name : String) (level : Nat)
  | unknownName (name : String) (level : Nat)
  | emptyStack (operation : String) (live : Nat)
  | incompleteEntry (name reason : String)
  | invalidBounds (start stop : Int64)
  | invalidScopeOwner (name reason : String)
  | limitExceeded (limit : String) (value max : Nat)
  | layoutOverflow (name : String)
  deriving DecidableEq

namespace TableError

def message : TableError → String
  | .duplicateName name level => s!"Name '{name}' is already declared at scope level {level}"
  | .unknownName name level => s!"Name '{name}' is not declared at scope level {level}"
  | .emptyStack operation live => s!"Cannot {operation} with {live} live scope(s)"
  | .incompleteEntry name reason => s!"Entry '{name}' cannot be laid out: {reason}"
  | .invalidBounds start stop =>
    s!"Invalid array bounds [{Word.text start}..{Word.text stop}]: start index exceeds end index"
  | .invalidScopeOwner name reason => s!"'{name}' cannot own a scope: {reason}"
  | .limitExceeded limit value max => s!"{limit} limit exceeded: {value} > {max}"
  | .layoutOverflow name => s!"Frame offset overflow while laying out '{name}'"

def code : TableError → Code
  | .duplicateName .. => .duplicateName
  | .unknownName .. => .unknownName
  | .emptyStack .. => .emptyStack
  | .incompleteEntry .. => .incompleteEntry
  | .invalidBounds .. => .invalidBounds
  | .invalidScopeOwner .. => .invalidScopeOwner
  | .limitExceeded .. => .limitExceeded
  | .layoutOverflow .. => .layoutOverflow

def name? : TableError → Option String
  | .duplicateName name _ | .unknownName name _ | .incompleteEntry name _
  | .invalidScopeOwner name _ | .layoutOverflow name => some name
  | .emptyStack .. | .invalidBounds .. | .limitExceeded .. => none

def halts (e : TableError) : Bool := e.code.halts

end TableError

end ScopeFrames
