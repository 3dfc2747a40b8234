import ScopeFrames.Toml.Value

namespace ScopeFrames.Toml.Value

def asString (v : Value) : Except Cause String :=
  match v with
  | .string s => .ok s
  | _ => .error (.expected "a string")

def asInteger (v : Value) : Except Cause Int64 :=
  match v with
  | .integer n => .ok n
  | _ => .error (.expected "an integer")

def asNatural (max : Nat) (v : Value) : Except Cause Nat := do
  let n ← v.asInteger
  if 0 ≤ n.toInt ∧ n.toInt ≤ max then return n.toInt.toNat
  else throw (.expected s!"an integer from 0 to {max}")

def asBoolean (v : Value) : Except Cause Bool :=
  match v with
  | .boolean b => .ok b
  | _ => .error (.expected "a boolean")

def asItems (v : Value) : Except Cause (List Value) :=
  match v with
  | .array items => .ok items
  | .tables elements => .ok (elements.reverse.map (.table .headed))
  | _ => .error (.expected "an array")

def isEmptyContainer : Value → Bool
  | .array items => items.isEmpty
  | .table _ entries => entries.isEmpty
  | .tables elements => elements.isEmpty
  | _ => false

/-- One of several words: a string, or the only key of a table with nothing under it. -/
def asChoice {α : Type} (kind : String) (ofWord? : String → Option α) (v : Value) :
    Except Cause α :=
  let word? := match v with
    | .string s => some s
    | .table _ [(key, inner)] => if inner.isEmptyContainer then some key else none
    | _ => none
  match word?.bind ofWord? with
  | some a => .ok a
  | none => .error (.expected kind)

def asPair (v : Value) : Except Cause (Int64 × Int64) := do
  match ← v.asItems with
  | a :: b :: _ => return (← a.asInteger, ← b.asInteger)
  | _ => throw (.expected "an array of two integers")

def field? (v : Value) : Except Cause (Nat → String → Option Value) :=
  match v with
  | .table _ entries => .ok fun _ name => (entries.find? (·.1 == name)).map (·.2)
  | v => do
    let items ← v.asItems
    return fun place _ => items[place]?

def optional {α : Type} (read : Value → Except Cause α) : Option Value → Except Cause (Option α)
  | none => .ok none
  | some v => (read v).map some

def required {α : Type} (name : String) (read : Value → Except Cause α) :
    Option Value → Except Cause α
  | none => .error (.missing name)
  | some v => read v

end ScopeFrames.Toml.Value
