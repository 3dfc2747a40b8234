import ScopeFrames.Toml.Value

namespace ScopeFrames.Toml

abbrev Entries := List (String × Value)

namespace Entries

def find? (key : String) (es : Entries) : Option Value := (List.find? (·.1 == key) es).map (·.2)

def replace (key : String) (v : Value) (es : Entries) : Entries :=
  es.map fun e => if e.1 == key then (key, v) else e

def remove (key : String) (es : Entries) : Entries := es.filter (·.1 != key)

/-- Goes down a path of keys and changes the table at its end.  What is missing on the way comes
into being.  Dotted keys do not lead into a table that has a header. -/
def descend {α : Type} (dotted : Bool) (change : Form → Entries → Except Cause (α × Entries)) :
    List String → Form → Entries → Except Cause (α × Entries)
  | [], form, es => change form es
  | key :: path, _, es =>
    match find? key es with
    | none =>
      let form := if dotted then Form.dotted else Form.implied
      match descend dotted change path form [] with
      | .error e => .error e
      | .ok (a, inner) => .ok (a, (key, .table form inner) :: es)
    | some (.table form inner) =>
      if form = .inline || (dotted && form = .headed) then .error (.duplicateKey key)
      else
        match descend dotted change path form inner with
        | .error e => .error e
        | .ok (a, inner) => .ok (a, replace key (.table form inner) es)
    | some (.tables (last :: earlier)) =>
      match descend dotted change path .headed last with
      | .error e => .error e
      | .ok (a, last) => .ok (a, replace key (.tables (last :: earlier)) es)
    | some _ => .error (.notATable key)

def set (path : List String) (key : String) (v : Value) (form : Form) (es : Entries) :
    Except Cause Entries :=
  let change (form : Form) (es : Entries) : Except Cause (Unit × Entries) :=
    if !path.isEmpty && form ≠ .dotted then .error (.duplicateKey key)
    else if (find? key es).isSome then .error (.duplicateKey key)
    else .ok ((), (key, v) :: es)
  (descend true change path form es).map (·.2)

end Entries

structure Draft where
  complete : Entries := []
  path : List String := []
  repeated : Bool := false
  current : Entries := []

namespace Draft

def set (d : Draft) (path : List String) (key : String) (v : Value) : Except Cause Draft :=
  (d.current.set path key v .headed).map fun es => { d with current := es }

def finish (d : Draft) : Except Cause Entries :=
  match d.path.reverse with
  | [] => .ok d.current
  | key :: above =>
    let change (_ : Form) (es : Entries) : Except Cause (Unit × Entries) :=
      match es.find? key, d.repeated with
      | none, true => .ok ((), (key, .tables [d.current]) :: es)
      | some (.tables elements), true => .ok ((), es.replace key (.tables (d.current :: elements)))
      | none, false => .ok ((), (key, .table .headed d.current) :: es)
      | _, _ => .error (.duplicateKey key)
    (Entries.descend false change above.reverse .headed d.complete).map (·.2)

/-- Begins a table under a header.  It may have been implied before, but not described. -/
def beginTable (d : Draft) (above : List String) (key : String) : Except Cause Draft := do
  let complete ← d.finish
  let change (_ : Form) (es : Entries) : Except Cause (Entries × Entries) :=
    match es.find? key with
    | none => .ok ([], es)
    | some (.table .implied inner) => .ok (inner, es.remove key)
    | some _ => .error (.duplicateKey key)
  let (current, complete) ← Entries.descend false change above .headed complete
  return { complete, path := above ++ [key], repeated := false, current }

def beginElement (d : Draft) (above : List String) (key : String) : Except Cause Draft := do
  let complete ← d.finish
  let change (_ : Form) (es : Entries) : Except Cause (Unit × Entries) :=
    match es.find? key with
    | none => .ok ((), (key, .tables []) :: es)
    | some (.tables _) => .ok ((), es)
    | some _ => .error (.duplicateKey key)
  let (_, complete) ← Entries.descend false change above .headed complete
  return { complete, path := above ++ [key], repeated := true, current := [] }

end Draft

end ScopeFrames.Toml
