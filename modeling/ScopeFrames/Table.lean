import ScopeFrames.Scope

/-!
The table: a stack of live scopes, innermost first.  The outermost one is the program's; closing
a scope lays its frame out and writes the frame size to the entry that owns it.

Every operation answers with its outcome and the table it leaves behind, also when it fails.
-/

namespace ScopeFrames

variable [Limits]

structure Table where
  policy : Policy := {}
  scopes : List Scope := []
  nextLabel : Nat := Limits.firstLabel
  nextId : Nat := 0
  deriving DecidableEq

namespace Table

def depth (t : Table) : Nat := t.scopes.length

def level? (t : Table) : Option Nat :=
  match t.scopes with
  | [] => none
  | _ :: outer => some outer.length

def current? (t : Table) : Option Scope := t.scopes.head?

def outermostFirst (t : Table) : List Scope := t.scopes.reverse

def entryCount (t : Table) : Nat := t.scopes.foldl (· + ·.size) 0

def isEmpty (t : Table) : Bool := t.scopes.isEmpty

def push (t : Table) (owner : Option String) : Except TableError ScopeId × Table :=
  let requested := t.depth + 1
  if requested > Limits.scopeDepth then
    (.error (.limitExceeded "scope depth" requested Limits.scopeDepth), t)
  else
    let id : ScopeId := ⟨t.nextId⟩
    (.ok id, { t with
      scopes := { id, level := t.depth, owner } :: t.scopes
      nextId := t.nextId + 1 })

def enter (t : Table) : Except TableError ScopeId × Table := t.push none

/-- Opens the scope of a procedure declared in the innermost scope and not closed before. -/
def enterProcedure (t : Table) (owner : String) : Except TableError ScopeId × Table :=
  match t.scopes with
  | [] => (.error (.emptyStack "enter a procedure scope" 0), t)
  | top :: _ =>
    match top.find? owner with
    | none => (.error (.invalidScopeOwner owner "not declared in the current scope"), t)
    | some e =>
      if !e.category.ownsFrame then
        (.error (.invalidScopeOwner owner s!"a {e.category.text} does not own a frame"), t)
      else if e.frameSize.isSome then
        (.error (.invalidScopeOwner owner "its scope was already closed"), t)
      else
        t.push (some owner)

def exit (t : Table) : Except TableError ClosedScope × Table :=
  match t.scopes with
  | top :: outer :: rest =>
    match t.policy.layout top.entries.toList with
    | .error e => (.error e, t)
    | .ok frame =>
      match outer.frameRefusal? top.owner with
      | some e => (.error e, t)
      | none =>
        let popped := { t with scopes := outer :: rest }
        match top.setOffsets frame.offsets with
        | .error e => (.error e, popped)
        | .ok placed =>
          match outer.setOwnerFrame frame.frameSize top.owner with
          | .error e => (.error e, popped)
          | .ok outer =>
            (.ok (.ofScope placed top.owner frame.frameSize), { t with scopes := outer :: rest })
  | _ => (.error (.emptyStack "exit a nested scope" t.depth), t)

def finish (t : Table) : Except TableError ClosedScope × Table :=
  match t.scopes with
  | [program] =>
    match t.policy.layout program.entries.toList with
    | .error e => (.error e, t)
    | .ok frame =>
      match program.programEntry?.filter (·.frameSize.isSome) with
      | some e => (.error (.invalidScopeOwner e.name "owner entry cannot take a frame size"), t)
      | none =>
        let owner := program.programEntry?.map (·.name)
        let popped := { t with scopes := [] }
        match program.setOffsets frame.offsets with
        | .error e => (.error e, popped)
        | .ok placed =>
          match placed.setOwnerFrame frame.frameSize owner with
          | .error e => (.error e, popped)
          | .ok sized => (.ok (.ofScope sized owner frame.frameSize), popped)
  | _ => (.error (.emptyStack "finish the program" t.depth), t)

def abandon (t : Table) : Except TableError Scope × Table :=
  match t.scopes with
  | top :: outer :: rest => (.ok top, { t with scopes := outer :: rest })
  | _ => (.error (.emptyStack "abandon a nested scope" t.depth), t)

def labelled (e : Entry) (next : Nat) : Except TableError (Entry × Nat) :=
  if e.category.ownsFrame && e.label.isNone then
    if next < Limits.maxLabel then .ok (e.withLabel ⟨next⟩, next + 1)
    else .error (.limitExceeded "label" Limits.maxLabel Limits.maxLabel)
  else
    .ok (e, next)

/-- Declares an entry in the innermost scope.  The label counter moves on only if it lands. -/
def declare (t : Table) (e : Entry) : Except TableError Unit × Table :=
  if e.name.utf8ByteSize > Limits.identifierBytes then
    (.error (.limitExceeded "identifier length" e.name.utf8ByteSize Limits.identifierBytes), t)
  else
    match t.scopes with
    | [] => (.error (.emptyStack "declare" 0), t)
    | top :: outer =>
      if top.declares e.name then
        (.error (.duplicateName e.name top.level), t)
      else if top.size ≥ Limits.entriesPerScope then
        (.error (.limitExceeded "entries per scope" (top.size + 1) Limits.entriesPerScope), t)
      else
        match labelled e t.nextLabel with
        | .error err => (.error err, t)
        | .ok (e, next) =>
          match top.add e with
          | .error err => (.error err, t)
          | .ok top => (.ok (), { t with scopes := top :: outer, nextLabel := next })

def lookup? (t : Table) (name : String) : Option (Entry × Nat) :=
  t.scopes.findSome? fun s => (s.find? name).map (·, s.level)

def lookupCurrent? (t : Table) (name : String) : Option Entry :=
  t.current?.bind (·.find? name)

def preview? (t : Table) : Option (Except TableError Layout) :=
  t.current?.map (t.policy.layout ·.entries.toList)

end Table

end ScopeFrames
