import ScopeFrames.Layout

namespace ScopeFrames

structure ScopeId where
  number : Nat
  deriving DecidableEq

def ScopeId.text (i : ScopeId) : String := s!"#{i.number}"

structure Scope where
  id : ScopeId
  level : Nat
  owner : Option String := none
  entries : Array Entry := #[]
  deriving DecidableEq

namespace Scope

def size (s : Scope) : Nat := s.entries.size

def names (s : Scope) : List String := s.entries.toList.map (·.name)

def index? (s : Scope) (name : String) : Option Nat := s.entries.findIdx? (·.name == name)

def find? (s : Scope) (name : String) : Option Entry := s.entries.find? (·.name == name)

def declares (s : Scope) (name : String) : Bool := s.entries.any (·.name == name)

def add (s : Scope) (e : Entry) : Except TableError Scope :=
  if s.declares e.name then .error (.duplicateName e.name s.level)
  else .ok { s with entries := s.entries.push (e.atLevel s.level) }

@[simp] theorem declares_iff {s : Scope} {name : String} :
    s.declares name = true ↔ name ∈ s.names := by
  simp [declares, names, Array.any_eq_true', -Array.any_eq_true]

theorem add_eq_ok {s added : Scope} {e : Entry} :
    s.add e = .ok added ↔
      e.name ∉ s.names ∧ added = { s with entries := s.entries.push (e.atLevel s.level) } := by
  unfold add
  split
  · next h => simp [declares_iff.1 h]
  · next h => simp [mt declares_iff.2 h, eq_comm]

def setOffset (s : Scope) (name : String) (offset : Int64) : Except TableError Scope :=
  match s.index? name with
  | none => .error (.unknownName name s.level)
  | some i => .ok { s with entries := s.entries.modify i (·.withOffset offset) }

def setOffsets (s : Scope) (offsets : List (String × Int64)) : Except TableError Scope :=
  offsets.foldlM (fun s (name, offset) => s.setOffset name offset) s

def setFrameSize (s : Scope) (name : String) (size : Int64) : Except TableError Scope :=
  match s.index? name, s.find? name with
  | some i, some e =>
    match e.withFrameSize size with
    | .error err => .error err
    | .ok sized => .ok { s with entries := s.entries.modify i fun _ => sized }
  | _, _ => .ok s

def setOwnerFrame (s : Scope) (size : Int64) : Option String → Except TableError Scope
  | none => .ok s
  | some owner => s.setFrameSize owner size

def frameRefusal? (s : Scope) : Option String → Option TableError
  | none => none
  | some owner =>
    if (s.find? owner).any (·.frameSize.isNone) then none
    else some (.invalidScopeOwner owner "owner entry cannot take a frame size")

/-- The entry that owns the frame of a program scope: the first program declared there. -/
def programEntry? (s : Scope) : Option Entry := s.entries.find? (·.category = .program)

end Scope

structure ClosedScope where
  id : ScopeId
  level : Nat
  owner : Option String
  entries : List Entry
  frameSize : Int64
  deriving DecidableEq

namespace ClosedScope

def ofScope (s : Scope) (owner : Option String) (frameSize : Int64) : ClosedScope :=
  { id := s.id, level := s.level, owner, entries := s.entries.toList, frameSize }

def size (s : ClosedScope) : Nat := s.entries.length

end ClosedScope

end ScopeFrames
