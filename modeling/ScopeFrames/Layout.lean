import ScopeFrames.Entry
import ScopeFrames.Limits

/-!
Frame layout: entries take their places in declaration order, from a base offset on, and where
the last one ends the frame ends.
-/

namespace ScopeFrames

structure Policy where
  baseOffset : Int64 := 0
  intUnit : Int64 := 1
  booleanUnit : Int64 := 1
  charUnit : Int64 := 1
  deriving DecidableEq

def Policy.standard [Limits] : Policy :=
  ⟨Limits.baseOffset, Limits.intUnit, Limits.booleanUnit, Limits.charUnit⟩

structure Layout where
  offsets : List (String × Int64)
  frameSize : Int64
  deriving DecidableEq

def Layout.offsetOf? (l : Layout) (name : String) : Option Int64 :=
  (l.offsets.find? (·.1 = name)).map (·.2)

namespace Policy

def unit? (p : Policy) (c : Category) : Option Int64 :=
  let positive (size : Int64) := if 0 < size then some size else none
  match c with
  | .int => positive p.intUnit
  | .boolean => positive p.booleanUnit
  | .char => positive p.charUnit
  | _ => none

/-- The room an entry takes.  A procedure takes none: its frame is laid out with its own scope. -/
def size (p : Policy) (e : Entry) : Except TableError Int64 :=
  match e.category with
  | .int | .boolean | .char =>
    match p.unit? e.category with
    | some size => .ok size
    | none => .error (.incompleteEntry e.name "unit size is not positive")
  | .procedure | .program | .notApplicable => .ok 0
  | .undefined => .error (.incompleteEntry e.name "category is undefined")
  | .array =>
    match e.bounds with
    | none => .error (.incompleteEntry e.name "array bounds are unresolved")
    | some bounds =>
      match e.base.bind p.unit? with
      | none => .error (.incompleteEntry e.name "array base type has no positive unit size")
      | some unit =>
        match bounds.count?.bind (Word.mul? · unit) with
        | none => .error (.layoutOverflow e.name)
        | some size => .ok size

def layoutFrom (p : Policy) (cursor : Int64) (placed : List (String × Int64)) :
    List Entry → Except TableError Layout
  | [] => .ok ⟨placed.reverse, cursor⟩
  | e :: es =>
    match p.size e with
    | .error err => .error err
    | .ok size =>
      match Word.add? cursor size with
      | none => .error (.layoutOverflow e.name)
      | some next => p.layoutFrom next ((e.name, cursor) :: placed) es

theorem unit?_pos {p : Policy} {c : Category} {size : Int64} (h : p.unit? c = some size) :
    0 < size := by
  cases c <;> simp_all [unit?] <;> (obtain ⟨positive, rfl⟩ := h; exact positive)

def layout (p : Policy) (entries : List Entry) : Except TableError Layout :=
  p.layoutFrom p.baseOffset [] entries

end Policy

end ScopeFrames
