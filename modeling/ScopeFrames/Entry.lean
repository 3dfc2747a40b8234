import ScopeFrames.TableError

namespace ScopeFrames

inductive Category : Type
  | undefined
  | notApplicable
  | int
  | boolean
  | char
  | array
  | procedure
  | program
  deriving DecidableEq

namespace Category

def text : Category → String
  | .undefined => "undefined"
  | .notApplicable => "n/a"
  | .int => "int"
  | .boolean => "boolean"
  | .char => "char"
  | .array => "array"
  | .procedure => "procedure"
  | .program => "program"

def word : Category → String
  | .notApplicable => "not_applicable"
  | c => c.text

def all : List Category :=
  [.undefined, .notApplicable, .int, .boolean, .char, .array, .procedure, .program]

def ofWord? (w : String) : Option Category := all.find? (·.word = w)

def number : Category → Int
  | .undefined => -1
  | .notApplicable => 0
  | .int => 1
  | .boolean => 2
  | .char => 3
  | .array => 4
  | .procedure => 5
  | .program => 6

def isScalar : Category → Bool
  | .int | .boolean | .char => true
  | _ => false

def ownsFrame : Category → Bool
  | .procedure | .program => true
  | _ => false

theorem ofWord?_word (c : Category) : ofWord? c.word = some c := by
  cases c <;> decide

end Category

structure Bounds where
  start : Int64
  stop : Int64
  ordered : start ≤ stop
  deriving DecidableEq

namespace Bounds

def between (start stop : Int64) : Except TableError Bounds :=
  if h : start ≤ stop then .ok ⟨start, stop, h⟩ else .error (.invalidBounds start stop)

def count? (b : Bounds) : Option Int64 := do
  let distance ← Word.sub? b.stop b.start
  Word.add? distance 1

def text (b : Bounds) : String := s!"{Word.text b.start}..{Word.text b.stop}"

theorem between_eq_error {start stop : Int64} {e : TableError} :
    between start stop = .error e ↔ ¬ start ≤ stop ∧ e = .invalidBounds start stop := by
  unfold between
  split
  · next h => simp [h]
  · next h => simp [h, eq_comm]

theorem count?_eq_some {b : Bounds} {n : Int64} :
    b.count? = some n ↔ n.toInt = b.stop.toInt - b.start.toInt + 1 := by
  have ordered := Int64.le_iff_toInt_le.1 b.ordered
  have upper := Int64.toInt_lt n
  have one : (1 : Int64).toInt = 1 := by decide
  simp only [count?, Option.bind_eq_bind, Option.bind_eq_some_iff, Word.add?_eq_some,
    Word.sub?_eq_some, one]
  constructor
  · rintro ⟨d, hd, hn⟩
    omega
  · intro h
    have low : -(2 ^ 63 : Int) ≤ b.stop.toInt - b.start.toInt := by omega
    have high : b.stop.toInt - b.start.toInt < 2 ^ 63 := by omega
    refine ⟨Int64.ofInt (b.stop.toInt - b.start.toInt), Int64.toInt_ofInt_of_le low high, ?_⟩
    rw [Int64.toInt_ofInt_of_le low high, h]

end Bounds

structure Label where
  number : Nat
  deriving DecidableEq

def Label.text (l : Label) : String := s!"L{l.number}"

structure Entry where
  name : String
  category : Category
  base : Option Category := none
  bounds : Option Bounds := none
  offset : Option Int64 := none
  label : Option Label := none
  level : Option Nat := none
  frameSize : Option Int64 := none
  deriving DecidableEq

namespace Entry

def simple (name : String) (category : Category) : Entry :=
  { name, category }

def array (name : String) (base : Category) (bounds : Option Bounds) : Entry :=
  { name, category := .array, base := some base, bounds }

def procedure (name : String) : Entry := { name, category := .procedure }
def program (name : String) : Entry := { name, category := .program }

def withLabel (e : Entry) (l : Label) : Entry := { e with label := some l }
def withOffset (e : Entry) (offset : Int64) : Entry := { e with offset := some offset }
def atLevel (e : Entry) (level : Nat) : Entry := { e with level := some level }

def withFrameSize (e : Entry) (size : Int64) : Except TableError Entry :=
  if !e.category.ownsFrame then
    .error (.invalidScopeOwner e.name "only procedures and programs have a frame size")
  else if e.frameSize.isSome then
    .error (.invalidScopeOwner e.name "frame size already assigned")
  else
    .ok { e with frameSize := some size }

def text (e : Entry) : String :=
  match e.base, e.bounds with
  | some base, some bounds => s!"{e.name}: {e.category.text}[{bounds.text}] of {base.text}"
  | some base, none => s!"{e.name}: {e.category.text}[?] of {base.text}"
  | none, _ => s!"{e.name}: {e.category.text}"

theorem withFrameSize_eq_ok {e sized : Entry} {size : Int64} :
    e.withFrameSize size = .ok sized ↔
      e.category.ownsFrame = true ∧ e.frameSize = none ∧
        sized = { e with frameSize := some size } := by
  unfold withFrameSize
  cases e.category.ownsFrame <;> cases e.frameSize <;> simp [eq_comm]

end Entry

end ScopeFrames
