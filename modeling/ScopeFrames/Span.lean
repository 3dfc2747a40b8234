import ScopeFrames.Limits

namespace ScopeFrames

structure Position where
  offset : Nat
  line : Nat
  column : Nat
  deriving DecidableEq

namespace Position

def start : Position := ⟨0, 1, 1⟩

def text (p : Position) : String := s!"{p.line}:{p.column}"

def order (p q : Position) : Ordering :=
  (compare p.offset q.offset).then ((compare p.line q.line).then (compare p.column q.column))

end Position

structure Span where
  start : Position
  stop : Position
  deriving DecidableEq

namespace Span

def dummy : Span := ⟨.start, .start⟩

def isDummy (s : Span) : Bool := s = dummy

/-- An identifier of `length` bytes on one line.  Columns are words of 32 bits, whose sum starts
over where it is too large.  Offsets are not known here and stay zero. -/
def identifier (line column length : Nat) : Span :=
  ⟨⟨0, line, column⟩, ⟨0, line, (UInt32.ofNat column + UInt32.ofNat length).toNat⟩⟩

def fits (s : Span) : Bool := s.start.column ≤ Limits.maxColumn && s.stop.column ≤ Limits.maxColumn

def identifier? (line column length : Nat) : Option Span :=
  let exact : Span := ⟨⟨0, line, column⟩, ⟨0, line, column + (UInt32.ofNat length).toNat⟩⟩
  if exact.fits then some exact else none

theorem identifier?_eq (line column length : Nat) : identifier? line column length =
    if column + length % UInt32.size ≤ Limits.maxColumn then some (identifier line column length)
    else none := by
  have short : (UInt32.ofNat length).toNat = length % UInt32.size := UInt32.toNat_ofNat'
  have sum : (UInt32.ofNat column + UInt32.ofNat length).toNat =
      (column % UInt32.size + length % UInt32.size) % UInt32.size := by
    rw [UInt32.toNat_add, UInt32.toNat_ofNat', UInt32.toNat_ofNat']
  have small {n : Nat} (le : n ≤ Limits.maxColumn) : n % UInt32.size = n :=
    Nat.mod_eq_of_lt (Nat.lt_succ_of_le le)
  simp only [identifier?, identifier, fits, short, sum, Bool.and_eq_true, decide_eq_true_eq]
  by_cases inRange : column + length % UInt32.size ≤ Limits.maxColumn
  · have low : column ≤ Limits.maxColumn := Nat.le_trans (Nat.le_add_right ..) inRange
    rw [if_pos ⟨low, inRange⟩, if_pos inRange, small low, small inRange]
  · rw [if_neg fun fits => inRange fits.2, if_neg inRange]

def text (s : Span) : String :=
  if s.start.line = s.stop.line then s!"{s.start.text}-{s.stop.column}"
  else s!"{s.start.text}-{s.stop.text}"

end Span

end ScopeFrames
