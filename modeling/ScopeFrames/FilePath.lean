/-!
File paths, compared part by part: doubled slashes, slashes at the end and single dots within say
nothing.
-/

namespace ScopeFrames.FilePath

inductive Part : Type
  | root
  | here
  | parent
  | name (s : String)
  deriving DecidableEq

namespace Part

def rank : Part → Nat
  | .root => 0
  | .here => 1
  | .parent => 2
  | .name _ => 3

def order : Part → Part → Ordering
  | .name a, .name b => compare a b
  | a, b => compare a.rank b.rank

end Part

def later : List String → List Part
  | [] => []
  | piece :: rest =>
    if piece = "" ∨ piece = "." then later rest
    else if piece = ".." then .parent :: later rest
    else .name piece :: later rest

def parts (path : String) : List Part :=
  match path.splitOn "/" with
  | "" :: rest@(_ :: _) => .root :: later rest
  | "." :: rest => .here :: later rest
  | pieces => later pieces

def orderParts : List Part → List Part → Ordering
  | [], [] => .eq
  | [], _ :: _ => .lt
  | _ :: _, [] => .gt
  | a :: as, b :: bs => (a.order b).then (orderParts as bs)

theorem Part.order_eq_eq {a b : Part} : a.order b = .eq ↔ a = b := by
  cases a <;> cases b <;> simp [Part.order, Part.rank]

theorem orderParts_eq_eq {as bs : List Part} : orderParts as bs = .eq ↔ as = bs := by
  induction as generalizing bs with
  | nil => cases bs <;> simp [orderParts]
  | cons a as ih => cases bs <;> simp [orderParts, Ordering.then_eq_eq, Part.order_eq_eq, ih]

def order (a b : String) : Ordering := orderParts (parts a) (parts b)

theorem order_eq_eq {a b : String} : order a b = .eq ↔ parts a = parts b := orderParts_eq_eq

end ScopeFrames.FilePath
