import Mathlib.Algebra.Order.Ring.Int
import ScopeFrames.Layout

namespace ScopeFrames

def Entry.bare (e : Entry) : Entry :=
  { e with offset := none, label := none, level := none, frameSize := none }

namespace Policy

/-- Entries from `cursor` on take the places `offsets` and end at `stop`. -/
inductive Lays (p : Policy) : Int64 → List Entry → List Int64 → Int64 → Prop
  | nil {cursor} : Lays p cursor [] [] cursor
  | cons {cursor size next stop e es offsets} : p.size e = .ok size →
      Word.add? cursor size = some next → Lays p next es offsets stop →
      Lays p cursor (e :: es) (cursor :: offsets) stop

variable {p : Policy} {e : Entry} {es : List Entry} {cursor stop : Int64} {offsets : List Int64}
  {err : TableError}

/-- The room an entry takes, as an integer of any size; an unresolved entry has none. -/
def extent? (p : Policy) (e : Entry) : Option Int :=
  match e.category with
  | .int | .boolean | .char => (p.unit? e.category).map (·.toInt)
  | .procedure | .program | .notApplicable => some 0
  | .undefined => none
  | .array =>
    match e.bounds, e.base.bind p.unit? with
    | some b, some unit => some ((b.stop.toInt - b.start.toInt + 1) * unit.toInt)
    | _, _ => none

def extent (p : Policy) (e : Entry) : Int := (p.extent? e).getD 0

theorem count?_bind_mul? {b : Bounds} {unit size : Int64} (positive : 0 < unit) :
    b.count?.bind (Word.mul? · unit) = some size
      ↔ (b.stop.toInt - b.start.toInt + 1) * unit.toInt = size.toInt := by
  have one : 1 ≤ unit.toInt := by
    have := Int64.lt_iff_toInt_lt.1 positive
    simp only [Int64.toInt_zero] at this
    omega
  have ordered := Int64.le_iff_toInt_le.1 b.ordered
  constructor
  · intro h
    obtain ⟨count, counted, multiplied⟩ := Option.bind_eq_some_iff.1 h
    rw [← Bounds.count?_eq_some.1 counted, Word.mul?_eq_some.1 multiplied]
  · intro h
    have upper := Int64.toInt_lt size
    have below : b.stop.toInt - b.start.toInt + 1 ≤ size.toInt := by
      have := Int.mul_le_mul_of_nonneg_left one (show 0 ≤ b.stop.toInt - b.start.toInt + 1 by omega)
      omega
    have exact : (Int64.ofInt (b.stop.toInt - b.start.toInt + 1)).toInt
        = b.stop.toInt - b.start.toInt + 1 :=
      Int64.toInt_ofInt_of_le (by omega) (by omega)
    refine Option.bind_eq_some_iff.2 ⟨_, Bounds.count?_eq_some.2 exact, ?_⟩
    rw [Word.mul?_eq_some, exact, h]

theorem size_eq_ok {n : Int64} : p.size e = .ok n ↔ p.extent? e = some n.toInt := by
  have inj : ∀ a b : Int64, a.toInt = b.toInt ↔ a = b := fun a b => Int64.toInt_inj
  unfold size extent?
  cases e.category with
  | int | boolean | char =>
    simp only
    split <;> simp_all
  | procedure | program | notApplicable =>
    simp [← inj]
  | undefined => simp
  | array =>
    simp only
    cases e.bounds with
    | none => simp
    | some b =>
      cases unit : e.base.bind p.unit? with
      | none => simp
      | some width =>
        obtain ⟨c, -, hc⟩ := Option.bind_eq_some_iff.1 unit
        simp only [Option.some.injEq, ← count?_bind_mul? (unit?_pos hc)]
        cases b.count?.bind (Word.mul? · width) <;> simp

theorem layoutFrom_eq_ok {placed : List (String × Int64)} {l : Layout} :
    p.layoutFrom cursor placed es = .ok l ↔
      ∃ offsets stop, p.Lays cursor es offsets stop ∧
        l = ⟨placed.reverse ++ (es.map (·.name)).zip offsets, stop⟩ := by
  induction es generalizing cursor placed with
  | nil =>
    constructor
    · intro h
      cases h
      exact ⟨[], cursor, .nil, by simp⟩
    · rintro ⟨_, _, ⟨⟩, rfl⟩
      simp [layoutFrom]
  | cons e es ih =>
    constructor
    · intro h
      unfold layoutFrom at h
      split at h
      · cases h
      · next size sized =>
        split at h
        · cases h
        · next next added =>
          obtain ⟨offsets, stop, lays, rfl⟩ := ih.1 h
          exact ⟨cursor :: offsets, stop, .cons sized added lays, by simp⟩
    · rintro ⟨_, _, lays, rfl⟩
      cases lays with
      | cons sized added lays =>
        simp only [layoutFrom, sized, added]
        exact ih.2 ⟨_, _, lays, by simp⟩

theorem layout_eq_ok {l : Layout} :
    p.layout es = .ok l ↔
      ∃ offsets stop, p.Lays p.baseOffset es offsets stop ∧
        l = ⟨(es.map (·.name)).zip offsets, stop⟩ := by
  simp [layout, layoutFrom_eq_ok]

theorem size_refused (refused : p.size e = .error err) :
    (p.extent? e = none ∧ ∃ reason, err = .incompleteEntry e.name reason) ∨
      (∃ size, p.extent? e = some size) ∧ err = .layoutOverflow e.name := by
  unfold size at refused
  unfold extent?
  cases category : e.category with
  | int | boolean | char =>
    simp only [category] at refused ⊢
    split at refused
    · cases refused
    · next unit => cases refused; exact .inl ⟨by rw [unit]; rfl, _, rfl⟩
  | procedure | program | notApplicable => simp [category] at refused
  | undefined =>
    simp only [category] at refused
    cases refused
    exact .inl ⟨rfl, _, rfl⟩
  | array =>
    simp only [category] at refused
    split at refused
    · next unbound => cases refused; exact .inl ⟨by simp [unbound], _, rfl⟩
    · next b bound =>
      split at refused
      · next unit => cases refused; exact .inl ⟨by simp [bound, unit], _, rfl⟩
      · next unit measured =>
        split at refused
        · cases refused; exact .inr ⟨⟨_, by simp only [bound, measured]; rfl⟩, rfl⟩
        · cases refused

theorem layoutFrom_refused {placed : List (String × Int64)}
    (refused : p.layoutFrom cursor placed es = .error err) :
    ∃ front e back offsets stop, es = front ++ e :: back ∧ p.Lays cursor front offsets stop ∧
      (p.size e = .error err ∨ ∃ size, p.size e = .ok size ∧ Word.add? stop size = none ∧
        err = .layoutOverflow e.name) := by
  induction es generalizing cursor placed with
  | nil => cases refused
  | cons e es ih =>
    unfold layoutFrom at refused
    split at refused
    · next unsized =>
      cases refused
      exact ⟨[], e, es, [], cursor, rfl, .nil, .inl unsized⟩
    · next size sized =>
      split at refused
      · next beyond =>
        cases refused
        exact ⟨[], e, es, [], cursor, rfl, .nil, .inr ⟨size, sized, beyond, rfl⟩⟩
      · next next added =>
        obtain ⟨front, e', back, offsets, stop, rfl, lays, fails⟩ := ih refused
        exact ⟨e :: front, e', back, _, stop, rfl, .cons sized added lays, fails⟩

def Refusal (err : TableError) : Prop :=
  (∃ name reason, err = .incompleteEntry name reason) ∨ ∃ name, err = .layoutOverflow name

theorem size_eq_error (unsized : p.size e = .error err) : Refusal err := by
  rcases size_refused unsized with ⟨-, reason, rfl⟩ | ⟨-, rfl⟩
  · exact .inl ⟨_, _, rfl⟩
  · exact .inr ⟨_, rfl⟩

theorem layoutFrom_eq_error {placed : List (String × Int64)}
    (unlaid : p.layoutFrom cursor placed es = .error err) : Refusal err := by
  obtain ⟨_, _, _, _, _, _, _, fails⟩ := layoutFrom_refused unlaid
  rcases fails with unsized | ⟨_, _, _, rfl⟩
  · exact size_eq_error unsized
  · exact .inr ⟨_, rfl⟩

def placed (p : Policy) (start : Int) : List Entry → List Entry
  | [] => []
  | e :: es => e.withOffset (.ofInt start) :: p.placed (start + p.extent e) es

def frameSize (p : Policy) (es : List Entry) : Int64 :=
  .ofInt (p.baseOffset.toInt + (es.map p.extent).sum)

theorem placed_names {start : Int} : (p.placed start es).map (·.name) = es.map (·.name) := by
  induction es generalizing start with
  | nil => rfl
  | cons e es ih => simp [placed, ih, Entry.withOffset]

theorem frameSize_bare : p.frameSize (es.map Entry.bare) = p.frameSize es := by
  simp only [frameSize, List.map_map]
  rfl

namespace Lays

theorem length_eq (h : p.Lays cursor es offsets stop) : offsets.length = es.length := by
  induction h with
  | nil => rfl
  | cons _ _ _ ih => simp [ih]

theorem step {size next : Int64} (sized : p.size e = .ok size)
    (added : Word.add? cursor size = some next) : next.toInt = cursor.toInt + p.extent e := by
  rw [Word.add?_eq_some.1 added, extent, size_eq_ok.1 sized, Option.getD_some]

theorem stop_eq (h : p.Lays cursor es offsets stop) :
    stop.toInt = cursor.toInt + (es.map p.extent).sum := by
  induction h with
  | nil => simp
  | cons sized added _ ih => simp [ih, step sized added, Int.add_assoc]

theorem placed_eq (h : p.Lays cursor es offsets stop) :
    es.zipWith Entry.withOffset offsets = p.placed cursor.toInt es := by
  induction h with
  | nil => rfl
  | cons sized added _ ih => simp [placed, ih, step sized added]

theorem frameSize_eq (h : p.Lays p.baseOffset es offsets stop) : p.frameSize es = stop := by
  rw [frameSize, ← h.stop_eq, Int64.ofInt_toInt]

theorem bare_iff :
    p.Lays cursor (es.map Entry.bare) offsets stop ↔ p.Lays cursor es offsets stop := by
  induction es generalizing cursor offsets with
  | nil => rfl
  | cons e es ih =>
    constructor
    · rintro (_ | ⟨sized, added, lays⟩)
      exact .cons sized added (ih.1 lays)
    · rintro (_ | ⟨sized, added, lays⟩)
      exact .cons sized added (ih.2 lays)

end Lays

theorem exists_lays_iff : (∃ offsets stop, p.Lays cursor es offsets stop) ↔
    ∀ front e back, es = front ++ e :: back → ∃ size stop : Int64,
      p.extent? e = some size.toInt ∧
        stop.toInt = cursor.toInt + (front.map p.extent).sum + size.toInt := by
  induction es generalizing cursor with
  | nil =>
    constructor
    · rintro - front e back split
      simp at split
    · intro _
      exact ⟨[], cursor, .nil⟩
  | cons first es ih =>
    constructor
    · rintro ⟨_, _, lays⟩ front e back split
      cases lays with
      | @cons _ size next _ _ _ _ sized added lays =>
        cases front with
        | nil =>
          obtain ⟨rfl, -⟩ := List.cons.inj split
          exact ⟨size, next, size_eq_ok.1 sized, by simp [Word.add?_eq_some.1 added]⟩
        | cons first' front =>
          obtain ⟨rfl, tails⟩ := List.cons.inj split
          obtain ⟨size', stop, sized', ends⟩ := ih.1 ⟨_, _, lays⟩ front e back tails
          refine ⟨size', stop, sized', ?_⟩
          rw [ends, Lays.step sized added, List.map_cons, List.sum_cons]
          omega
    · intro ends
      obtain ⟨size, next, sized, reached⟩ := ends [] first es rfl
      have sized := size_eq_ok.2 sized
      have added : Word.add? cursor size = some next := by
        simpa [Word.add?_eq_some] using reached
      have later : ∃ offsets stop, p.Lays next es offsets stop := by
        refine ih.2 fun front e back split => ?_
        obtain ⟨size', stop, sized', ends⟩ := ends (first :: front) e back (by rw [split]; rfl)
        refine ⟨size', stop, sized', ?_⟩
        rw [ends, Lays.step sized added, List.map_cons, List.sum_cons]
        omega
      obtain ⟨offsets, stop, lays⟩ := later
      exact ⟨_, _, .cons sized added lays⟩

def Laid (p : Policy) (es : List Entry) : Prop :=
  ∀ front e back, es = front ++ e :: back → ∃ size stop : Int64, p.extent? e = some size.toInt ∧
    stop.toInt = p.baseOffset.toInt + (front.map p.extent).sum + size.toInt

theorem laid_iff_lays : p.Laid es ↔ ∃ offsets stop, p.Lays p.baseOffset es offsets stop :=
  exists_lays_iff.symm

theorem laid_iff : p.Laid es ↔ ∃ frame, p.layout es = .ok frame := by
  simp only [laid_iff_lays, layout_eq_ok]
  constructor
  · rintro ⟨offsets, stop, lays⟩
    exact ⟨_, offsets, stop, lays, rfl⟩
  · rintro ⟨_, offsets, stop, lays, -⟩
    exact ⟨offsets, stop, lays⟩

theorem laid_bare : p.Laid (es.map Entry.bare) ↔ p.Laid es := by
  simp only [laid_iff_lays, Lays.bare_iff]

end Policy

end ScopeFrames
