namespace ScopeFrames.Word

def ofInt? (i : Int) : Option Int64 :=
  if Int64.minValue.toInt ≤ i ∧ i ≤ Int64.maxValue.toInt then some (Int64.ofInt i) else none

def add? (a b : Int64) : Option Int64 := ofInt? (a.toInt + b.toInt)
def sub? (a b : Int64) : Option Int64 := ofInt? (a.toInt - b.toInt)
def mul? (a b : Int64) : Option Int64 := ofInt? (a.toInt * b.toInt)

def text (w : Int64) : String := toString w.toInt

theorem ofInt?_eq_some {i : Int} {w : Int64} : ofInt? i = some w ↔ w.toInt = i := by
  unfold ofInt?
  have lower := Int64.minValue_le_toInt w
  have upper := Int64.toInt_le w
  constructor
  · intro h
    split at h
    · next range =>
      cases h
      have bounds : -(2 ^ 63 : Int) ≤ i ∧ i < 2 ^ 63 := by
        have low : Int64.minValue.toInt = -(2 ^ 63 : Int) := by decide
        have high : Int64.maxValue.toInt = (2 ^ 63 - 1 : Int) := by decide
        omega
      exact Int64.toInt_ofInt_of_le bounds.1 bounds.2
    · simp at h
  · rintro rfl
    rw [if_pos ⟨lower, upper⟩, Int64.ofInt_toInt]

theorem exists_toInt_iff {i : Int} :
    (∃ w : Int64, w.toInt = i) ↔ Int64.minValue.toInt ≤ i ∧ i ≤ Int64.maxValue.toInt := by
  constructor
  · rintro ⟨w, rfl⟩
    exact ⟨Int64.minValue_le_toInt w, Int64.toInt_le w⟩
  · intro range
    exact ⟨_, ofInt?_eq_some.1 (if_pos range)⟩

theorem ofInt?_eq_none {i : Int} : ofInt? i = none ↔ ¬ ∃ w : Int64, w.toInt = i := by
  simp only [Option.eq_none_iff_forall_ne_some, ne_eq, ofInt?_eq_some, not_exists]

theorem add?_eq_some {a b c : Int64} : add? a b = some c ↔ c.toInt = a.toInt + b.toInt :=
  ofInt?_eq_some

theorem add?_eq_none {a b : Int64} :
    add? a b = none ↔ ¬ ∃ c : Int64, c.toInt = a.toInt + b.toInt :=
  ofInt?_eq_none

theorem sub?_eq_some {a b c : Int64} : sub? a b = some c ↔ c.toInt = a.toInt - b.toInt :=
  ofInt?_eq_some

theorem mul?_eq_some {a b c : Int64} : mul? a b = some c ↔ c.toInt = a.toInt * b.toInt :=
  ofInt?_eq_some

end ScopeFrames.Word
