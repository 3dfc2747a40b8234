import ScopeFrames.Proofs.Alignment
import ScopeFrames.Proofs.Telling

namespace ScopeFrames

variable [Limits]

namespace Run

def advance (r : Run) (s : Step) : Run :=
  { executed := r.executed + 1, analysis := (r.announce s).take s }

theorem through_induction {motive : Run → Prop} {r : Run} (start : motive r)
    (advance : ∀ r s, motive r → motive (r.advance s)) (steps : List Step) :
    motive (through steps r) := by
  induction steps generalizing r with
  | nil => exact start
  | cons s steps ih =>
    simp only [through]
    split
    · exact start
    · exact ih (advance r s start)

theorem executed_le_through (steps : List Step) (r : Run) :
    r.executed ≤ (through steps r).executed :=
  through_induction (motive := fun r' => r.executed ≤ r'.executed) (Nat.le_refl _)
    (fun _ _ le => Nat.le_succ_of_le le) steps

end Run

namespace Analysis

structure Serves (p : Preferences) (a : Analysis) : Prop where
  steady : a.Steady
  faithful : a.Faithful
  preferences : a.preferences = p

variable {a : Analysis} {p : Preferences}

theorem serves_start (policy : Policy) (p : Preferences) : (start policy p).Serves p :=
  ⟨steady_start policy p, faithful_start policy p, rfl⟩

theorem Serves.halted_iff (serves : a.Serves p) :
    a.halted = true ↔ ∃ d ∈ a.diagnostics.toList, d.stops p = true := by
  rw [serves.faithful.halted, serves.preferences, List.any_eq_true]

theorem Serves.note (serves : a.Serves p) (event : Event) : (a.note event).Serves p :=
  ⟨⟨serves.steady.based, serves.steady.matched⟩,
    ⟨serves.faithful.unresolved, serves.faithful.halted⟩, serves.preferences⟩

theorem Serves.take (serves : a.Serves p) (s : ScopeFrames.Step) : (a.take s).Serves p := by
  obtain ⟨ds, records⟩ := tells_take serves.steady.based.formed s
  exact ⟨serves.steady.take s, records.faithful serves.faithful,
    records.preferences.trans serves.preferences⟩

end Analysis

namespace Trace

def runTo (t : Trace) (policy : Policy) (p : Preferences) (index : Nat) : Run :=
  Run.through (t.steps.take index) { analysis := .start policy p }

variable {t : Trace} {policy : Policy} {p : Preferences} {index : Nat} {s : Step}

theorem runTo_halted (halted : (t.reached policy p index).halted = true) :
    t.run policy p = t.runTo policy p index := by
  rw [run, ← List.take_append_drop index t.steps, Run.through_append]
  exact Run.through_halted halted _

theorem runTo_all (past : t.steps.length ≤ index) : t.run policy p = t.runTo policy p index := by
  rw [runTo, List.take_of_length_le past, run]

theorem runTo_succ (going : (t.reached policy p index).halted = false)
    (found : t.steps[index]? = some s) :
    t.runTo policy p (index + 1) = (t.runTo policy p index).advance s := by
  rw [runTo, List.take_add_one, found, Option.toList_some, Run.through_append]
  exact if_neg (Bool.eq_false_iff.1 going)

theorem runTo_stays (halted : (t.reached policy p index).halted = true) :
    t.runTo policy p (index + 1) = t.runTo policy p index := by
  rw [runTo, List.take_add_one, Run.through_append]
  exact Run.through_halted halted _

theorem serves_runTo (t : Trace) (policy : Policy) (p : Preferences) (index : Nat) :
    (t.runTo policy p index).analysis.Serves p :=
  Run.through_induction (motive := fun r => r.analysis.Serves p)
    (Analysis.serves_start policy p) (fun _ s serves => (serves.note _).take s) _

theorem serves_reached (t : Trace) (policy : Policy) (p : Preferences) (index : Nat) :
    (t.reached policy p index).Serves p :=
  serves_runTo t policy p index

theorem serves_run (t : Trace) (policy : Policy) (p : Preferences) :
    (t.run policy p).analysis.Serves p :=
  runTo_all (t := t) (Nat.le_refl _) ▸ serves_runTo t policy p t.steps.length

theorem executed_runTo (le : index ≤ t.steps.length)
    (going : (t.reached policy p index).halted = false) :
    (t.runTo policy p index).executed = index := by
  induction index with
  | zero => rfl
  | succ index ih =>
    have before : (t.reached policy p index).halted = false := by
      refine Bool.eq_false_iff.2 fun halted => ?_
      have same := congrArg (·.analysis.halted) (runTo_stays halted)
      exact Bool.eq_false_iff.1 going (same.trans halted)
    rw [runTo_succ before (List.getElem?_eq_getElem le)]
    exact congrArg (· + 1) (ih (Nat.le_of_succ_le le) before)

theorem executed_le (halted : (t.reached policy p index).halted = true) :
    (t.run policy p).executed ≤ index := by
  rw [runTo_halted halted]
  have le : (t.runTo policy p index).executed ≤ 0 + (t.steps.take index).length :=
    Run.executed_through_le _ _
  have short := List.length_take_le index t.steps
  omega

theorem runTo_past (past : t.steps[index]? = none) :
    t.runTo policy p (index + 1) = t.runTo policy p index := by
  rw [runTo, List.take_add_one, past, Option.toList_none, List.append_nil, runTo]

theorem runTo_cases (t : Trace) (policy : Policy) (p : Preferences) (index : Nat) :
    t.runTo policy p (index + 1) = t.runTo policy p index ∨
      ∃ s, t.steps[index]? = some s ∧ (t.reached policy p index).halted = false ∧
        t.runTo policy p (index + 1) = (t.runTo policy p index).advance s := by
  cases halted : (t.reached policy p index).halted with
  | true => exact .inl (runTo_stays halted)
  | false =>
    cases found : t.steps[index]? with
    | none => exact .inl (runTo_past found)
    | some s => exact .inr ⟨s, rfl, rfl, runTo_succ halted found⟩

theorem reached_cases (t : Trace) (policy : Policy) (p : Preferences) (index : Nat) :
    t.reached policy p (index + 1) = t.reached policy p index ∨
      ∃ s, (t.reached policy p index).halted = false ∧
        t.reached policy p (index + 1) = ((t.runTo policy p index).advance s).analysis :=
  (t.runTo_cases policy p index).imp (congrArg Run.analysis)
    fun ⟨s, _, going, next⟩ => ⟨s, going, congrArg Run.analysis next⟩

theorem executed_runTo_le (t : Trace) (policy : Policy) (p : Preferences) (index : Nat) :
    (t.runTo policy p index).executed ≤ (t.run policy p).executed := by
  rw [run, ← List.take_append_drop index t.steps, Run.through_append]
  exact Run.executed_le_through _ _

end Trace

end ScopeFrames
