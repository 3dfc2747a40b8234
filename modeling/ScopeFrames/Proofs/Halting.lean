import Mathlib.Data.Nat.Order.Lemmas
import ScopeFrames.Proofs.Preference

namespace ScopeFrames

section

variable [Limits]

namespace Preferences

def strict (p : Preferences) : Preferences := { p with stopOnFirstError := true }

def lenient (p : Preferences) : Preferences := { p with stopOnFirstError := false }

end Preferences

namespace Analysis

def Faultless (a : Analysis) : Prop := ∀ d ∈ a.diagnostics.toList, d.isError = false

variable {a : Analysis} {p : Preferences}

theorem Serves.going (serves : a.Serves p) (faultless : a.Faultless) : a.halted = false := by
  refine Bool.eq_false_iff.2 fun halted => ?_
  obtain ⟨d, member, stops⟩ := serves.halted_iff.1 halted
  simp [Diagnostic.stops, faultless d member] at stops

theorem Serves.halted (serves : a.Serves p) (faulty : ¬ a.Faultless)
    (strict : p.stopOnFirstError = true) : a.halted = true := by
  simp only [Faultless, not_forall, Bool.not_eq_false] at faulty
  obtain ⟨d, member, error⟩ := faulty
  exact serves.halted_iff.2 ⟨d, member, by simp [Diagnostic.stops, error, strict]⟩

theorem hasErrors_iff : a.summarize.hasErrors = true ↔ ¬ a.Faultless := by
  simp [Report.hasErrors, Report.errorCount, summarize, Faultless]

end Analysis

/-- They took as many steps, recorded the same and go on in the same way. -/
structure Run.Alike (r r' : Run) : Prop extends r.Abreast r' where
  diagnostics : r.analysis.diagnostics.toList = r'.analysis.diagnostics.toList

namespace Run.Alike

variable {r r' : Run}

theorem advance (alike : r.Alike r')
    (warns : r.analysis.preferences.warnOnShadowing = r'.analysis.preferences.warnOnShadowing)
    (s : Step) : (r.advance s).Alike (r'.advance s) where
  toAbreast := alike.toAbreast.advance s
  diagnostics := by
    rw [diagnostics_advance, diagnostics_advance, alike.diagnostics,
      Analysis.findings_congr alike.core, Analysis.hints_congr alike.core warns]

theorem report_eq (alike : r.Alike r') : r.analysis.summarize = r'.analysis.summarize := by
  rw [alike.report, alike.diagnostics]
  rfl

theorem faultless (alike : r.Alike r') (faultless : r.analysis.Faultless) :
    r'.analysis.Faultless :=
  fun d member => faultless d (alike.diagnostics ▸ member)

theorem replay_eq {t : Trace} (alike : r.Alike r')
    (halted : r.analysis.halted = r'.analysis.halted) : Replay.of t r = Replay.of t r' := by
  simp only [Replay.of, alike.executed, halted, alike.opened, alike.report_eq]

end Run.Alike

namespace Trace

structure FirstError (t : Trace) (policy : Policy) (p : Preferences) (index : Nat) : Prop where
  executed : index < (t.run policy p).executed
  before : (t.reached policy p index).Faultless
  after : ¬ (t.reached policy p (index + 1)).Faultless

variable {t : Trace} {policy : Policy} {p : Preferences} {index : Nat}

theorem faultless_of_succ (faultless : (t.reached policy p (index + 1)).Faultless) :
    (t.reached policy p index).Faultless := by
  intro d member
  refine faultless d ?_
  rcases t.reached_cases policy p index with same | ⟨s, -, next⟩
  · rwa [same]
  · rw [next, Run.diagnostics_advance, List.append_assoc]
    exact List.mem_append_left _ member

theorem executed_of_faulty (before : (t.reached policy p index).Faultless)
    (after : ¬ (t.reached policy p (index + 1)).Faultless) :
    (t.runTo policy p (index + 1)).executed = index + 1 := by
  rcases t.runTo_cases policy p index with same | ⟨s, found, going, next⟩
  · have same : t.reached policy p (index + 1) = _ := congrArg Run.analysis same
    exact absurd (same ▸ before) after
  · have inside : index < t.steps.length := (List.getElem?_eq_some_iff.1 found).1
    rw [next]
    exact congrArg (· + 1) (executed_runTo inside.le going)

theorem exists_firstError (faulty : ¬ (t.run policy p).analysis.Faultless) :
    ∃ index, t.FirstError policy p index := by
  rw [runTo_all (Nat.le_refl _)] at faulty
  obtain ⟨index, before, after⟩ := Nat.exists_not_and_succ_of_not_zero_of_exists
    (p := fun k => ¬ (t.reached policy p k).Faultless) (not_not_intro fun _ => nofun) ⟨_, faulty⟩
  rw [not_not] at before
  have le := executed_runTo_le t policy p (index + 1)
  rw [executed_of_faulty before after] at le
  exact ⟨index, le, before, after⟩

theorem alike_succ (alike : (t.runTo policy p.lenient index).Alike (t.runTo policy p.strict index))
    (faultless : (t.reached policy p.lenient index).Faultless) :
    (t.runTo policy p.lenient (index + 1)).Alike (t.runTo policy p.strict (index + 1)) := by
  have serves := serves_runTo t policy p.lenient index
  have serves' := serves_runTo t policy p.strict index
  have going := serves.going faultless
  have going' := serves'.going (alike.faultless faultless)
  cases found : t.steps[index]? with
  | none => rwa [runTo_past found, runTo_past found]
  | some s =>
    rw [runTo_succ going found, runTo_succ going' found]
    refine alike.advance ?_ s
    rw [serves.preferences, serves'.preferences]
    rfl

theorem alike_faultless (faultless : (t.reached policy p.lenient index).Faultless) :
    (t.runTo policy p.lenient index).Alike (t.runTo policy p.strict index) := by
  induction index with
  | zero => exact ⟨⟨rfl, rfl⟩, rfl⟩
  | succ index ih =>
    have before := faultless_of_succ faultless
    exact alike_succ (ih before) before

theorem replay_strict (faultless : (t.run policy p.lenient).analysis.Faultless) :
    t.replay policy p.strict = t.replay policy p.lenient := by
  rw [runTo_all (Nat.le_refl _)] at faultless
  have alike := alike_faultless faultless
  have going := (serves_runTo t policy p.lenient _).going faultless
  have going' := (serves_runTo t policy p.strict t.steps.length).going (alike.faultless faultless)
  rw [replay, replay, runTo_all (Nat.le_refl _), runTo_all (p := p.lenient) (Nat.le_refl _)]
  exact (alike.replay_eq (going.trans going'.symm)).symm

theorem FirstError.stops (first : t.FirstError policy p.lenient index) :
    let stopped := t.replay policy p.strict
    let alone := { t with steps := t.steps.take (index + 1) }.replay policy p.lenient
    stopped.executed = index + 1 ∧ stopped.halted = true ∧ stopped.report = alone.report ∧
      stopped.openScopes = alone.openScopes := by
  have alike := alike_succ (alike_faultless first.before) first.before
  have halted : (t.reached policy p.strict (index + 1)).halted = true := by
    refine (serves_runTo t policy p.strict (index + 1)).halted ?_ rfl
    intro faultless
    exact first.after fun d member => faultless d (alike.diagnostics ▸ member)
  have executed := executed_of_faulty first.before first.after
  -- the halted run ends in that very state, and so does the run of the first steps alone
  simp only [replay, Replay.of, runTo_halted halted]
  exact ⟨alike.executed ▸ executed, halted, alike.report_eq.symm,
    congrArg List.length alike.opened.symm⟩

theorem halted_replay_iff : (t.replay policy p).halted = true ↔
    (∃ d ∈ (t.replay policy p).report.diagnostics, d.isError = true ∧ d.code.halts = true) ∨
      p.stopOnFirstError = true ∧ ∃ d ∈ (t.replay policy p).report.diagnostics,
        d.isError = true := by
  have halted : (t.replay policy p).halted = true ↔
      ∃ d ∈ (t.replay policy p).report.diagnostics, d.stops p = true :=
    (serves_run t policy p).halted_iff
  rw [halted]
  simp only [Diagnostic.stops, Bool.and_eq_true, Bool.or_eq_true]
  constructor
  · rintro ⟨d, member, error, halts | first⟩
    · exact .inl ⟨d, member, error, halts⟩
    · exact .inr ⟨first, d, member, error⟩
  · rintro (⟨d, member, error, halts⟩ | ⟨first, d, member, error⟩)
    · exact ⟨d, member, error, .inl halts⟩
    · exact ⟨d, member, error, .inr first⟩

/-- A replay is halted if and only if it recorded an error that is registered to halt, or any error
at all where the first one is to, and no step is taken behind one that recorded such an error.  One
that is to halt at the first error is the same as one that is not, if that records none; and else it
is what the steps up to that error give alone. -/
theorem replay_halts (t : Trace) (policy : Policy) (p : Preferences) :
    let r := t.replay policy p
    (r.halted = true ↔
      (∃ d ∈ r.report.diagnostics, d.isError = true ∧ d.code.halts = true) ∨
        p.stopOnFirstError = true ∧ ∃ d ∈ r.report.diagnostics, d.isError = true) ∧
    (∀ index, ∀ d ∈ (t.reached policy p (index + 1)).diagnostics, d.stops p = true →
      r.executed ≤ index + 1) ∧
    if (t.replay policy p.lenient).report.hasErrors then
      ∃ index, t.FirstError policy p.lenient index ∧
        let stopped := t.replay policy p.strict
        let alone := { t with steps := t.steps.take (index + 1) }.replay policy p.lenient
        stopped.executed = index + 1 ∧ stopped.halted = true ∧ stopped.report = alone.report ∧
          stopped.openScopes = alone.openScopes
    else
      t.replay policy p.strict = t.replay policy p.lenient := by
  intro r
  refine ⟨halted_replay_iff, fun index d member stops => ?_, ?_⟩
  · have serves := serves_reached t policy p (index + 1)
    exact executed_le (serves.halted_iff.2 ⟨d, Array.mem_toList_iff.2 member, stops⟩)
  · split
    · next errors =>
      obtain ⟨index, first⟩ := exists_firstError (Analysis.hasErrors_iff.1 errors)
      exact ⟨index, first, first.stops⟩
    · next none_found => exact replay_strict (not_not.1 (mt Analysis.hasErrors_iff.2 none_found))

end Trace

end

namespace Trace

def unknownName : Trace where
  steps := [
    { kind := .program, name? := some "m" },
    { kind := .resolve, name? := some "x" },
    { kind := .declare, name? := some "y", category := some .int },
    { kind := .close } ]

theorem unknownName_halts :
    let p : Preferences := {}
    let d := Diagnostic.undeclared "x" .dummy (some 0)
    d ∈ (unknownName.reached {} p.strict 2).diagnostics ∧ d.stops p.strict = true ∧
      (unknownName.replay {} p.strict).executed ≤ 2 ∧
      (unknownName.replay {} p.lenient).report.hasErrors = true ∧
      (unknownName.replay {} p.lenient).executed = 4 ∧
      ∃ index, unknownName.FirstError {} p.lenient index ∧
        (unknownName.replay {} p.strict).executed = index + 1 ∧
        (unknownName.replay {} p.strict).halted = true := by
  intro p d
  have member : d ∈ (unknownName.reached {} p.strict 2).diagnostics := by decide +kernel
  have stops : d.stops p.strict = true := by decide +kernel
  have errors : (unknownName.replay {} p.lenient).report.hasErrors = true := by decide +kernel
  have twice := (replay_halts unknownName {} p).2.2
  rw [if_pos errors] at twice
  obtain ⟨index, first, executed, halted, -⟩ := twice
  exact ⟨member, stops, (replay_halts unknownName {} p.strict).2.1 1 d member stops, errors,
    by decide +kernel, index, first, executed, halted⟩

end Trace

end ScopeFrames
