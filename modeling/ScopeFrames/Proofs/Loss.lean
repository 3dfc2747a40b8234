import ScopeFrames.Proofs.Alignment

namespace ScopeFrames.Analysis

section

variable [Limits]

def Accounts (a b : Analysis) : Prop :=
  (∃ top ∈ a.table.scopes.head?, ∃ scope : ClosedScope,
    scope.id = top.id ∧ b.closed = a.closed.push scope) ∨ a.Blames b

/-- An end while only a program is open, its scope above one that was left live when the analysis
was halted. -/
structure Strays (a : Analysis) (call : Call) : Prop where
  ends : ∃ span, call = .endScope span
  opened : a.opened = [.program]
  depth : a.table.depth = 2
  halted : a.halted = true

variable {a b : Analysis} {call : Call} {answer : Answer} {t : Table}

theorem Steady.strays (steady : a.Steady) {span : Span}
    (opened : a.opened = [] ∨ ∃ outer, a.opened = .program :: outer) (leaves : a.table.Leaves t) :
    a.Strays (.endScope span) := by
  obtain ⟨⟨-, grounded, -, excess⟩, matched⟩ := steady
  obtain ⟨live, shallower⟩ := leaves.depth_eq
  simp only [standing] at grounded excess
  rcases opened with opened | ⟨outer, opened⟩
  · rw [opened, real_nil, List.length_nil] at excess
    omega
  · rw [opened] at grounded
    rw [grounded.outer_eq_nil] at opened
    have single : (real a.opened).length = 1 := congrArg (fun o => (real o).length) opened
    refine ⟨⟨span, rfl⟩, opened, by omega, ?_⟩
    by_contra going
    have length_eq := (matched (Bool.eq_false_iff.2 going)).length_eq
    simp only [standing] at length_eq
    omega

theorem Act.accounts (act : Act a call answer b) (steady : a.Steady)
    (lowered : b.standing.table.depth < a.table.depth) : a.Accounts b ∨ a.Strays call := by
  cases act with
  | refused _ blames | stoodIn _ _ _ blames | dropped _ _ _ _ blames | stuck _ _ _ _ blames =>
    exact .inl (.inr blames)
  | resolved same | passed _ same =>
    rw [same] at lowered
    exact absurd lowered (Nat.lt_irrefl _)
  | declared step same =>
    rw [same, step.depth_declared.1] at lowered
    exact absurd lowered (Nat.lt_irrefl _)
  | begunProgram _ step declares same =>
    rw [same, declares.depth_eq, step.depth_entered] at lowered
    exact absurd lowered (Nat.not_lt_of_lt (Nat.lt_succ_self _))
  | begunProcedure step step' same =>
    rw [same, step'.depth_entered, step.depth_declared.1] at lowered
    exact absurd lowered (Nat.not_lt_of_lt (Nat.lt_succ_self _))
  | begunBlock _ step same =>
    rw [same, step.depth_entered] at lowered
    exact absurd lowered (Nat.not_lt_of_lt (Nat.lt_succ_self _))
  | ended _ _ _ step same =>
    cases step with
    | @exited top outer rest _ _ scopes =>
      exact .inl (.inl ⟨top, by simp [scopes], _, rfl, congrArg Standing.closed same⟩)
  | lost opened step => exact .inr (steady.strays opened (.inl ⟨_, step⟩))
  | finished step same =>
    cases step with
    | @finished program _ _ scopes =>
      refine .inl (.inl ⟨program, by simp [scopes], _, ?_, congrArg Standing.closed same⟩)
      simp [ClosedScope.ofScope, Scope.placed]

/-- After any calls, halted or not, a call that lowers the number of live scopes accounts for the
scope that is gone, but for one stray end. -/
theorem accounts_after (policy : Policy) (preferences : Preferences) (calls : List Call)
    (call : Call) :
    let a := (start policy preferences).after calls
    (a.apply call).2.table.depth < a.table.depth →
      a.Accounts (a.apply call).2 ∨ a.Strays call := by
  intro a lowered
  have steady : a.Steady := steady_after policy preferences calls
  exact (act steady.based.formed call).accounts steady lowered

end

theorem accounts_procedure :
    let a := (start {} {}).after [.beginProgram "m" .dummy, .beginProcedure "p" .dummy]
    (a.apply (.endScope .dummy)).2.table.depth < a.table.depth ∧
      a.Accounts (a.apply (.endScope .dummy)).2 := by
  intro a
  have lowered : (a.apply (.endScope .dummy)).2.table.depth < a.table.depth := by decide +kernel
  have going : a.halted = false := by decide +kernel
  refine ⟨lowered, (accounts_after {} {} _ _ lowered).resolve_right fun strays => ?_⟩
  exact Bool.eq_false_iff.1 going strays.halted

def leftover : List Call := [.beginBlock .dummy, .endScope .dummy, .beginProgram "m" .dummy]

theorem not_accounts_leftover :
    let a := (start {} {}).after leftover
    a.Strays (.endScope .dummy) ∧ (a.apply (.endScope .dummy)).2.table.depth < a.table.depth ∧
      ¬ a.Accounts (a.apply (.endScope .dummy)).2 := by
  intro a
  have opened : a.opened = [.program] := by decide +kernel
  refine ⟨⟨⟨.dummy, rfl⟩, opened, by decide +kernel, by decide +kernel⟩, by decide +kernel, ?_⟩
  have closed : (a.apply (.endScope .dummy)).2.closed = a.closed := by decide +kernel
  have untold : (a.apply (.endScope .dummy)).2.diagnostics = a.diagnostics := by decide +kernel
  rintro (⟨-, -, scope, -, pushed⟩ | ⟨more, told, d, member, -⟩)
  · have longer := congrArg Array.size (closed.symm.trans pushed)
    simp at longer
  · have longer := congrArg Array.size (untold.symm.trans told)
    have none_more : more = #[] := by simpa using longer
    simp [none_more] at member

end ScopeFrames.Analysis
