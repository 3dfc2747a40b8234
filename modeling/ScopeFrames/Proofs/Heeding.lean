import ScopeFrames.Proofs.Acceptance
import ScopeFrames.Proofs.Conservation
import ScopeFrames.Proofs.Running

namespace ScopeFrames

namespace Step

inductive Gives (s : Step) : Declaration → Prop
  | simple {c} : s.category = some c → c ≠ .array → Gives s (.simple s.name c)
  | array {base} : s.category = some .array → s.base = some base →
      Gives s (.array s.name base s.bounds)

variable {s : Step}

theorem base_of_valid (valid : s.fault? = none) (kind : s.kind = .declare)
    (category : s.category = some .array) : ∃ base, s.base = some base := by
  refine Option.ne_none_iff_exists'.1 fun missing => ?_
  simp only [fault?, kind, category, missing, if_true] at valid
  split at valid <;> cases valid

theorem gives_of_valid (valid : s.fault? = none) (kind : s.kind = .declare) :
    ∃ d, s.declaration? = some d ∧ s.Gives d := by
  obtain ⟨d, given, -⟩ := declares_of_valid valid kind
  refine ⟨d, given, ?_⟩
  simp only [declaration?, kind] at given
  cases category : s.category with
  | none =>
    rw [category] at given
    cases given
  | some c =>
    rw [category] at given
    by_cases array : c = .array
    · subst array
      obtain ⟨base, written⟩ := base_of_valid valid kind category
      rw [written] at given
      cases given
      exact .array category written
    · have plain : d = .simple s.name c := by
        cases c <;> simp_all
      rw [plain]
      exact .simple category array

end Step

section

variable [Limits]

namespace View

def Blames (v w : View) : Prop :=
  ∃ more, w.diagnostics = v.diagnostics ++ more ∧ ∃ x ∈ more, x.isError = true

inductive Declared (v : View) (d : Declaration) : View → Prop
  | landed {e t warnings} : d.entry = .ok e → v.table.Step (.declare e) .declared t →
      (∀ x ∈ warnings, x.isError = false) →
      Declared v d { v with
        table := t, declared := v.declared + 1, diagnostics := v.diagnostics ++ warnings }
  | refused {x} : x.isError = true →
      Declared v d { v with diagnostics := v.diagnostics ++ [x] }

inductive Referred (v : View) (name : String) : View → Prop
  | found {e level} : v.table.lookup? name = some (e, level) →
      Referred v name { v with resolved := v.resolved + 1 }
  | unknown {x} : v.table.lookup? name = none → x.isError = true → x.code = .undeclared →
      Referred v name { v with
        unresolved := v.unresolved + 1, diagnostics := v.diagnostics ++ [x] }

structure Begun (v w : View) : Prop where
  opened : ∃ o, w.opened = o :: v.opened ∧
    (o ≠ .placeholder ∧ w.table.depth = v.table.depth + 1 ∨
      o = .placeholder ∧ w.table.depth = v.table.depth ∧ v.Blames w)
  closed : w.closed = v.closed
  resolved : w.resolved = v.resolved
  unresolved : w.unresolved = v.unresolved

inductive Leaves (v w : View) : Prop
  | closed {o scope} : v.opened = o :: w.opened → o ≠ .placeholder →
      v.table.ids = scope.id :: w.table.ids → w.closed = v.closed ++ [scope] → Leaves v w
  | passed : v.opened = .placeholder :: w.opened → w = { v with opened := w.opened } → Leaves v w
  | dropped {o} : v.opened = o :: w.opened → o ≠ .placeholder → w.closed = v.closed →
      v.Blames w → Leaves v w
  | refused : w.opened = v.opened → w.table = v.table → w.closed = v.closed → v.Blames w →
      Leaves v w

structure Ended (v w : View) : Prop where
  leaves : v.Leaves w
  declared : w.declared = v.declared
  resolved : w.resolved = v.resolved
  unresolved : w.unresolved = v.unresolved

/-- The effect that a step of each kind is to have. -/
def Heeds (v : View) (s : Step) (w : View) : Prop :=
  match s.kind with
  | .declare => ∃ d, s.declaration? = some d ∧ s.Gives d ∧ v.Declared d w
  | .resolve => v.Referred s.name w
  | .program | .procedure | .block => v.Begun w
  | .close => v.Ended w

end View

namespace Analysis

variable {a b : Analysis} {call : Call} {answer : Answer} {s : ScopeFrames.Step} {span : Span}
  {name : String} {d : Declaration} {e : TableError} {o : Opened} {outer : List Opened}

theorem view_report {x : Diagnostic} : (a.report x).view =
    { a.view with diagnostics := a.view.diagnostics ++ [x] } := by
  simp [view, report, note]

theorem view_refuse : (a.refuse e span).view =
    { a.view with diagnostics := a.view.diagnostics ++ [.refused e span a.table.level?] } :=
  view_report

theorem Blames.view (blames : a.Blames b) : a.view.Blames b.view := by
  obtain ⟨more, told, x, member, error⟩ := blames
  exact ⟨more.toList, by simp [Analysis.view, told], x, Array.mem_toList_iff.2 member, error⟩

theorem Declaring.view {done : Bool} (formed : a.table.Formed)
    (declaring : a.Declaring d span done b) : a.view.Declared d b.view := by
  cases declaring with
  | unbuilt | refused =>
    rw [view_refuse]
    exact .refused rfl
  | @landed _ t built declared =>
    have quiet : { a with table := t, declared := a.declared + 1 }.view = { a.view with
        table := t, declared := a.declared + 1, diagnostics := a.view.diagnostics ++ [] } := by
      simp [view]
    rw [quiet]
    exact .landed built (formed.step_declare declared) (List.forall_mem_nil _)
  | warned built declared =>
    rw [view_report]
    exact .landed built (formed.step_declare declared) (List.forall_mem_singleton.2 rfl)

theorem referred_resolve : a.view.Referred name (a.resolve name span).2.view := by
  unfold resolve
  split
  · next looked => exact .found looked
  · next looked =>
    rw [view_report]
    exact .unknown looked rfl rfl

def references (a : Analysis) : Nat × Nat := (a.resolved, a.unresolved)

theorem references_noteTransition (action : String) (id : Option ScopeId) :
    (a.noteTransition action id).references = a.references := by
  rw [noteTransition_eq]
  rfl

theorem references_opened? (entered : Except TableError ScopeId × Table) (o : Opened)
    (action : String) : (a.opened? entered o action span).2.references = a.references := by
  rcases entered with ⟨err | id, t⟩
  · rfl
  · exact references_noteTransition action (some id)

theorem references_begins (begins : call.begins = true) :
    (a.apply call).2.references = a.references := by
  cases call with
  | beginProgram name span =>
    simp only [apply, beginProgram, Prod.map]
    split
    · rfl
    · split
      · rfl
      · split <;> exact references_noteTransition _ _
  | beginProcedure name span =>
    simp only [apply, beginProcedure, Prod.map]
    split <;> exact references_opened? _ _ _
  | beginBlock => exact references_opened? _ _ _
  | endScope | endProgram | declare | resolve => cases begins

theorem Act.view_begun (act : Act a call answer b) (begins : call.begins = true)
    (same : b.references = a.references) : a.view.Begun b.view := by
  obtain ⟨resolved, unresolved⟩ := Prod.mk.inj same
  have begun : ∀ o t, b.standing = ⟨t, o :: a.opened, a.closed⟩ →
      (o ≠ .placeholder ∧ t.depth = a.table.depth + 1 ∨
        o = .placeholder ∧ t.depth = a.table.depth ∧ a.view.Blames b.view) →
      a.view.Begun b.view := by
    intro o t stands live
    obtain ⟨table, opened, closed⟩ := Standing.mk.inj stands
    subst table
    exact ⟨⟨o, opened, live⟩, congrArg Array.toList closed, resolved, unresolved⟩
  cases act with
  | refused begins' => cases begins'.symm.trans begins
  | resolved | declared | passed | ended | dropped | stuck | lost | finished => cases begins
  | begunProgram free step declares stands =>
    rw [← free] at stands
    exact begun _ _ stands (.inl ⟨nofun, declares.depth_eq.trans step.depth_entered⟩)
  | begunProcedure step step' stands =>
    refine begun _ _ stands (.inl ⟨nofun, ?_⟩)
    rw [step'.depth_entered, step.depth_declared.1]
  | begunBlock _ step stands => exact begun _ _ stands (.inl ⟨nofun, step.depth_entered⟩)
  | stoodIn _ _ declares blames stands =>
    exact begun _ _ stands (.inr ⟨rfl, declares.depth_eq, blames.view⟩)

theorem Blames.leaves (blames : a.Blames b) (stands : b.standing = a.standing) :
    a.view.Leaves b.view := by
  obtain ⟨table, opened, closed⟩ := Standing.mk.inj stands
  exact .refused opened table (congrArg Array.toList closed) blames.view

theorem leaves_closed {scope : ClosedScope} {t : Table} (opened : a.opened = o :: outer)
    (isReal : o ≠ .placeholder) (ids : a.table.ids = scope.id :: t.ids)
    (stands : b.standing = ⟨t, outer, a.closed.push scope⟩) : a.view.Leaves b.view := by
  obtain ⟨table, rest, closed⟩ := Standing.mk.inj stands
  have left : a.view.opened = o :: b.view.opened := opened.trans (congrArg (o :: ·) rest.symm)
  have popped : a.view.table.ids = scope.id :: b.view.table.ids :=
    ids.trans (congrArg (scope.id :: ·.ids) table.symm)
  exact .closed left isReal popped (by simp [view, closed])

theorem leaves_endProgram (act : Act a (.endProgram span) answer b)
    (opened : a.opened = [.program]) : a.view.Leaves b.view := by
  cases act with
  | refused _ blames stands => exact blames.leaves stands
  | begunBlock begins | stoodIn begins => cases begins
  | finished step stands =>
    refine leaves_closed opened nofun ?_ stands
    cases step with
    | finished alone => simp [Table.ids, alone, ClosedScope.ofScope, Scope.placed]

theorem Steady.leaves_endScope (steady : a.Steady) (going : a.halted = false)
    (act : Act a (.endScope span) answer b) (isReal : a.opened.head? ≠ some .placeholder) :
    a.view.Leaves b.view := by
  cases act with
  | refused _ blames stands => exact blames.leaves stands
  | begunBlock begins | stoodIn begins => cases begins
  | passed opened => exact absurd (congrArg List.head? opened) isReal
  | ended opened _ isReal step stands =>
    refine leaves_closed opened isReal ?_ stands
    cases step with
    | exited scopes => simp [Table.ids, scopes, ClosedScope.ofScope, Scope.placed]
  | dropped opened _ isReal _ blames stands | stuck opened _ isReal _ blames _ stands =>
    obtain ⟨-, rfl, closed⟩ := Standing.mk.inj stands
    exact .dropped opened isReal (congrArg Array.toList closed) blames.view
  | lost opened step =>
    have strays : a.Strays (.endScope span) := steady.strays opened (.inl ⟨_, step⟩)
    exact absurd strays.halted (Bool.eq_false_iff.1 going)

theorem counts_endProgram (a : Analysis) (span : Span) :
    (a.endProgram span).2.declared = a.declared ∧ (a.endProgram span).2.resolved = a.resolved ∧
      (a.endProgram span).2.unresolved = a.unresolved := by
  unfold endProgram
  split <;> exact ⟨rfl, rfl, rfl⟩

theorem Steady.ended (steady : a.Steady) (going : a.halted = false) (kind : s.kind = .close) :
    a.view.Ended (a.take s).view := by
  have formed := steady.based.formed
  by_cases placeholder : a.opened.head? = some .placeholder
  · obtain ⟨outer, opened⟩ := List.head?_eq_some_iff.1 placeholder
    rw [close_placeholder kind opened]
    exact ⟨.passed opened rfl, rfl, rfl, rfl⟩
  · simp only [Analysis.take, kind]
    split
    · next atProgram =>
      obtain ⟨declared, resolved, unresolved⟩ := a.counts_endProgram s.span
      have leaves := leaves_endProgram (Analysis.act formed (.endProgram s.span))
        (atProgram_iff.1 atProgram)
      exact ⟨leaves, declared, resolved, unresolved⟩
    · obtain ⟨declared, resolved, unresolved⟩ := (leaving formed s.span).counts
      have leaves := steady.leaves_endScope going (Analysis.act formed (.endScope s.span))
        placeholder
      exact ⟨leaves, declared, resolved, unresolved⟩

theorem Steady.heeds (steady : a.Steady) (going : a.halted = false) (valid : s.fault? = none) :
    a.view.Heeds s (a.take s).view := by
  have formed := steady.based.formed
  have begun : ∀ call : Call, call.begins = true → a.view.Begun (a.apply call).2.view :=
    fun call begins => (Analysis.act formed call).view_begun begins (references_begins begins)
  unfold View.Heeds
  cases kind : s.kind with
  | program =>
    simp only [Analysis.take, kind]
    exact begun (.beginProgram s.name s.span) rfl
  | procedure =>
    simp only [Analysis.take, kind]
    exact begun (.beginProcedure s.name s.span) rfl
  | block =>
    simp only [Analysis.take, kind]
    exact begun (.beginBlock s.span) rfl
  | close => exact steady.ended going kind
  | declare =>
    obtain ⟨d, given, gives⟩ := Step.gives_of_valid valid kind
    simp only [Analysis.take, kind, given]
    exact ⟨d, rfl, gives, (a.declaring d s.span).view formed⟩
  | resolve =>
    simp only [Analysis.take, kind]
    exact referred_resolve

end Analysis

namespace Trace

variable {t : Trace}

/-- No step of a trace that passed its check is ignored if the replay gets to it. -/
theorem replay_heeds (valid : t.check = .ok ()) (policy : Policy) (p : Preferences) (index : Nat)
    (executed : index < (t.replay policy p).executed) :
    ∃ s, t.steps[index]? = some s ∧
      (t.reached policy p index).view.Heeds s (t.reached policy p (index + 1)).view := by
  obtain ⟨going, s, event, found, next⟩ := reached_succ executed
  have steady := t.steady_reached policy p index
  have faultless := checkFrom_eq_ok.1 valid s (List.mem_of_getElem? found)
  refine ⟨s, found, ?_⟩
  rw [next]
  exact Analysis.Steady.heeds (a := (t.reached policy p index).note event)
    ⟨steady.based, steady.matched⟩ going faultless

end Trace

end

namespace Trace

def faultyBlock : Trace where
  steps := [
    { kind := .program, name? := some "m" },
    { kind := .block },
    { kind := .declare, name? := some "a", category := some .array, base := some .int },
    { kind := .resolve, name? := some "b" },
    { kind := .close },
    { kind := .close } ]

theorem faultyBlock_heeds :
    faultyBlock.check = .ok () ∧ (faultyBlock.replay {} {}).executed = 6 ∧
      (faultyBlock.replay {} {}).report.diagnostics.map (·.code) = [.undeclared, .incompleteEntry] ∧
      ∀ index (inside : index < faultyBlock.steps.length),
        (faultyBlock.reached {} {} index).view.Heeds faultyBlock.steps[index]
          (faultyBlock.reached {} {} (index + 1)).view := by
  have valid : faultyBlock.check = .ok () := by decide
  have executed : (faultyBlock.replay {} {}).executed = 6 := by decide +kernel
  refine ⟨valid, executed, by decide +kernel, fun index inside => ?_⟩
  obtain ⟨s, found, heeds⟩ := replay_heeds valid {} {} index (executed.symm ▸ inside)
  obtain rfl : faultyBlock.steps[index] = s := by
    rw [List.getElem?_eq_getElem inside] at found
    exact Option.some.inj found
  exact heeds

end Trace

end ScopeFrames
