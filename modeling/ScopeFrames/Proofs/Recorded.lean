import ScopeFrames.Proofs.Call
import ScopeFrames.Proofs.Refusals

namespace ScopeFrames

namespace Declaration

variable {d : Declaration}

theorem entry_code {err : TableError} (failed : d.entry = .error err) :
    err.code = .invalidBounds := by
  match d with
  | .simple _ _ | .array _ _ none => cases failed
  | .array name base (some (start, stop)) =>
    simp only [entry] at failed
    split at failed
    · next refused =>
      cases failed
      rw [(Bounds.between_eq_error.1 refused).2]
      rfl
    · cases failed

theorem entry_unsized {e : Entry} (built : d.entry = .ok e) : e.frameSize = none := by
  match d with
  | .simple _ _ | .array _ _ none => cases built; rfl
  | .array name base (some (start, stop)) =>
    simp only [entry] at built
    split at built
    · cases built
    · cases built; rfl

end Declaration

namespace Analysis

namespace Call

def span : Call → Span
  | .beginProgram _ span | .beginProcedure _ span | .beginBlock span | .endScope span
  | .endProgram span | .declare _ span | .resolve _ span => span

def refusals : Call → List Code
  | .beginProgram .. | .beginBlock .. => [.limitExceeded]
  | .beginProcedure .. => Table.declareRefusals
  | .endScope .. | .endProgram .. => Table.closeRefusals
  | .declare .. => .invalidBounds :: Table.declareRefusals
  | .resolve .. => []

theorem refusals_ordinary (call : Call) :
    Code.unknownName ∉ call.refusals ∧ Code.invalidScopeOwner ∉ call.refusals := by
  cases call <;> simp only [refusals] <;> decide

end Call

section

variable [Limits]

inductive Recordable (a : Analysis) : Call → Diagnostic → Prop
  | refused {call e level} : e.code ∈ call.refusals →
      Recordable a call (.refused e call.span level)
  | misplaced {name span level} : a.opened ≠ [] →
      Recordable a (.beginProgram name span)
        (.refused (.invalidScopeOwner name "a program scope is already open") span level)
  | shadowed {d span e outer level} : a.preferences.warnOnShadowing = true →
      a.table.lookup? d.name = some (e, outer) →
      Recordable a (.declare d span) (.shadowed d.name outer span level)
  | undeclared {name span level} : a.table.lookup? name = none →
      Recordable a (.resolve name span) (.undeclared name span level)

variable {a b c : Analysis} {call : Call} {d : Diagnostic} {e : TableError} {t : Table}
  {op : Table.Operation} {o : Table.Outcome} {name : String} {span : Span}

theorem Recordable.code_mem (recordable : Recordable a call d) :
    d.code ∈ [.invalidScopeOwner, .shadowed, .undeclared] ∨ d.code ∈ call.refusals := by
  cases recordable with
  | refused code => exact .inr code
  | misplaced => exact .inl (.head _)
  | shadowed => exact .inl (.tail _ (.head _))
  | undeclared => exact .inl (.tail _ (.tail _ (.head _)))

theorem Recordable.known (recordable : Recordable a call d) : d.code ≠ .unknownName := by
  intro unknown
  rcases recordable.code_mem with own | refused
  · rw [unknown] at own
    exact absurd own (by decide)
  · exact call.refusals_ordinary.1 (unknown ▸ refused)

theorem Recordable.misplaced_of_code (recordable : Recordable a call d)
    (owner : d.code = .invalidScopeOwner) :
    (∃ name span, call = .beginProgram name span) ∧ 0 < a.opened.length := by
  cases recordable with
  | refused code => exact absurd (owner ▸ code) call.refusals_ordinary.2
  | misplaced busy => exact ⟨⟨_, _, rfl⟩, List.length_pos_iff.2 busy⟩
  | shadowed => exact absurd (show Code.shadowed = _ from owner) (by decide)
  | undeclared => exact absurd (show Code.undeclared = _ from owner) (by decide)

/-- What is true from the beginning of a call in `a` up to `b`. -/
structure Within (a : Analysis) (call : Call) (b : Analysis) : Prop where
  formed : b.table.Formed
  unclaimed : b.table.Unclaimed
  records : ∃ more, b.diagnostics = a.diagnostics ++ more ∧ ∀ d ∈ more, Recordable a call d

theorem within_start (formed : a.table.Formed) (unclaimed : a.table.Unclaimed) :
    Within a call a :=
  ⟨formed, unclaimed, #[], by simp, by simp⟩

namespace Within

variable {α : Type}

theorem same (within : Within a call b) (table : c.table = b.table)
    (diagnostics : c.diagnostics = b.diagnostics) : Within a call c :=
  ⟨table ▸ within.formed, table ▸ within.unclaimed, diagnostics ▸ within.records⟩

theorem operate {answer : α} (within : Within a call b) (op : Table.Operation)
    (spares : op.Spares b.table) (done : (b.table.apply op).2 = (answer, t).2) :
    Within a call { b with table := t } := by
  have step := within.formed.step op
  rw [done] at step
  exact ⟨step.formed within.formed, step.unclaimed within.unclaimed spares, within.records⟩

theorem exit {r : Except TableError ClosedScope} (within : Within a call b)
    (done : b.table.exit = (r, t)) : Within a call { b with table := t } :=
  within.operate .exit trivial (congrArg Prod.snd done :)

theorem finish {r : Except TableError ClosedScope} (within : Within a call b)
    (done : b.table.finish = (r, t)) : Within a call { b with table := t } :=
  within.operate .finish trivial (congrArg Prod.snd done :)

theorem abandon {r : Except TableError Scope} (within : Within a call b)
    (done : b.table.abandon = (r, t)) : Within a call { b with table := t } :=
  within.operate .abandon trivial (congrArg Prod.snd done :)

theorem declare {r : Except TableError Unit} {entry : Entry} (within : Within a call b)
    (unsized : entry.frameSize = none) (done : b.table.declare entry = (r, t)) :
    Within a call { b with table := t } :=
  within.operate (.declare entry) unsized (congrArg Prod.snd done :)

theorem report (within : Within a call b) (recordable : Recordable a call d) :
    Within a call (b.report d) := by
  obtain ⟨formed, unclaimed, more, told, all⟩ := within
  refine ⟨formed, unclaimed, more.push d, ?_, ?_⟩
  · simp [Analysis.report, note, told]
  · intro d' member
    rcases Array.mem_push.1 member with old | rfl
    · exact all d' old
    · exact recordable

theorem refuse (within : Within a call b) (code : e.code ∈ call.refusals) :
    Within a call (b.refuse e call.span) :=
  (within.report (.refused code)).same rfl rfl

theorem opened? {owner : Option String} {kind : Opened} {action : String}
    (within : Within a call b) (op : Table.Operation) (spares : op.Spares b.table)
    (does : (b.table.apply op).2 = (b.table.push owner).2)
    (limited : .limitExceeded ∈ call.refusals) :
    Within a call (b.opened? (b.table.push owner) kind action call.span).2 := by
  rcases pushed : b.table.push owner with ⟨err | id, t⟩
  · have refused : Within a call { b with table := t } :=
      within.operate op spares (does.trans (congrArg Prod.snd pushed))
    rw [← Table.push_refused pushed] at limited
    exact (refused.refuse limited).same rfl rfl
  · have entered : Within a call { b with table := t } :=
      within.operate op spares (does.trans (congrArg Prod.snd pushed))
    simp only [Analysis.opened?]
    rw [noteTransition_eq]
    exact entered.same rfl rfl

end Within

theorem within_beginProgram (start : Within a (.beginProgram name span) a) :
    Within a (.beginProgram name span) (a.apply (.beginProgram name span)).2 := by
  simp only [apply, beginProgram]
  split
  · next busy =>
    exact (start.report (.misplaced (by simpa using busy))).same rfl rfl
  · rcases entered : a.table.enter with ⟨err | id, t⟩
    · have refused := start.operate .enter trivial (congrArg Prod.snd entered :)
      exact (refused.refuse (Table.push_refused entered ▸ .head _)).same rfl rfl
    · obtain ⟨-, -, rfl⟩ := Table.push_eq_ok.1 entered
      have within := start.operate .enter trivial (congrArg Prod.snd entered :)
      dsimp only
      rw [noteTransition_eq]
      rcases declared : (a.table.pushed none).declare (.program name) with ⟨err | ⟨⟩, t⟩
      · have code := Table.declare_pushed_code declared
        simp only [opening, declared]
        exact ((within.declare rfl declared).refuse (code ▸ .head _)).same rfl rfl
      · simp only [opening, declared]
        exact (within.declare rfl declared).same rfl rfl

theorem within_beginProcedure (start : Within a (.beginProcedure name span) a) :
    Within a (.beginProcedure name span) (a.apply (.beginProcedure name span)).2 := by
  simp only [apply, beginProcedure]
  have limited : Code.limitExceeded ∈ (Call.beginProcedure name span).refusals :=
    .tail _ (.tail _ (.head _))
  rcases declared : a.table.declare (.procedure name) with ⟨err | ⟨⟩, t⟩
  · have refused := (start.declare rfl declared).refuse (Table.declare_code declared)
    exact refused.opened? .enter trivial rfl limited
  · have landed : Within a (.beginProcedure name span)
        { a with table := t, declared := a.declared + 1 } :=
      (start.declare rfl declared).same rfl rfl
    have step := start.formed.step_declare declared
    have opens : t.Opens name := step.opens_declared rfl rfl landed.formed
    have entered : t.enterProcedure name = t.push (some name) := Table.enterProcedure_eq opens
    simp only [entered]
    exact landed.opened? (.enterProcedure name) step.spares_procedure (congrArg Prod.snd entered :)
      limited

theorem within_beginBlock (start : Within a (.beginBlock span) a) :
    Within a (.beginBlock span) (a.apply (.beginBlock span)).2 :=
  start.opened? .enter trivial rfl (.head _)

theorem within_endScope (start : Within a (.endScope span) a) :
    Within a (.endScope span) (a.apply (.endScope span)).2 := by
  simp only [apply]
  unfold endScope
  split
  · exact start.same rfl rfl
  iterate 2
    · rcases exited : a.table.exit with ⟨err | scope, t⟩
      · have code := start.formed.exit_code exited
        exact ((start.exit exited).refuse code).same rfl rfl
      · exact (start.exit exited).same rfl rfl
  · rcases exited : a.table.exit with ⟨err | scope, t⟩
    · have refused := (start.exit exited).refuse (start.formed.exit_code exited)
      rcases abandoned : t.abandon with ⟨err' | scope, t'⟩
      · simp only [exited, Analysis.refuse, Analysis.report, note, abandoned]
        exact (refused.abandon abandoned).same rfl rfl
      · simp only [exited, Analysis.refuse, Analysis.report, note, abandoned]
        exact (refused.abandon abandoned).same rfl rfl
    · simp only [exited, Prod.map]
      rw [noteTransition_eq]
      exact (start.exit exited).same rfl rfl

theorem within_endProgram (start : Within a (.endProgram span) a) :
    Within a (.endProgram span) (a.apply (.endProgram span)).2 := by
  simp only [apply, endProgram]
  rcases finished : a.table.finish with ⟨err | scope, t⟩
  · have code := start.unclaimed.finish_code start.formed finished
    exact (start.finish finished).refuse code
  · exact (start.finish finished).same rfl rfl

theorem Declaring.within {d : Declaration} {done : Bool} (start : Within a (.declare d span) a)
    (declaring : a.Declaring d span done b) : Within a (.declare d span) b := by
  cases declaring with
  | unbuilt built =>
    have code := Declaration.entry_code built
    exact start.refuse (code ▸ .head _)
  | refused _ refused => exact start.refuse (.tail _ (Table.declare_code refused))
  | landed built declared =>
    exact (start.declare (Declaration.entry_unsized built) declared).same rfl rfl
  | warned built declared warns found =>
    have landed := start.declare (Declaration.entry_unsized built) declared
    exact (landed.report (.shadowed warns found)).same rfl rfl

theorem within_resolve (start : Within a (.resolve name span) a) :
    Within a (.resolve name span) (a.apply (.resolve name span)).2 := by
  simp only [apply, resolve]
  cases found : a.table.lookup? name with
  | none => exact (start.report (.undeclared found)).same rfl rfl
  | some => exact start.same rfl rfl

theorem within (formed : a.table.Formed) (unclaimed : a.table.Unclaimed) (call : Call) :
    Within a call (a.apply call).2 := by
  cases call with
  | beginProgram => exact within_beginProgram (within_start formed unclaimed)
  | beginProcedure => exact within_beginProcedure (within_start formed unclaimed)
  | beginBlock => exact within_beginBlock (within_start formed unclaimed)
  | endScope => exact within_endScope (within_start formed unclaimed)
  | endProgram => exact within_endProgram (within_start formed unclaimed)
  | declare d span => exact (a.declaring d span).within (within_start formed unclaimed)
  | resolve => exact within_resolve (within_start formed unclaimed)

structure Blameless (a : Analysis) : Prop where
  formed : a.table.Formed
  unclaimed : a.table.Unclaimed
  known : ∀ d ∈ a.diagnostics, d.code ≠ .unknownName

theorem blameless_start (policy : Policy) (preferences : Preferences) :
    Blameless (start policy preferences) :=
  ⟨Table.formed_empty policy, Table.unclaimed_empty policy, by simp [start]⟩

theorem Blameless.apply (blameless : Blameless a) (call : Call) :
    Blameless (a.apply call).2 := by
  obtain ⟨formed, unclaimed, more, told, all⟩ := within blameless.formed blameless.unclaimed call
  refine ⟨formed, unclaimed, fun d member => ?_⟩
  rw [told] at member
  rcases Array.mem_append.1 member with old | new
  · exact blameless.known d old
  · exact (all d new).known

theorem diagnostics_misplaced (busy : a.opened ≠ []) :
    (a.apply (.beginProgram name span)).2.diagnostics =
      a.diagnostics ++ #[.refused (.invalidScopeOwner name "a program scope is already open") span
        a.table.level?] := by
  simp [apply, beginProgram, busy, refuse, report, note, opening]

theorem Blameless.owner_iff (blameless : Blameless a) (call : Call) :
    ∃ more, (a.apply call).2.diagnostics = a.diagnostics ++ more ∧
      ((∃ d ∈ more, d.code = .invalidScopeOwner) ↔
        (∃ name span, call = .beginProgram name span) ∧ 0 < a.opened.length) := by
  obtain ⟨-, -, more, told, all⟩ := within blameless.formed blameless.unclaimed call
  refine ⟨more, told, ?_, ?_⟩
  · rintro ⟨d, member, owner⟩
    exact (all d member).misplaced_of_code owner
  · rintro ⟨⟨name, span, rfl⟩, busy⟩
    rw [diagnostics_misplaced (List.length_pos_iff.1 busy)] at told
    rw [← (Array.append_right_inj _).1 told]
    exact ⟨_, Array.mem_singleton.2 rfl, rfl⟩

/-- After any calls nothing was recorded of an unknown name, and any further call records a refused
owner exactly if it begins a program while something is open. -/
theorem refusals_after (policy : Policy) (preferences : Preferences) (calls : List Call) :
    let a := (start policy preferences).after calls
    (∀ d ∈ a.diagnostics, d.code ≠ .unknownName) ∧
      ∀ call, ∃ more, (a.apply call).2.diagnostics = a.diagnostics ++ more ∧
        ((∃ d ∈ more, d.code = .invalidScopeOwner) ↔
          (∃ name span, call = .beginProgram name span) ∧ 0 < a.opened.length) := by
  intro a
  have blameless : Blameless a :=
    after_induction (blameless_start policy preferences) fun _ call blameless =>
      blameless.apply call
  exact ⟨blameless.known, blameless.owner_iff⟩

end

example : ((start {} {}).after
    [ .beginProgram "m" .dummy, .declare (.simple "p" .program) .dummy, .beginProcedure "p" .dummy,
      .beginProgram "q" .dummy, .endScope .dummy, .endProgram .dummy ]).diagnostics.map (·.code) =
    #[.duplicateName, .invalidScopeOwner, .emptyStack] := by
  decide +kernel

end Analysis

end ScopeFrames
