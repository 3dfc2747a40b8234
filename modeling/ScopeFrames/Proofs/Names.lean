import ScopeFrames.Proofs.Renaming
import ScopeFrames.Proofs.Running

namespace ScopeFrames

variable {r : String → String}

def Opened.rename (r : String → String) : Opened → Opened
  | .procedure name => .procedure (r name)
  | o => o

def Declaration.rename (r : String → String) : Declaration → Declaration
  | .simple name category => .simple (r name) category
  | .array name base bounds => .array (r name) base bounds

def Step.rename (r : String → String) (s : Step) : Step := { s with name? := s.name?.map r }

def Trace.rename (r : String → String) (t : Trace) : Trace :=
  { t with steps := t.steps.map (Step.rename r) }

def Diagnostic.verdict (d : Diagnostic) : Code × Bool × Option Nat := (d.code, d.isError, d.level)

theorem Declaration.name_rename (d : Declaration) : (d.rename r).name = r d.name := by
  cases d <;> rfl

theorem Declaration.entry_rename (d : Declaration) :
    Echoes (Entry.rename r) d.entry (d.rename r).entry := by
  match d with
  | .simple .. | .array _ _ none => exact .ok
  | .array name base (some (start, stop)) =>
    simp only [rename, entry]
    cases Bounds.between start stop with
    | ok => exact .ok
    | error => exact .error rfl

section

variable [Limits]

namespace Step

theorem name_rename (names : Renaming r) (s : Step) : (s.rename r).name = r s.name := by
  cases named : s.name? <;> simp [name, rename, named, names.empty]

theorem declaration?_rename (names : Renaming r) (s : Step) :
    (s.rename r).declaration? = s.declaration?.map (Declaration.rename r) := by
  unfold declaration?
  rw [name_rename names]
  simp only [rename]
  split <;> rfl

end Step

namespace Analysis

structure Renames (r : String → String) (a b : Analysis) : Prop where
  table : b.table = a.table.rename r
  preferences : b.preferences = a.preferences
  opened : b.opened = a.opened.map (Opened.rename r)
  closed : b.closed = a.closed.map (ClosedScope.rename r)
  diagnostics : b.diagnostics.map (·.verdict) = a.diagnostics.map (·.verdict)
  declared : b.declared = a.declared
  resolved : b.resolved = a.resolved
  unresolved : b.unresolved = a.unresolved
  halted : b.halted = a.halted

variable {a b : Analysis} {d d' : Diagnostic} {e e' : TableError} {span span' : Span}

theorem renames_start (policy : Policy) (preferences : Preferences) :
    (start policy preferences).Renames r (start policy preferences) :=
  ⟨rfl, rfl, rfl, by simp [start], rfl, rfl, rfl, rfl, rfl⟩

namespace Renames

theorem atProgram (renames : a.Renames r b) : b.atProgram = a.atProgram := by
  unfold Analysis.atProgram
  rw [renames.opened]
  match a.opened with
  | [] | [.program] | [.procedure _] | [.block] | [.placeholder] | _ :: _ :: _ =>
    simp [Opened.rename]

theorem level (renames : a.Renames r b) : b.table.level? = a.table.level? := by
  rw [renames.table, Table.rename_level?]

theorem note (renames : a.Renames r b) (event event' : Event) :
    (a.note event).Renames r (b.note event') :=
  ⟨renames.table, renames.preferences, renames.opened, renames.closed, renames.diagnostics,
    renames.declared, renames.resolved, renames.unresolved, renames.halted⟩

theorem noteTransition (renames : a.Renames r b) (action : String) (id : Option ScopeId) :
    (a.noteTransition action id).Renames r (b.noteTransition action id) := by
  rw [a.noteTransition_eq, b.noteTransition_eq]
  exact ⟨renames.table, renames.preferences, renames.opened, renames.closed, renames.diagnostics,
    renames.declared, renames.resolved, renames.unresolved, renames.halted⟩

theorem opening (renames : a.Renames r b) (o : Opened) :
    (a.opening o).Renames r (b.opening (o.rename r)) :=
  { renames with opened := congrArg (o.rename r :: ·) renames.opened }

theorem move (renames : a.Renames r b) (t : Table) :
    Renames r { a with table := t } { b with table := t.rename r } :=
  { renames with table := rfl }

theorem report (renames : a.Renames r b) (same : d'.verdict = d.verdict) :
    (a.report d).Renames r (b.report d') :=
  { renames with
    diagnostics := by
      simp [Analysis.report, Analysis.note, renames.diagnostics, same]
    halted := by
      have isError : d'.isError = d.isError := congrArg (·.2.1) same
      simp [Analysis.report, Analysis.note, renames.halted, renames.preferences, isError] }

theorem refuse (renames : a.Renames r b) (same : e'.code = e.code) :
    (a.refuse e span).Renames r (b.refuse e' span') := by
  have verdict : (Diagnostic.refused e' span' b.table.level?).verdict =
      (Diagnostic.refused e span a.table.level?).verdict := by
    simp [Diagnostic.verdict, Diagnostic.refused, same, renames.level]
  have reported := renames.report verdict
  have halts : e'.halts = e.halts := congrArg Code.halts same
  exact { reported with halted := congrArg₂ (· || ·) reported.halted halts }

theorem blocked (renames : a.Renames r b) (same : e'.code = e.code) :
    ((a.refuse e span).opening .placeholder).Renames r
      ((b.refuse e' span').opening .placeholder) :=
  (renames.refuse same).opening .placeholder

theorem opened? (renames : a.Renames r b) {entered entered' : Except TableError ScopeId × Table}
    (mirrors : Mirrors r id entered entered') (o : Opened) (action : String) :
    (a.opened? entered o action span).2.Renames r
      (b.opened? entered' (o.rename r) action span').2 := by
  cases mirrors with
  | ok => exact ((renames.move _).opening o).noteTransition action _
  | error same => exact (renames.move _).blocked same

theorem close (renames : a.Renames r b) (c : ClosedScope) :
    Renames r { a with closed := a.closed.push c }
      { b with closed := b.closed.push (c.rename r) } :=
  { renames with closed := by simp [renames.closed] }

theorem count (renames : a.Renames r b) (t : Table) :
    Renames r { a with table := t, declared := a.declared + 1 }
      { b with table := t.rename r, declared := b.declared + 1 } :=
  { renames with
    table := rfl
    declared := congrArg (· + 1) renames.declared }

theorem enter (renames : a.Renames r b) : Mirrors r id a.table.enter b.table.enter := by
  rw [renames.table]
  exact Table.enter_rename

theorem abandon (renames : a.Renames r b) :
    Mirrors r (Scope.rename r) a.table.abandon b.table.abandon := by
  rw [renames.table]
  exact Table.abandon_rename

theorem beginBlock (renames : a.Renames r b) :
    (a.beginBlock span).2.Renames r (b.beginBlock span').2 :=
  renames.opened? renames.enter .block _

variable (names : Renaming r)
include names

theorem land (renames : a.Renames r b) (entry : Entry) :
    Mirrors r id (a.table.declare entry) (b.table.declare (entry.rename r)) := by
  rw [renames.table]
  exact Table.declare_rename names entry

theorem exit (renames : a.Renames r b) :
    Mirrors r (ClosedScope.rename r) a.table.exit b.table.exit := by
  rw [renames.table]
  exact Table.exit_rename names

theorem finish (renames : a.Renames r b) :
    Mirrors r (ClosedScope.rename r) a.table.finish b.table.finish := by
  rw [renames.table]
  exact Table.finish_rename names

theorem lookup? (renames : a.Renames r b) (name : String) :
    b.table.lookup? (r name) = (a.table.lookup? name).map (Prod.map (Entry.rename r) id) := by
  rw [renames.table, Table.lookup?_rename names]

theorem beginProgram (renames : a.Renames r b) (name : String) :
    (a.beginProgram name span).2.Renames r (b.beginProgram (r name) span').2 := by
  have free : b.opened.isEmpty = a.opened.isEmpty := by simp [renames.opened]
  simp only [Analysis.beginProgram, free]
  split
  · exact renames.blocked rfl
  · refine renames.enter.casesOn (fun {id t} => ?_) (renames.move _).blocked
    have opened := (renames.move t).opening .program
    have begun := opened.noteTransition "Entered program scope" (some id)
    simp only
    exact (begun.land names (.program name)).casesOn (begun.count _) (begun.move _).refuse

theorem beginProcedure (renames : a.Renames r b) (name : String) :
    (a.beginProcedure name span).2.Renames r (b.beginProcedure (r name) span').2 := by
  simp only [Analysis.beginProcedure]
  refine (renames.land names (.procedure name)).casesOn (fun {_ t} => ?_) fun {e e' t} same => ?_
  · exact (renames.count t).opened? (Table.enterProcedure_rename names name) (.procedure name) _
  · have refused : Renames r ({ a with table := t }.refuse e span)
        ({ b with table := t.rename r }.refuse e' span') :=
      (renames.move t).refuse same
    exact refused.opened? refused.enter .block _

theorem endScope (renames : a.Renames r b) :
    (a.endScope span).2.Renames r (b.endScope span').2 := by
  have left : ∀ outer, Renames r { a with opened := outer }
      { b with opened := outer.map (Opened.rename r) } :=
    fun outer => { renames with opened := rfl }
  simp only [Analysis.endScope, renames.opened]
  rcases a.opened with _ | ⟨_ | name | _ | _, outer⟩
  case nil => exact (renames.exit names).casesOn ((left []).move _) ((left []).move _).refuse
  case cons.program =>
    have left := left (.program :: outer)
    exact (renames.exit names).casesOn (left.move _) (left.move _).refuse
  case cons.placeholder => exact left outer
  all_goals
    simp only [List.map, Opened.rename]
    refine ((left outer).exit names).casesOn (fun {scope t} => ?_) fun {e e' t} same => ?_
    · exact (((left outer).move t).note _ _).close scope |>.noteTransition _ none
    · have refused : Renames r ({ a with opened := outer, table := t }.refuse e span)
          ({ b with opened := outer.map (Opened.rename r), table := t.rename r }.refuse e' span') :=
        ((left outer).move t).refuse same
      simp only
      exact refused.abandon.casesOn (refused.move _) fun _ => (refused.move _).note _ _

theorem endProgram (renames : a.Renames r b) :
    (a.endProgram span).2.Renames r (b.endProgram span').2 := by
  simp only [Analysis.endProgram]
  refine (renames.finish names).casesOn (fun {scope t} => ?_) (renames.move _).refuse
  have ended : Renames r { a with table := t, opened := [] }
      { b with table := t.rename r, opened := [] } :=
    { renames with table := rfl, opened := rfl }
  exact (ended.note _ _).close scope

theorem declare (renames : a.Renames r b) (d : Declaration) :
    (a.declare d span).2.Renames r (b.declare (d.rename r) span').2 := by
  have outer : (b.table.lookup? (d.rename r).name).map (·.2) =
      (a.table.lookup? d.name).map (·.2) := by
    rw [Declaration.name_rename, renames.lookup? names, Option.map_map]
    rfl
  have warns : b.preferences.warnOnShadowing = a.preferences.warnOnShadowing :=
    congrArg (·.warnOnShadowing) renames.preferences
  simp only [Analysis.declare, outer, warns]
  refine (Declaration.entry_rename d).casesOn (fun {entry} => ?_) renames.refuse
  simp only
  refine (renames.land names entry).casesOn (fun {_ t} => ?_) (renames.move _).refuse
  have landed := renames.count t
  cases (a.table.lookup? d.name).map (·.2) with
  | none => exact landed
  | some level =>
    simp only
    split
    · refine landed.report ?_
      simp [Diagnostic.verdict, Diagnostic.shadowed]
    · exact landed

theorem resolve (renames : a.Renames r b) (name : String) :
    (a.resolve name span).2.Renames r (b.resolve (r name) span').2 := by
  simp only [Analysis.resolve, renames.lookup? names]
  cases a.table.lookup? name with
  | none =>
    have missed : Renames r { a with unresolved := a.unresolved + 1 }
        { b with unresolved := b.unresolved + 1 } :=
      { renames with unresolved := congrArg (· + 1) renames.unresolved }
    refine missed.report ?_
    simp [Diagnostic.verdict, Diagnostic.undeclared, renames.level]
  | some found => exact { renames with resolved := congrArg (· + 1) renames.resolved }

theorem take (renames : a.Renames r b) (s : Step) :
    (a.take s).Renames r (b.take (s.rename r)) := by
  unfold Analysis.take
  rw [Step.name_rename names, Step.declaration?_rename names, renames.atProgram]
  generalize (s.rename r).span = span'
  simp only [Step.rename]
  rcases s.kind with _ | _ | _ | _ | _ | _ <;> simp only
  case program => exact renames.beginProgram names s.name
  case procedure => exact renames.beginProcedure names s.name
  case block => exact renames.beginBlock
  case close =>
    split
    · exact renames.endProgram names
    · exact renames.endScope names
  case declare =>
    cases s.declaration? with
    | none => exact renames
    | some d => exact renames.declare names d
  case resolve => exact renames.resolve names s.name

end Renames

end Analysis

namespace Run

structure Renames (r : String → String) (run run' : Run) : Prop where
  executed : run'.executed = run.executed
  analysis : run.analysis.Renames r run'.analysis

variable {run run' : Run}

theorem Renames.advance (names : Renaming r) (renames : run.Renames r run') (s : Step) :
    (run.advance s).Renames r (run'.advance (s.rename r)) where
  executed := congrArg (· + 1) renames.executed
  analysis := (renames.analysis.note _ _).take names s

theorem Renames.through (names : Renaming r) (renames : run.Renames r run') (steps : List Step) :
    (through steps run).Renames r (through (steps.map (Step.rename r)) run') := by
  induction steps generalizing run run' with
  | nil => exact renames
  | cons s steps ih =>
    simp only [List.map_cons, Run.through, renames.analysis.halted]
    split
    · exact renames
    · exact ih (renames.advance names s)

end Run

structure Replay.Renames (r : String → String) (before after : Replay) : Prop where
  source : after.source = before.source
  total : after.total = before.total
  executed : after.executed = before.executed
  halted : after.halted = before.halted
  openScopes : after.openScopes = before.openScopes
  declared : after.report.declared = before.report.declared
  resolved : after.report.resolved = before.report.resolved
  unresolved : after.report.unresolved = before.report.unresolved
  diagnostics : after.report.diagnostics.map (·.verdict) =
    before.report.diagnostics.map (·.verdict)
  scopes : after.report.scopes = before.report.scopes.map (ClosedScope.rename r)

namespace Trace

/-- A replay of a trace under other names is the replay under other names. -/
theorem replay_rename (names : Renaming r) (t : Trace) (policy : Policy)
    (preferences : Preferences) :
    (t.replay policy preferences).Renames r ((t.rename r).replay policy preferences) := by
  have start : Run.Renames r { analysis := .start policy preferences }
      { analysis := .start policy preferences } :=
    ⟨rfl, Analysis.renames_start policy preferences⟩
  obtain ⟨executed, renames⟩ := start.through names t.steps
  have closed := congrArg Array.toList renames.closed
  have diagnostics := congrArg Array.toList renames.diagnostics
  rw [Array.toList_map] at closed
  rw [Array.toList_map, Array.toList_map] at diagnostics
  exact {
    source := rfl
    total := List.length_map _
    executed
    halted := renames.halted
    openScopes := (congrArg List.length renames.opened).trans (List.length_map _)
    declared := renames.declared
    resolved := renames.resolved
    unresolved := renames.unresolved
    diagnostics
    scopes := closed }

end Trace

end

namespace Trace

def sorting : Trace where
  steps := [
    { kind := .program, name? := some "sort" },
    { kind := .procedure, name? := some "quicksort" },
    { kind := .declare, name? := some "p", category := some .int },
    { kind := .resolve, name? := some "quicksort" },
    { kind := .close },
    { kind := .resolve, name? := some "p" },
    { kind := .declare, name? := some "quicksort", category := some .int },
    { kind := .close } ]

theorem sorting_rename :
    let r := Equiv.swap "p" "quicksort"
    Renaming r ∧ (sorting.replay {} {}).report.diagnostics.length = 2 ∧
      (sorting.replay {} {}).Renames r ((sorting.rename r).replay {} {}) := by
  intro r
  have names : Renaming r := .swap (by decide) (by decide) (by decide) (by decide)
  exact ⟨names, by decide +kernel, replay_rename names sorting {} {}⟩

end Trace

end ScopeFrames
