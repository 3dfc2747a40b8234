import ScopeFrames.Trace.Replay

/-!
Steps that find nothing wrong.  What such a step does to an analysis, up to its events, is a
relation on views.  A replay is clean if its steps are related one after the other and nothing is
left open.
-/

namespace ScopeFrames

variable [Limits]

def Preferences.hides (p : Preferences) (hidden : Option Nat) (name : String) (span : Span)
    (level : Option Nat) : List Diagnostic :=
  if p.warnOnShadowing then hidden.toList.map (.shadowed name · span level) else []

/-- An analysis without what it tells. -/
structure View where
  table : Table
  preferences : Preferences
  opened : List Opened := []
  closed : List ClosedScope := []
  diagnostics : List Diagnostic := []
  declared : Nat := 0
  resolved : Nat := 0
  unresolved : Nat := 0

namespace View

def Closes (v w : View) : Prop :=
  match v.opened with
  | [.program] => ∃ scope t, v.table.finish = (.ok scope, t) ∧
      w = { v with table := t, opened := [], closed := v.closed ++ [scope] }
  | .placeholder :: outer => w = { v with opened := outer }
  | [] | .program :: _ => ∃ scope t, v.table.exit = (.ok scope, t) ∧ w = { v with table := t }
  | _ :: outer => ∃ scope t, v.table.exit = (.ok scope, t) ∧
      w = { v with table := t, opened := outer, closed := v.closed ++ [scope] }

/-- A step that meets no error takes one view to another. -/
def Takes (v : View) (s : Step) (w : View) : Prop :=
  match s.kind with
  | .program => ∃ id t t', v.opened = [] ∧ v.table.enter = (.ok id, t) ∧
      t.declare (.program s.name) = (.ok (), t') ∧
      w = { v with table := t', opened := [.program], declared := v.declared + 1 }
  | .procedure => ∃ id t t', v.table.declare (.procedure s.name) = (.ok (), t) ∧
      t.enterProcedure s.name = (.ok id, t') ∧
      w = { v with
        table := t', opened := .procedure s.name :: v.opened, declared := v.declared + 1 }
  | .block => ∃ id t, v.table.enter = (.ok id, t) ∧
      w = { v with table := t, opened := .block :: v.opened }
  | .close => v.Closes w
  | .declare =>
    match s.declaration? with
    | none => w = v
    | some d => ∃ e t, d.entry = .ok e ∧ v.table.declare e = (.ok (), t) ∧
        w = { v with
          table := t, declared := v.declared + 1
          diagnostics := v.diagnostics ++ v.preferences.hides
            ((v.table.lookup? d.name).map (·.2)) d.name s.span t.level? }
  | .resolve => ∃ found, v.table.lookup? s.name = some found ∧
      w = { v with resolved := v.resolved + 1 }

def start (policy : Policy) (preferences : Preferences) : View :=
  { table := { policy }, preferences }

def report (v : View) : Report where
  scopes := v.closed
  diagnostics := v.diagnostics
  declared := v.declared
  resolved := v.resolved
  unresolved := v.unresolved

def Path : View → List Step → View → Prop
  | v, [], w => w = v
  | v, s :: steps, w => ∃ u, v.Takes s u ∧ u.Path steps w

@[simp] theorem path_nil {v w : View} : v.Path [] w ↔ w = v := Iff.rfl

@[simp] theorem path_cons {v w : View} {s : Step} {steps : List Step} :
    v.Path (s :: steps) w ↔ ∃ u, v.Takes s u ∧ u.Path steps w := Iff.rfl

@[simp] theorem path_append {v w : View} {front back : List Step} :
    v.Path (front ++ back) w ↔ ∃ u, v.Path front u ∧ u.Path back w := by
  induction front generalizing v with
  | nil => simp
  | cons s front ih =>
    simp only [List.cons_append, path_cons, ih]
    constructor
    · rintro ⟨u, takes, x, path, path'⟩
      exact ⟨x, ⟨u, takes, path⟩, path'⟩
    · rintro ⟨x, ⟨u, takes, path⟩, path'⟩
      exact ⟨u, takes, x, path, path'⟩

end View

namespace Analysis

variable {a : Analysis} {v : View} {s : Step} {e : TableError} {d : Diagnostic} {o : Opened}
  {name : String} {span : Span}

def view (a : Analysis) : View where
  table := a.table
  preferences := a.preferences
  opened := a.opened
  closed := a.closed.toList
  diagnostics := a.diagnostics.toList
  declared := a.declared
  resolved := a.resolved
  unresolved := a.unresolved

def Quiet (a : Analysis) : Prop := a.halted = false ∧ ∀ d ∈ a.diagnostics, d.isError = false

def Shows (a : Analysis) (v : View) : Prop := a.Quiet ∧ a.view = v

theorem quiet_report : (a.report d).Quiet ↔ a.Quiet ∧ d.isError = false := by
  simp only [Quiet, report, note, Array.mem_push]
  constructor
  · rintro ⟨running, calm⟩
    have warning := calm d (.inr rfl)
    simp only [warning, Bool.false_and, Bool.or_false] at running
    exact ⟨⟨running, fun d' member => calm d' (.inl member)⟩, warning⟩
  · rintro ⟨⟨running, calm⟩, warning⟩
    refine ⟨by simp [running, warning], ?_⟩
    rintro d' (member | rfl)
    · exact calm d' member
    · exact warning

theorem not_quiet_refuse : ¬ (a.refuse e span).Quiet := by
  rintro ⟨-, calm⟩
  have error := calm (.refused e span a.table.level?) (by simp [refuse, report])
  cases error

theorem not_shows_refuse : ¬ (a.refuse e span).Shows v := fun shows => not_quiet_refuse shows.1

theorem not_shows_opening : ¬ ((a.refuse e span).opening o).Shows v :=
  fun shows => not_quiet_refuse shows.1

theorem beginProgram_shows :
    (a.beginProgram name span).2.Shows v ↔ a.Quiet ∧ ∃ id t t', a.opened = [] ∧
      a.table.enter = (.ok id, t) ∧ t.declare (.program name) = (.ok (), t') ∧
      v = { a.view with table := t', opened := [.program], declared := a.declared + 1 } := by
  unfold beginProgram
  by_cases free : a.opened = []
  · rw [if_neg (by simpa using free)]
    rcases entered : a.table.enter with ⟨err | id, t⟩
    · simpa using not_shows_opening
    · simp only
      rw [noteTransition_eq]
      rcases declared : t.declare (.program name) with ⟨err | ⟨⟩, t'⟩
      · simp only [opening, declared]
        constructor
        · exact fun shows => absurd shows not_shows_refuse
        · rintro ⟨_, _, _, _, _, ⟨⟩, declared', _⟩
          cases declared.symm.trans declared'
      · simp only [opening, declared, free]
        constructor
        · rintro ⟨quiet, rfl⟩
          exact ⟨quiet, id, t, t', trivial, rfl, declared, rfl⟩
        · rintro ⟨quiet, _, _, _, _, ⟨⟩, declared', rfl⟩
          cases declared.symm.trans declared'
          exact ⟨quiet, rfl⟩
  · rw [if_pos (by simpa using free)]
    simpa [free] using not_shows_opening

theorem opened?_shows {entered : Except TableError ScopeId × Table} {action : String} :
    (a.opened? entered o action span).2.Shows v ↔ a.Quiet ∧ ∃ id t, entered = (.ok id, t) ∧
      v = { a.view with table := t, opened := o :: a.opened } := by
  rcases entered with ⟨err | id, t⟩
  · simpa [opened?] using not_shows_opening
  · simp only [opened?]
    rw [noteTransition_eq]
    constructor
    · rintro ⟨quiet, rfl⟩
      exact ⟨quiet, id, t, rfl, rfl⟩
    · rintro ⟨quiet, _, _, ⟨⟩, rfl⟩
      exact ⟨quiet, rfl⟩

theorem beginProcedure_shows :
    (a.beginProcedure name span).2.Shows v ↔ a.Quiet ∧ ∃ id t t',
      a.table.declare (.procedure name) = (.ok (), t) ∧ t.enterProcedure name = (.ok id, t') ∧
      v = { a.view with
        table := t', opened := .procedure name :: a.opened, declared := a.declared + 1 } := by
  rcases declared : a.table.declare (.procedure name) with ⟨err | ⟨⟩, t⟩
  · simp only [beginProcedure, declared, opened?_shows]
    constructor
    · rintro ⟨quiet, -⟩
      exact absurd quiet not_quiet_refuse
    · rintro ⟨_, _, _, _, ⟨⟩, _⟩
  · simp only [beginProcedure, declared, opened?_shows]
    constructor
    · rintro ⟨quiet, id, t', entered, rfl⟩
      exact ⟨quiet, id, t, t', rfl, entered, rfl⟩
    · rintro ⟨quiet, id, _, t', ⟨⟩, entered, rfl⟩
      exact ⟨quiet, id, t', entered, rfl⟩

theorem endProgram_shows :
    (a.endProgram span).2.Shows v ↔ a.Quiet ∧ ∃ scope t, a.table.finish = (.ok scope, t) ∧
      v = { a.view with table := t, opened := [], closed := a.view.closed ++ [scope] } := by
  rcases finished : a.table.finish with ⟨err | scope, t⟩
  · simpa [endProgram, finished] using not_shows_refuse
  · simp only [endProgram, finished, note]
    constructor
    · rintro ⟨quiet, rfl⟩
      exact ⟨quiet, scope, t, rfl, by simp [view]⟩
    · rintro ⟨quiet, _, _, ⟨⟩, rfl⟩
      exact ⟨quiet, by simp [view]⟩

theorem endScope_placeholder {outer : List Opened} (opened : a.opened = .placeholder :: outer) :
    (a.endScope span).2.Shows v ↔ a.Quiet ∧ v = { a.view with opened := outer } := by
  simp only [endScope, opened]
  exact and_congr_right fun _ => eq_comm

theorem endScope_lost (opened : a.opened = [] ∨ ∃ outer, a.opened = .program :: outer) :
    (a.endScope span).2.Shows v ↔ a.Quiet ∧ ∃ scope t, a.table.exit = (.ok scope, t) ∧
      v = { a.view with table := t } := by
  rcases exited : a.table.exit with ⟨err | scope, t⟩
  · have refused : (a.endScope span).2 = { a with table := t }.refuse err span := by
      rcases opened with opened | ⟨_, opened⟩ <;> simp only [endScope, opened, exited]
    rw [refused]
    simpa using not_shows_refuse
  · have lost : (a.endScope span).2 = { a with table := t } := by
      rcases opened with opened | ⟨_, opened⟩ <;> simp only [endScope, opened, exited]
    rw [lost]
    constructor
    · rintro ⟨quiet, rfl⟩
      exact ⟨quiet, scope, t, rfl, rfl⟩
    · rintro ⟨quiet, _, _, ⟨⟩, rfl⟩
      exact ⟨quiet, rfl⟩

theorem endScope_shows {outer : List Opened} (opened : a.opened = o :: outer)
    (nested : o ≠ .program) (real : o ≠ .placeholder) :
    (a.endScope span).2.Shows v ↔ a.Quiet ∧ ∃ scope t, a.table.exit = (.ok scope, t) ∧
      v = { a.view with table := t, opened := outer, closed := a.view.closed ++ [scope] } := by
  cases o with
  | program => exact absurd rfl nested
  | placeholder => exact absurd rfl real
  | procedure _ | block =>
    rcases exited : a.table.exit with ⟨err | scope, t⟩
    · simp only [endScope, opened, exited]
      constructor
      · intro shows
        split at shows <;> exact absurd shows.1 not_quiet_refuse
      · rintro ⟨_, _, _, ⟨⟩, _⟩
    · simp only [endScope, opened, exited, note]
      rw [noteTransition_eq]
      constructor
      · rintro ⟨quiet, rfl⟩
        exact ⟨quiet, scope, t, rfl, by simp [view]⟩
      · rintro ⟨quiet, _, _, ⟨⟩, rfl⟩
        exact ⟨quiet, by simp [view]⟩

theorem declare_shows {declaration : Declaration} :
    (a.declare declaration span).2.Shows v ↔ a.Quiet ∧ ∃ entry t, declaration.entry = .ok entry ∧
      a.table.declare entry = (.ok (), t) ∧
      v = { a.view with
        table := t, declared := a.declared + 1
        diagnostics := a.view.diagnostics ++ a.preferences.hides
          ((a.table.lookup? declaration.name).map (·.2)) declaration.name span t.level? } := by
  rcases built : declaration.entry with err | entry
  · simpa [declare, built] using not_shows_refuse
  · rcases declared : a.table.declare entry with ⟨err | ⟨⟩, t⟩
    · simpa [declare, built, declared] using not_shows_refuse
    · have shown : (a.declare declaration span).2.Shows v ↔ a.Quiet ∧ { a.view with
          table := t, declared := a.declared + 1
          diagnostics := a.view.diagnostics
            ++ a.preferences.hides ((a.table.lookup? declaration.name).map (·.2)) declaration.name
              span t.level? } = v := by
        simp only [declare, built, declared, Preferences.hides]
        cases a.table.lookup? declaration.name with
        | none => simp [Shows, view, Quiet]
        | some found =>
          simp only [Option.map_some]
          split
          · refine and_congr (quiet_report.trans (and_iff_left rfl))
              (iff_of_eq (congrArg (· = v) ?_))
            simp [view, report, note]
          · simp [Shows, view, Quiet]
      rw [shown]
      constructor
      · rintro ⟨quiet, rfl⟩
        exact ⟨quiet, entry, t, rfl, declared, rfl⟩
      · rintro ⟨quiet, _, _, ⟨⟩, declared', rfl⟩
        cases declared.symm.trans declared'
        exact ⟨quiet, rfl⟩

theorem resolve_shows :
    (a.resolve name span).2.Shows v ↔ a.Quiet ∧ ∃ found, a.table.lookup? name = some found ∧
      v = { a.view with resolved := a.resolved + 1 } := by
  cases looked : a.table.lookup? name with
  | none =>
    simp only [resolve, looked]
    constructor
    · rintro ⟨quiet, -⟩
      cases (quiet_report.1 quiet).2
    · rintro ⟨_, _, ⟨⟩, _⟩
  | some found =>
    simp only [resolve, looked]
    constructor
    · rintro ⟨quiet, rfl⟩
      exact ⟨quiet, found, rfl, rfl⟩
    · rintro ⟨quiet, _, _, rfl⟩
      exact ⟨quiet, rfl⟩

theorem close_shows :
    (if a.atProgram then (a.endProgram span).2 else (a.endScope span).2).Shows v ↔
      a.Quiet ∧ a.view.Closes v := by
  match opened : a.opened with
  | [.program] =>
    rw [if_pos (by simp [atProgram, opened]), endProgram_shows]
    simp only [View.Closes, opened, view]
  | .placeholder :: outer =>
    rw [if_neg (by simp [atProgram, opened]), endScope_placeholder opened]
    simp only [View.Closes, opened, view]
  | [] =>
    rw [if_neg (by simp [atProgram, opened]), endScope_lost (.inl opened)]
    simp only [View.Closes, opened, view]
  | .program :: o :: outer =>
    rw [if_neg (by simp [atProgram, opened]), endScope_lost (.inr ⟨_, opened⟩)]
    simp only [View.Closes, opened, view]
  | .procedure name :: outer =>
    rw [if_neg (by simp [atProgram, opened]), endScope_shows opened nofun nofun]
    simp only [View.Closes, opened, view]
  | .block :: outer =>
    rw [if_neg (by simp [atProgram, opened]), endScope_shows opened nofun nofun]
    simp only [View.Closes, opened, view]

theorem take_shows : (a.take s).Shows v ↔ a.Quiet ∧ a.view.Takes s v := by
  unfold take View.Takes
  cases s.kind with
  | program => exact beginProgram_shows
  | procedure => exact beginProcedure_shows
  | block => exact opened?_shows
  | close => exact close_shows
  | declare =>
    cases s.declaration? with
    | none => exact and_congr_right fun _ => eq_comm
    | some d => exact declare_shows
  | resolve => exact resolve_shows

end Analysis

namespace Run

theorem through_shows {steps : List Step} {r : Run} {v : View} :
    (through steps r).analysis.Shows v ↔ r.analysis.Quiet ∧ r.analysis.view.Path steps v := by
  induction steps generalizing r with
  | nil => exact and_congr_right fun _ => eq_comm
  | cons s steps ih =>
    unfold through
    split
    · next halted =>
      simp [Analysis.Shows, Analysis.Quiet, halted]
    · simp only [ih, View.path_cons]
      constructor
      · rintro ⟨quiet, path⟩
        obtain ⟨quiet, takes⟩ := Analysis.take_shows.1 ⟨quiet, rfl⟩
        exact ⟨quiet, _, takes, path⟩
      · rintro ⟨quiet, u, takes, path⟩
        obtain ⟨quiet, rfl⟩ := (Analysis.take_shows (a := r.announce s)).2 ⟨quiet, takes⟩
        exact ⟨quiet, path⟩

end Run

namespace Trace

variable {t : Trace} {policy : Policy} {preferences : Preferences}

theorem isClean_iff_quiet : (t.replay policy preferences).isClean = true ↔
    (t.run policy preferences).analysis.Quiet ∧
      (t.run policy preferences).analysis.opened = [] := by
  have calm : (t.replay policy preferences).report.hasErrors = false ↔
      ∀ d ∈ (t.run policy preferences).analysis.diagnostics, d.isError = false := by
    simp [Report.hasErrors, Report.errorCount, replay, Replay.of, Analysis.summarize]
  simp only [Replay.isClean, Bool.and_eq_true, Bool.not_eq_true', calm, beq_iff_eq, Analysis.Quiet]
  rw [and_comm (a := ∀ d ∈ _, _)]
  exact and_congr_right fun _ => List.length_eq_zero_iff

variable {v : View}

theorem run_shows : (t.run policy preferences).analysis.Shows v ↔
    (View.start policy preferences).Path t.steps v := by
  have quiet : (Analysis.start policy preferences).Quiet := ⟨rfl, by simp [Analysis.start]⟩
  exact Run.through_shows.trans (and_iff_right quiet)

theorem isClean_iff_path : (t.replay policy preferences).isClean = true ↔
    ∃ v, (View.start policy preferences).Path t.steps v ∧ v.opened = [] := by
  rw [isClean_iff_quiet]
  constructor
  · rintro ⟨quiet, closed⟩
    exact ⟨_, run_shows.1 ⟨quiet, rfl⟩, closed⟩
  · rintro ⟨v, path, closed⟩
    obtain ⟨quiet, rfl⟩ := run_shows.2 path
    exact ⟨quiet, closed⟩

theorem report_of_path (path : (View.start policy preferences).Path t.steps v) :
    (t.replay policy preferences).report = v.report := by
  obtain ⟨-, rfl⟩ := run_shows.2 path
  rfl

end Trace

end ScopeFrames
