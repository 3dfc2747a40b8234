import ScopeFrames.Proofs.Quiet
import ScopeFrames.Proofs.Running

namespace ScopeFrames

@[simp] theorem Preferences.hides_none (p : Preferences) (name : String) (span : Span)
    (level : Option Nat) : p.hides none name span level = [] :=
  ite_self _

variable [Limits]

namespace Analysis

/-- What the next call depends on, but for whether it warns. -/
def core (a : Analysis) : Analysis :=
  { a with preferences := {}, diagnostics := #[], halted := false, events := #[] }

def warnings (a : Analysis) : Call → List Diagnostic
  | .declare d span =>
    if (a.declare d span).1 then
      a.preferences.hides ((a.table.lookup? d.name).map (·.2)) d.name span a.table.level?
    else
      []
  | _ => []

def findings (a : Analysis) (s : Step) : List Diagnostic := (a.core.take s).diagnostics.toList

def hints (a : Analysis) (s : Step) : List Diagnostic := (a.call? s).toList.flatMap a.warnings

/-- What led from `a` to `b` leads from its core to `c`, but for warnings. -/
structure Follows (a : Analysis) (warned : List Diagnostic) (b c : Analysis) : Prop where
  core : b.core = c.core
  diagnostics : b.diagnostics.toList = a.diagnostics.toList ++ c.diagnostics.toList ++ warned

variable {a b c : Analysis} {call : Call} {warned : List Diagnostic} {d : Diagnostic}
  {e : TableError} {event : Event} {t : Table} {o : Opened} {name : String} {span : Span}

@[simp] theorem core_table : a.core.table = a.table := rfl

@[simp] theorem core_opened : a.core.opened = a.opened := rfl

namespace Follows

theorem refl (a : Analysis) : a.Follows [] a a.core := ⟨rfl, by simp [Analysis.core]⟩

theorem refuse (follows : a.Follows [] b c) (e : TableError) (span : Span) :
    a.Follows [] (b.refuse e span) (c.refuse e span) where
  core := follows.core
  diagnostics := by
    have table : b.table = c.table := congrArg (·.table) follows.core
    simp [Analysis.refuse, report, Analysis.note, follows.diagnostics, table]

theorem change (follows : a.Follows [] b c) (f : Analysis → Analysis)
    (core : ∀ x, (f x).core = (f x.core).core) (same : ∀ x, (f x).diagnostics = x.diagnostics) :
    a.Follows [] (f b) (f c) where
  core := by rw [core b, core c, follows.core]
  diagnostics := by rw [same, same, follows.diagnostics]

theorem move (follows : a.Follows [] b c) (t : Table) :
    a.Follows [] { b with table := t } { c with table := t } :=
  follows.change ({ · with table := t }) (fun _ => rfl) (fun _ => rfl)

theorem opening (follows : a.Follows [] b c) (o : Opened) :
    a.Follows [] (b.opening o) (c.opening o) :=
  follows.change (·.opening o) (fun _ => rfl) (fun _ => rfl)

theorem note (follows : a.Follows [] b c) (event : Event) :
    a.Follows [] (b.note event) (c.note event) :=
  follows.change (·.note event) (fun _ => rfl) (fun _ => rfl)

theorem noteTransition (follows : a.Follows [] b c) (action : String) (id : Option ScopeId) :
    a.Follows [] (b.noteTransition action id) (c.noteTransition action id) := by
  rw [b.noteTransition_eq, c.noteTransition_eq]
  exact ⟨follows.core, follows.diagnostics⟩

theorem opened? (follows : a.Follows [] b c) (entered : Except TableError ScopeId × Table)
    (o : Opened) (action : String) (span : Span) :
    a.Follows [] (b.opened? entered o action span).2 (c.opened? entered o action span).2 := by
  rcases entered with ⟨e | id, t⟩
  · exact ((follows.move t).refuse e span).opening .placeholder
  · exact ((follows.move t).opening o).noteTransition action id

end Follows

theorem table_noteTransition (action : String) (id : Option ScopeId) :
    (a.noteTransition action id).table = a.table := by
  rw [noteTransition_eq]

theorem follows_beginProgram :
    a.Follows [] (a.beginProgram name span).2 (a.core.beginProgram name span).2 := by
  simp only [beginProgram, core_opened, core_table]
  by_cases free : a.opened.isEmpty
  · simp only [free, Bool.not_true, Bool.false_eq_true, if_false]
    rcases a.table.enter with ⟨e | id, t⟩
    · exact (((Follows.refl a).move t).refuse e span).opening .placeholder
    · have opened := ((Follows.refl a).move t).opening .program
      have begun := opened.noteTransition "Entered program scope" (some id)
      simp only [table_noteTransition, opening]
      rcases t.declare (.program name) with ⟨e | ⟨⟩, t'⟩
      · exact (begun.move t').refuse e span
      · exact begun.change (fun x => { x with table := t', declared := x.declared + 1 })
          (fun _ => rfl) (fun _ => rfl)
  · simp only [free, Bool.not_false, if_true]
    exact ((Follows.refl a).refuse _ span).opening .placeholder

theorem follows_beginProcedure :
    a.Follows [] (a.beginProcedure name span).2 (a.core.beginProcedure name span).2 := by
  simp only [beginProcedure, core_table]
  rcases a.table.declare (.procedure name) with ⟨e | ⟨⟩, t⟩
  · exact (((Follows.refl a).move t).refuse e span).opened? _ _ _ span
  · have landed := (Follows.refl a).change
      (fun x => { x with table := t, declared := x.declared + 1 }) (fun _ => rfl) (fun _ => rfl)
    exact landed.opened? _ _ _ span

theorem follows_beginBlock : a.Follows [] (a.beginBlock span).2 (a.core.beginBlock span).2 :=
  (Follows.refl a).opened? _ _ _ span

theorem follows_endScope :
    a.Follows [] (a.endScope span).2 (a.core.endScope span).2 := by
  have start := Follows.refl a
  obtain ⟨table, p, opened, closed, ds, declared, resolved, unresolved, halted, events⟩ := a
  have left : ∀ outer, Follows _ [] _ _ :=
    fun outer => start.change ({ · with opened := outer }) (fun _ => rfl) (fun _ => rfl)
  match opened with
  | .placeholder :: outer => exact left outer
  | [] | .program :: outer =>
    simp only [endScope, core]
    rcases table.exit with ⟨e | scope, t⟩
    · exact (start.move t).refuse e span
    · exact start.move t
  | .procedure _ :: outer | .block :: outer =>
    simp only [endScope, core]
    rcases table.exit with ⟨e | scope, t⟩
    · have refused := ((left outer).move t).refuse e span
      simp only [refuse, report, note] at refused ⊢
      rcases t.abandon with ⟨e | dropped, t'⟩
      · exact (refused.move t').note _
      · exact refused.move t'
    · have closed := ((left outer).move t).change
        (fun x => { x with closed := x.closed.push scope }) (fun _ => rfl) (fun _ => rfl)
      exact (closed.note _).noteTransition "Exited scope" none

theorem follows_endProgram :
    a.Follows [] (a.endProgram span).2 (a.core.endProgram span).2 := by
  simp only [endProgram, core_table]
  rcases a.table.finish with ⟨e | scope, t⟩
  · exact ((Follows.refl a).move t).refuse e span
  · have closed := (Follows.refl a).change (fun x => { x with
      table := t, opened := [], closed := x.closed.push scope }) (fun _ => rfl) (fun _ => rfl)
    exact closed.note _

theorem level?_declare {entry : Entry} (done : a.table.declare entry = (.ok (), t)) :
    t.level? = a.table.level? := by
  obtain ⟨top, outer, stored, next, scopes, -, -, -, -, rfl⟩ := Table.declare_eq_ok.1 done
  simp [Table.level?, scopes]

theorem follows_declare {d : Declaration} :
    a.Follows (a.warnings (.declare d span)) (a.declare d span).2 (a.core.declare d span).2 := by
  have start := Follows.refl a
  rcases built : d.entry with e | entry
  · simp only [warnings, declare, built]
    exact start.refuse e span
  · rcases declared : a.table.declare entry with ⟨e | ⟨⟩, t⟩
    · simp only [warnings, declare, built, declared, core_table]
      exact (start.move t).refuse e span
    · have landed := start.change (fun x => { x with table := t, declared := x.declared + 1 })
        (fun _ => rfl) (fun _ => rfl)
      simp only [warnings, declare, built, declared, core_table]
      rw [level?_declare declared]
      rcases a.table.lookup? d.name with _ | ⟨hidden, outer⟩
      · rw [Option.map_none, Preferences.hides_none]
        exact landed
      · simp only [Option.map_some]
        refine ⟨?_, ?_⟩
        · split <;> exact landed.core
        · unfold Preferences.hides
          split
          · simp [report, note, core]
          · exact landed.diagnostics

theorem follows_resolve : a.Follows [] (a.resolve name span).2 (a.core.resolve name span).2 := by
  simp only [resolve, core_table]
  rcases a.table.lookup? name with _ | found
  · exact ⟨rfl, by simp [report, note, core]⟩
  · exact (Follows.refl a).change (fun x => { x with resolved := x.resolved + 1 }) (fun _ => rfl)
      (fun _ => rfl)

theorem follows (a : Analysis) (call : Call) :
    a.Follows (a.warnings call) (a.apply call).2 (a.core.apply call).2 := by
  cases call with
  | beginProgram => exact follows_beginProgram
  | beginProcedure => exact follows_beginProcedure
  | beginBlock => exact follows_beginBlock
  | endScope => exact follows_endScope
  | endProgram => exact follows_endProgram
  | declare => exact follows_declare
  | resolve => exact follows_resolve

theorem call?_congr (same : a.core = b.core) (s : Step) : a.call? s = b.call? s := by
  have opened : a.opened = b.opened := congrArg (·.opened) same
  have atProgram : a.atProgram = b.atProgram := by
    rw [Analysis.atProgram, opened, Analysis.atProgram]
  unfold call?
  rw [atProgram]

theorem follows_take (a : Analysis) (s : Step) :
    a.Follows (a.hints s) (a.take s) (a.core.take s) := by
  rw [take_eq_call, take_eq_call, hints, call?_congr (a := a.core) (b := a) rfl]
  cases a.call? s with
  | none => exact .refl a
  | some call => simpa using a.follows call

theorem core_take (same : a.core = b.core) (s : Step) : (a.take s).core = (b.take s).core := by
  rw [(a.follows_take s).core, same, (b.follows_take s).core]

theorem findings_congr (same : a.core = b.core) (s : Step) : a.findings s = b.findings s := by
  rw [findings, same, findings]

theorem diagnostics_take (a : Analysis) (s : Step) :
    (a.take s).diagnostics.toList = a.diagnostics.toList ++ a.findings s ++ a.hints s :=
  (a.follows_take s).diagnostics

theorem Declaring.done_iff {d : Declaration} {done : Bool}
    (declaring : a.Declaring d span done b) :
    done = true ↔ ∃ e t, d.entry = .ok e ∧ a.table.declare e = (.ok (), t) := by
  cases declaring with
  | unbuilt built => simp [built]
  | refused built refused => simp [built, refused]
  | landed built declared | warned built declared => exact iff_of_true rfl ⟨_, _, built, declared⟩

theorem warnings_congr (same : a.core = b.core)
    (warns : a.preferences.warnOnShadowing = b.preferences.warnOnShadowing) (call : Call) :
    a.warnings call = b.warnings call := by
  have table : a.table = b.table := congrArg (·.table) same
  cases call with
  | declare d span =>
    have done : (a.declare d span).1 = (b.declare d span).1 := by
      rw [Bool.eq_iff_iff, (a.declaring d span).done_iff, (b.declaring d span).done_iff, table]
    simp only [warnings, Preferences.hides, table, warns, done]
  | _ => rfl

theorem hints_congr (same : a.core = b.core)
    (warns : a.preferences.warnOnShadowing = b.preferences.warnOnShadowing) (s : Step) :
    a.hints s = b.hints s := by
  rw [hints, call?_congr same, funext (warnings_congr same warns), hints]

end Analysis

namespace Run

structure Abreast (r r' : Run) : Prop where
  executed : r.executed = r'.executed
  core : r.analysis.core = r'.analysis.core

variable {r r' : Run}

theorem Abreast.advance (abreast : r.Abreast r') (s : Step) :
    (r.advance s).Abreast (r'.advance s) where
  executed := congrArg (· + 1) abreast.executed
  core := Analysis.core_take (a := r.announce s) (b := r'.announce s) abreast.core s

theorem Abreast.opened (abreast : r.Abreast r') : r.analysis.opened = r'.analysis.opened := by
  rw [← Analysis.core_opened, abreast.core, Analysis.core_opened]

theorem Abreast.report (abreast : r.Abreast r') : r.analysis.summarize =
    { r'.analysis.summarize with diagnostics := r.analysis.diagnostics.toList } := by
  obtain ⟨-, -, -, closed, -, declared, resolved, unresolved⟩ := Analysis.mk.inj abreast.core
  simp only [Analysis.summarize, closed, declared, resolved, unresolved]

theorem diagnostics_advance (r : Run) (s : Step) : (r.advance s).analysis.diagnostics.toList =
    r.analysis.diagnostics.toList ++ r.analysis.findings s ++ r.analysis.hints s := by
  have told : (r.announce s).core = r.analysis.core := rfl
  rw [← Analysis.findings_congr told, ← Analysis.hints_congr told rfl]
  exact (r.announce s).diagnostics_take s

end Run

end ScopeFrames
