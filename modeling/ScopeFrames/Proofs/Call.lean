import ScopeFrames.Analysis
import ScopeFrames.Proofs.Atomic

namespace ScopeFrames

variable [Limits]

namespace Table

variable {t t' : Table} {op : Operation} {o : Outcome}

theorem Formed.exit_refused {err : TableError} (formed : t.Formed)
    (failed : t.exit = (.error err, t')) : t' = t := by
  have step : t.Step .exit (.refused err) t' :=
    formed.step_of_apply (by simp [Table.apply, failed, Outcome.of])
  exact step.eq_of_refused

theorem Formed.finish_refused {err : TableError} (formed : t.Formed)
    (failed : t.finish = (.error err, t')) : t' = t := by
  have step : t.Step .finish (.refused err) t' :=
    formed.step_of_apply (by simp [Table.apply, failed, Outcome.of])
  exact step.eq_of_refused

def Declares (t t' : Table) : Prop := t' = t ∨ ∃ e, t.Step (.declare e) .declared t'

theorem Step.depth_declared {e : Entry} (step : t.Step (.declare e) .declared t') :
    t'.depth = t.depth ∧ t.depth ≠ 0 := by
  cases step with
  | declared scopes => simp [depth, scopes]

theorem Step.opens_declared {e : Entry} (step : t.Step (.declare e) .declared t')
    (owns : e.category.ownsFrame = true) (unsized : e.frameSize = none) (formed : t'.Formed) :
    t'.Opens e.name := by
  cases step with
  | @declared _ top outer stored next _ _ _ _ labelled =>
    obtain ⟨_, rfl⟩ := labelled_kept labelled
    have opens := formed.opens_extended rfl owns unsized
    exact opens

theorem exit_shallow (shallow : t.depth ≤ 1) :
    t.exit = (.error (.emptyStack "exit a nested scope" t.depth), t) := by
  match scopes : t.scopes with
  | [] | [_] => simp [exit, scopes]
  | _ :: _ :: _ => simp [depth, scopes] at shallow

theorem abandon_shallow (shallow : t.depth ≤ 1) :
    t.abandon = (.error (.emptyStack "abandon a nested scope" t.depth), t) := by
  match scopes : t.scopes with
  | [] | [_] => simp [abandon, scopes]
  | _ :: _ :: _ => simp [depth, scopes] at shallow

theorem abandon_deep (deep : 2 ≤ t.depth) : ∃ scope t', t.abandon = (.ok scope, t') := by
  match scopes : t.scopes with
  | [] | [_] => simp [depth, scopes] at deep
  | top :: _ :: _ => exact ⟨top, _, by simp [abandon, scopes]; rfl⟩

end Table

namespace Analysis

inductive Call : Type
  | beginProgram (name : String) (span : Span)
  | beginProcedure (name : String) (span : Span)
  | beginBlock (span : Span)
  | endScope (span : Span)
  | endProgram (span : Span)
  | declare (d : Declaration) (span : Span)
  | resolve (name : String) (span : Span)
  deriving DecidableEq

def Call.begins : Call → Bool
  | .beginProgram .. | .beginProcedure .. | .beginBlock .. => true
  | _ => false

inductive Answer : Type
  | opened (id : Option ScopeId)
  | closed (scope : Option ClosedScope)
  | declared (done : Bool)
  | resolved (found : Option Resolution)
  deriving DecidableEq

def apply (a : Analysis) : Call → Answer × Analysis
  | .beginProgram name span => (a.beginProgram name span).map .opened id
  | .beginProcedure name span => (a.beginProcedure name span).map .opened id
  | .beginBlock span => (a.beginBlock span).map .opened id
  | .endScope span => (a.endScope span).map .closed id
  | .endProgram span => (a.endProgram span).map .closed id
  | .declare d span => (a.declare d span).map .declared id
  | .resolve name span => (a.resolve name span).map .resolved id

def after (a : Analysis) (calls : List Call) : Analysis :=
  calls.foldl (fun a call => (a.apply call).2) a

@[simp] theorem after_nil (a : Analysis) : a.after [] = a := rfl

@[simp] theorem after_cons (a : Analysis) (call : Call) (calls : List Call) :
    a.after (call :: calls) = (a.apply call).2.after calls := rfl

theorem after_concat (a : Analysis) (calls : List Call) (call : Call) :
    a.after (calls ++ [call]) = ((a.after calls).apply call).2 := by
  simp [after]

theorem after_induction {motive : Analysis → Prop} {a : Analysis} {calls : List Call}
    (start : motive a) (step : ∀ a call, motive a → motive (a.apply call).2) :
    motive (a.after calls) := by
  induction calls generalizing a with
  | nil => exact start
  | cons call calls ih => exact ih (step a call start)

structure Standing where
  table : Table
  opened : List Opened
  closed : Array ClosedScope

def standing (a : Analysis) : Standing := ⟨a.table, a.opened, a.closed⟩

def Blames (a b : Analysis) : Prop :=
  ∃ more, b.diagnostics = a.diagnostics ++ more ∧ ∃ d ∈ more, d.isError = true

/-- What a call can do: be refused, or one thing for each kind and each way to recover. -/
inductive Act (a : Analysis) : Call → Answer → Analysis → Prop
  | refused {call answer b} : call.begins = false → a.Blames b → b.standing = a.standing →
      Act a call answer b
  | resolved {name span found b} : b.standing = a.standing →
      Act a (.resolve name span) (.resolved (some found)) b
  | declared {d span e t b} : a.table.Step (.declare e) .declared t →
      b.standing = ⟨t, a.opened, a.closed⟩ → Act a (.declare d span) (.declared true) b
  | begunProgram {name span id t t' b} : a.opened = [] → a.table.Step .enter (.entered id) t →
      t.Declares t' → b.standing = ⟨t', [.program], a.closed⟩ →
      Act a (.beginProgram name span) (.opened (some id)) b
  | begunProcedure {name span id t t' b} :
      a.table.Step (.declare (.procedure name)) .declared t →
      t.Step (.enterProcedure name) (.entered id) t' →
      b.standing = ⟨t', .procedure name :: a.opened, a.closed⟩ →
      Act a (.beginProcedure name span) (.opened (some id)) b
  | begunBlock {call id t b} : call.begins = true → a.table.Step .enter (.entered id) t →
      b.standing = ⟨t, .block :: a.opened, a.closed⟩ → Act a call (.opened (some id)) b
  | stoodIn {call t b} : call.begins = true →
      (a.opened = [] → Limits.scopeDepth ≤ a.table.depth) → a.table.Declares t → a.Blames b →
      b.standing = ⟨t, .placeholder :: a.opened, a.closed⟩ → Act a call (.opened none) b
  | passed {span outer b} : a.opened = .placeholder :: outer →
      b.standing = ⟨a.table, outer, a.closed⟩ → Act a (.endScope span) (.closed none) b
  | ended {span o outer scope t b} : a.opened = o :: outer → o ≠ .program → o ≠ .placeholder →
      a.table.Step .exit (.closed scope) t → b.standing = ⟨t, outer, a.closed.push scope⟩ →
      Act a (.endScope span) (.closed (some scope)) b
  | dropped {span o outer scope t b} : a.opened = o :: outer → o ≠ .program → o ≠ .placeholder →
      a.table.Step .abandon (.abandoned scope) t → a.Blames b →
      b.standing = ⟨t, outer, a.closed⟩ → Act a (.endScope span) (.closed none) b
  | stuck {span o outer b} : a.opened = o :: outer → o ≠ .program → o ≠ .placeholder →
      a.table.depth ≤ 1 → a.Blames b → b.halted = true →
      b.standing = ⟨a.table, outer, a.closed⟩ → Act a (.endScope span) (.closed none) b
  | lost {span scope t b} : (a.opened = [] ∨ ∃ outer, a.opened = .program :: outer) →
      a.table.Step .exit (.closed scope) t → b.standing = ⟨t, a.opened, a.closed⟩ →
      Act a (.endScope span) (.closed none) b
  | finished {span scope t b} : a.table.Step .finish (.closed scope) t →
      b.standing = ⟨t, [], a.closed.push scope⟩ → Act a (.endProgram span) (.closed (some scope)) b

variable {a b : Analysis} {call : Call} {answer : Answer} {span : Span} {name : String}
  {e : TableError} {t : Table} {o : Opened} {outer : List Opened}

theorem standing_noteTransition (action : String) (id : Option ScopeId) :
    (a.noteTransition action id).standing = a.standing := by
  rw [noteTransition_eq]
  rfl

theorem standing_refuse : (a.refuse e span).standing = a.standing := rfl

@[simp] theorem halted_note (event : Event) : (a.note event).halted = a.halted := rfl

@[simp] theorem halted_noteTransition (action : String) (id : Option ScopeId) :
    (a.noteTransition action id).halted = a.halted := by
  rw [noteTransition_eq]

@[simp] theorem halted_report (d : Diagnostic) :
    (a.report d).halted = (a.halted || d.isError && a.preferences.stopOnFirstError) := rfl

@[simp] theorem halted_refuse : (a.refuse e span).halted =
    (a.halted || a.preferences.stopOnFirstError || e.halts) := rfl

theorem halted_of_halts (halts : e.halts = true) : (a.refuse e span).halted = true := by
  rw [halted_refuse, halts, Bool.or_true]

@[simp] theorem halted_opening : (a.opening o).halted = a.halted := rfl

theorem blames_report {d : Diagnostic} (error : d.isError = true) : a.Blames (a.report d) :=
  ⟨#[d], by simp [report, note], d, by simp, error⟩

theorem blames_refuse : a.Blames (a.refuse e span) := blames_report rfl

theorem Blames.trans {c : Analysis} (first : a.Blames b) (second : b.Blames c) : a.Blames c := by
  obtain ⟨more, told, d, member, error⟩ := first
  obtain ⟨more', told', -⟩ := second
  refine ⟨more ++ more', ?_, d, Array.mem_append_left more' member, error⟩
  rw [told', told, Array.append_assoc]

theorem opened?_ok (a : Analysis) (id : ScopeId) (t : Table) (o : Opened) (action : String)
    (span : Span) : (a.opened? (.ok id, t) o action span).1 = some id ∧
      (a.opened? (.ok id, t) o action span).2.standing = ⟨t, o :: a.opened, a.closed⟩ :=
  ⟨rfl, standing_noteTransition _ _⟩

theorem opened?_error (a : Analysis) (e : TableError) (t : Table) (o : Opened) (action : String)
    (span : Span) : (a.opened? (.error e, t) o action span).1 = none ∧
      (a.opened? (.error e, t) o action span).2.standing
        = ⟨t, .placeholder :: a.opened, a.closed⟩ ∧
      a.Blames (a.opened? (.error e, t) o action span).2 :=
  ⟨rfl, rfl, blames_refuse (a := { a with table := t })⟩

theorem halted_opened? {entered : Except TableError ScopeId × Table} {action : String}
    (halted : a.halted = true) : (a.opened? entered o action span).2.halted = true := by
  unfold opened?
  split <;> simp [halted]

theorem act_block {told : Analysis} {action : String} (begins : call.begins = true)
    (same : told.standing = a.standing) (tells : told = a ∨ a.Blames told) :
    Act a call (.opened (told.opened? told.table.enter .block action span).1)
      (told.opened? told.table.enter .block action span).2 := by
  obtain ⟨table, opened, closed⟩ := Standing.mk.inj same
  rw [table, Table.enter, Table.push_eq]
  split
  · next room =>
    obtain ⟨answer, standing⟩ :=
      told.opened?_ok ⟨a.table.nextId⟩ (a.table.pushed none) .block action span
    rw [opened, closed] at standing
    rw [answer]
    exact .begunBlock begins (.entered room) standing
  · next full =>
    obtain ⟨answer, standing, blames⟩ := told.opened?_error
      (.limitExceeded "scope depth" (a.table.depth + 1) Limits.scopeDepth) a.table .block action
      span
    rw [opened, closed] at standing
    rw [answer]
    refine .stoodIn begins (fun _ => Nat.le_of_not_lt full) (.inl rfl) ?_ standing
    rcases tells with rfl | before
    · exact blames
    · exact before.trans blames

theorem act_beginBlock : Act a (.beginBlock span) (a.apply (.beginBlock span)).1
    (a.apply (.beginBlock span)).2 :=
  act_block rfl rfl (.inl rfl)

theorem act_beginProcedure (formed : a.table.Formed) :
    Act a (.beginProcedure name span) (a.apply (.beginProcedure name span)).1
      (a.apply (.beginProcedure name span)).2 := by
  simp only [apply, beginProcedure]
  rcases declared : a.table.declare (.procedure name) with ⟨err | ⟨⟩, t⟩
  · rw [Table.declare_refused declared]
    exact act_block rfl standing_refuse (.inr blames_refuse)
  · have step := formed.step_declare declared
    have opens : t.Opens name := step.opens_declared rfl rfl (step.formed formed)
    have entered : t.enterProcedure name = t.push (some name) := Table.enterProcedure_eq opens
    simp only [entered, Table.push_eq]
    split
    · next room =>
      obtain ⟨answer, standing⟩ := { a with table := t, declared := a.declared + 1 }.opened?_ok
        ⟨t.nextId⟩ (t.pushed (some name)) (.procedure name) "Entered procedure scope" span
      simp only [Prod.map, answer]
      exact .begunProcedure step (.enteredProcedure opens room) standing
    · next full =>
      obtain ⟨answer, standing, blames⟩ :=
        { a with table := t, declared := a.declared + 1 }.opened?_error
          (.limitExceeded "scope depth" (t.depth + 1) Limits.scopeDepth) t (.procedure name)
          "Entered procedure scope" span
      simp only [Prod.map, answer]
      have deep : Limits.scopeDepth ≤ a.table.depth := by
        have same := step.depth_declared
        omega
      exact .stoodIn rfl (fun _ => deep) (.inr ⟨_, step⟩) blames standing

theorem act_beginProgram (formed : a.table.Formed) :
    Act a (.beginProgram name span) (a.apply (.beginProgram name span)).1
      (a.apply (.beginProgram name span)).2 := by
  simp only [apply, beginProgram, Table.enter, Table.push_eq]
  by_cases free : a.opened = []
  · rw [if_neg (by simpa using free)]
    by_cases room : a.table.depth < Limits.scopeDepth
    · have step : a.table.Step .enter (.entered ⟨a.table.nextId⟩) (a.table.pushed none) :=
        .entered room
      simp only [if_pos room]
      rw [noteTransition_eq]
      rcases declared : (a.table.pushed none).declare (.program name) with ⟨err | ⟨⟩, t⟩
      · have same := Table.declare_refused declared
        simp only [opening, declared, same, free]
        exact .begunProgram free step (.inl rfl) rfl
      · have declares := (step.formed formed).step_declare declared
        simp only [opening, declared, free]
        exact .begunProgram free step (.inr ⟨_, declares⟩) rfl
    · simp only [if_neg room]
      refine .stoodIn rfl (fun _ => Nat.le_of_not_lt room) (.inl rfl) ?_ rfl
      exact blames_refuse (a := { a with table := a.table })
  · rw [if_pos (by simpa using free)]
    exact .stoodIn rfl (fun empty => absurd empty free) (.inl rfl) blames_refuse rfl

theorem act_endScope (formed : a.table.Formed) : Act a (.endScope span) (a.apply (.endScope span)).1
    (a.apply (.endScope span)).2 := by
  simp only [apply]
  match opened : a.opened with
  | .placeholder :: outer =>
    simp only [endScope, opened]
    exact .passed opened rfl
  | [] | .program :: _ =>
    simp only [endScope, opened]
    rcases exited : a.table.exit with ⟨err | scope, t⟩
    · rw [formed.exit_refused exited]
      exact .refused rfl blames_refuse (congrArg (Standing.mk a.table · a.closed) opened.symm)
    · exact .lost (by simp [opened]) (formed.step_exit exited) (by simp [standing, opened])
  | .procedure _ :: outer | .block :: outer =>
    by_cases shallow : a.table.depth ≤ 1
    · simp only [endScope, opened, Table.exit_shallow shallow, refuse, report, note,
        Table.abandon_shallow shallow]
      exact .stuck opened nofun nofun shallow blames_refuse (halted_of_halts rfl) rfl
    · obtain ⟨dropped, t', abandoned⟩ := Table.abandon_deep (Nat.lt_of_not_le shallow)
      rcases exited : a.table.exit with ⟨err | scope, t⟩
      · simp only [endScope, opened, exited, formed.exit_refused exited, refuse, report, note,
          abandoned]
        exact .dropped opened nofun nofun (formed.step_abandon abandoned) blames_refuse rfl
      · simp only [endScope, opened, exited]
        rw [noteTransition_eq]
        exact .ended opened nofun nofun (formed.step_exit exited) rfl

theorem act_endProgram (formed : a.table.Formed) :
    Act a (.endProgram span) (a.apply (.endProgram span)).1 (a.apply (.endProgram span)).2 := by
  simp only [apply, endProgram]
  rcases finished : a.table.finish with ⟨err | scope, t⟩
  · rw [formed.finish_refused finished]
    exact .refused rfl blames_refuse rfl
  · exact .finished (formed.step_finish finished) rfl

/-- What comes of a declaration: an error if it makes no entry or the table refuses the entry, else
a new entry and perhaps a warning. -/
inductive Declaring (a : Analysis) (d : Declaration) (span : Span) : Bool → Analysis → Prop
  | unbuilt {err} : d.entry = .error err → Declaring a d span false (a.refuse err span)
  | refused {entry err} : d.entry = .ok entry →
      a.table.declare entry = (.error err, a.table) → Declaring a d span false (a.refuse err span)
  | landed {entry t} : d.entry = .ok entry → a.table.declare entry = (.ok (), t) →
      Declaring a d span true { a with table := t, declared := a.declared + 1 }
  | warned {entry t hidden outer} : d.entry = .ok entry → a.table.declare entry = (.ok (), t) →
      a.preferences.warnOnShadowing = true → a.table.lookup? d.name = some (hidden, outer) →
      Declaring a d span true ({ a with table := t, declared := a.declared + 1 }.report
        (.shadowed d.name outer span t.level?))

theorem declaring (a : Analysis) (d : Declaration) (span : Span) :
    Declaring a d span (a.declare d span).1 (a.declare d span).2 := by
  rcases built : d.entry with err | entry
  · simp only [declare, built]
    exact .unbuilt built
  · rcases declared : a.table.declare entry with ⟨err | ⟨⟩, t⟩
    · obtain rfl := Table.declare_refused declared
      simp only [declare, built, declared]
      exact .refused built declared
    · have landed : Declaring a d span true _ := .landed built declared
      rcases looked : a.table.lookup? d.name with _ | ⟨hidden, outer⟩
      · simp only [declare, built, declared, looked, Option.map_none]
        exact landed
      · simp only [declare, built, declared, looked, Option.map_some]
        split
        · next warns => exact .warned built declared warns looked
        · exact landed

theorem Declaring.act {d : Declaration} {done : Bool} (formed : a.table.Formed)
    (declaring : a.Declaring d span done b) : Act a (.declare d span) (.declared done) b := by
  cases declaring with
  | unbuilt | refused => exact .refused rfl blames_refuse rfl
  | landed _ declared | warned _ declared => exact .declared (formed.step_declare declared) rfl

theorem act_declare (formed : a.table.Formed) {d : Declaration} :
    Act a (.declare d span) (a.apply (.declare d span)).1 (a.apply (.declare d span)).2 :=
  (a.declaring d span).act formed

theorem act_resolve :
    Act a (.resolve name span) (a.apply (.resolve name span)).1
      (a.apply (.resolve name span)).2 := by
  simp only [apply, resolve]
  cases a.table.lookup? name with
  | none => exact .refused rfl (blames_report rfl) rfl
  | some found => exact .resolved rfl

theorem act (formed : a.table.Formed) (call : Call) :
    Act a call (a.apply call).1 (a.apply call).2 := by
  cases call with
  | beginProgram => exact act_beginProgram formed
  | beginProcedure => exact act_beginProcedure formed
  | beginBlock => exact act_beginBlock
  | endScope => exact act_endScope formed
  | endProgram => exact act_endProgram formed
  | declare => exact act_declare formed
  | resolve => exact act_resolve

theorem halted_apply (halted : a.halted = true) (call : Call) :
    (a.apply call).2.halted = true := by
  cases call with
  | beginProgram name span =>
    simp only [apply, beginProgram, Prod.map]
    split
    · simp [halted]
    · split
      · simp [halted]
      · split <;> simp [halted]
  | beginProcedure name span =>
    simp only [apply, beginProcedure, Prod.map]
    split <;> simp [halted_opened?, halted]
  | beginBlock span => exact halted_opened? halted
  | endScope span =>
    simp only [apply, endScope, Prod.map]
    split
    · exact halted
    · split <;> simp [halted]
    · split <;> simp [halted]
    · split
      · simp [halted]
      · split <;> simp [halted]
  | endProgram span =>
    simp only [apply, endProgram, Prod.map]
    split <;> simp [halted]
  | declare d span =>
    simp only [apply, declare, Prod.map]
    split
    · simp [halted]
    · split
      · simp [halted]
      · split
        · split <;> simp [halted]
        · exact halted
  | resolve name span =>
    simp only [apply, resolve, Prod.map]
    split <;> simp [halted]

end Analysis

end ScopeFrames
