import ScopeFrames.Proofs.Call
import ScopeFrames.Trace.Replay

/-!
What each call tells.  With every diagnostic goes an event, a count if a reference was not found,
and a halt if it stops the analysis.  One event stands alone: that of an outermost scope which an
end can neither close nor drop.
-/

namespace ScopeFrames

theorem TableError.code_ne_undeclared (e : TableError) : e.code ≠ .undeclared := by
  cases e <;> simp [code, Code.undeclared, Code.duplicateName, Code.unknownName, Code.emptyStack,
    Code.incompleteEntry, Code.invalidBounds, Code.invalidScopeOwner, Code.limitExceeded,
    Code.layoutOverflow]

variable [Limits]

namespace Event

def isProblem (e : Event) : Bool := e.isError || e.isWarning

end Event

def Diagnostic.stops (d : Diagnostic) (p : Preferences) : Bool :=
  d.isError && (d.code.halts || p.stopOnFirstError)

theorem Diagnostic.isProblem_event (d : Diagnostic) : d.event.isProblem = true := by
  cases error : d.isError <;> simp [event, error] <;> rfl

def Opened.complaint (o : Opened) : Event :=
  (Event.error .emptyStack "Failed to discard unclosable scope").noting "owner" s!"Some({o.text})"

namespace Analysis

def stranded? (a : Analysis) : Call → Option Opened
  | .endScope _ =>
    a.opened.head?.filter fun o => o ≠ .program && o ≠ .placeholder && a.table.depth ≤ 1
  | _ => none

def complaints (a : Analysis) (call : Call) : List Event :=
  (a.stranded? call).toList.map Opened.complaint

def problems (a : Analysis) : List Event := a.events.toList.filter Event.isProblem

structure Telling where
  diagnostics : Array Diagnostic
  events : Array Event
  unresolved : Nat
  halted : Bool
  preferences : Preferences

def telling (a : Analysis) : Telling :=
  ⟨a.diagnostics, a.events, a.unresolved, a.halted, a.preferences⟩

/-- From `a` to `b` the diagnostics `ds` were recorded, each with all that goes with it, and the
events `alone` told besides. -/
structure Records (a : Analysis) (ds : List Diagnostic) (alone : List Event) (b : Analysis) :
    Prop where
  diagnostics : b.diagnostics.toList = a.diagnostics.toList ++ ds
  problems : b.problems = a.problems ++ ds.map (·.event) ++ alone
  halted : b.halted = (a.halted || ds.any (·.stops a.preferences))
  unresolved : b.unresolved = a.unresolved + ds.countP (·.code = .undeclared)
  preferences : b.preferences = a.preferences

def Tells (a : Analysis) (alone : List Event) (b : Analysis) : Prop :=
  ∃ ds, Records a ds alone b

inductive Leaving (a : Analysis) (span : Span) : Analysis → Prop
  | passed {outer} : a.opened = .placeholder :: outer → Leaving a span { a with opened := outer }
  | refused {e} : (a.opened = [] ∨ ∃ outer, a.opened = .program :: outer) →
      Leaving a span (a.refuse e span)
  | lost {scope t} : (a.opened = [] ∨ ∃ outer, a.opened = .program :: outer) →
      a.table.Step .exit (.closed scope) t → Leaving a span { a with table := t }
  | ended {o outer scope t event} : a.opened = o :: outer → 2 ≤ a.table.depth →
      a.table.Step .exit (.closed scope) t → event.isProblem = false →
      Leaving a span
        (({ a with opened := outer, table := t, closed := a.closed.push scope }.note
          event).noteTransition "Exited scope" none)
  | dropped {o outer e scope t} : a.opened = o :: outer → 2 ≤ a.table.depth →
      a.table.Step .abandon (.abandoned scope) t →
      Leaving a span { { a with opened := outer }.refuse e span with table := t }
  | stuck {o outer e} : a.opened = o :: outer → o ≠ .program → o ≠ .placeholder →
      a.table.depth ≤ 1 → e.halts = true →
      Leaving a span (({ a with opened := outer }.refuse e span).note o.complaint)

variable {a b c : Analysis} {call : Call} {ds ds' : List Diagnostic} {alone : List Event}
  {d : Diagnostic} {e : TableError} {event : Event} {t : Table} {o : Opened}
  {outer : List Opened} {name : String} {span : Span}

theorem problems_note : (a.note event).problems =
    a.problems ++ if event.isProblem then [event] else [] := by
  simp [problems, note, List.filter_cons]

theorem problems_report : (a.report d).problems = a.problems ++ [d.event] := by
  have noted : (a.report d).problems = (a.note d.event).problems := rfl
  rw [noted, problems_note, if_pos d.isProblem_event]

theorem records_refl (a : Analysis) : Records a [] [] a :=
  ⟨by simp, by simp, by simp, by simp, rfl⟩

theorem Records.trans (first : Records a ds [] b) (second : Records b ds' alone c) :
    Records a (ds ++ ds') alone c where
  diagnostics := by rw [second.diagnostics, first.diagnostics, List.append_assoc]
  problems := by simp [second.problems, first.problems]
  halted := by
    rw [second.halted, first.halted, first.preferences, List.any_append, Bool.or_assoc]
  unresolved := by
    rw [second.unresolved, first.unresolved, List.countP_append, Nat.add_assoc]
  preferences := second.preferences.trans first.preferences

theorem records_note (a : Analysis) (event : Event) :
    Records a [] (if event.isProblem then [event] else []) (a.note event) :=
  ⟨by simp [note], by simp [problems_note], by simp, by simp [note], rfl⟩

theorem records_refuse :
    Records a [.refused e span a.table.level?] [] (a.refuse e span) where
  diagnostics := by simp [refuse, report, note]
  problems := by
    have told : (a.refuse e span).problems = _ := problems_report (a := a)
    rw [told, List.append_nil, List.map_singleton]
  halted := by
    simp only [halted_refuse, Diagnostic.stops, Diagnostic.refused, TableError.halts,
      List.any_cons, List.any_nil, Bool.or_false, Bool.true_and, Bool.or_assoc]
    rw [Bool.or_comm a.preferences.stopOnFirstError]
  unresolved := by
    have other : (Diagnostic.refused e span a.table.level?).code ≠ .undeclared :=
      e.code_ne_undeclared
    simp [refuse, report, note, other]
  preferences := rfl

theorem records_warned (warning : d.isError = false) (code : d.code ≠ .undeclared) :
    Records a [d] [] (a.report d) where
  diagnostics := by simp [report, note]
  problems := by simp [problems_report]
  halted := by simp [Diagnostic.stops, warning]
  unresolved := by simp [report, note, code]
  preferences := rfl

theorem records_undeclared {level : Option Nat} : Records a [.undeclared name span level] []
    ({ a with unresolved := a.unresolved + 1 }.report (.undeclared name span level)) where
  diagnostics := by simp [report, note]
  problems := by
    have told := problems_report (a := { a with unresolved := a.unresolved + 1 })
      (d := .undeclared name span level)
    rw [told, List.append_nil, List.map_singleton]
    rfl
  halted := by
    have going : Code.undeclared.halts = false := by decide
    simp [Diagnostic.stops, Diagnostic.undeclared, going]
  unresolved := by simp [report, note, Diagnostic.undeclared]
  preferences := rfl

namespace Tells

theorem refl (a : Analysis) : a.Tells [] a := ⟨[], records_refl a⟩

theorem same (tells : a.Tells alone b) (told : c.telling = b.telling) : a.Tells alone c := by
  obtain ⟨diagnostics, events, unresolved, halted, preferences⟩ := Telling.mk.inj told
  obtain ⟨ds, records⟩ := tells
  refine ⟨ds, ?_, ?_, ?_, ?_, preferences.trans records.preferences⟩
  · rw [diagnostics, records.diagnostics]
  · rw [problems, events, ← problems, records.problems]
  · rw [halted, records.halted]
  · rw [unresolved, records.unresolved]

theorem move (tells : a.Tells alone b) (t : Table) : a.Tells alone { b with table := t } :=
  tells.same rfl

theorem trans (first : a.Tells [] b) (second : b.Tells alone c) : a.Tells alone c := by
  obtain ⟨ds, records⟩ := first
  obtain ⟨ds', records'⟩ := second
  exact ⟨ds ++ ds', records.trans records'⟩

theorem note (tells : a.Tells [] b) (ordinary : event.isProblem = false) :
    a.Tells [] (b.note event) := by
  have noted := records_note b event
  rw [ordinary] at noted
  exact tells.trans ⟨_, noted⟩

theorem noteTransition (tells : a.Tells [] b) (action : String) (id : Option ScopeId) :
    a.Tells [] (b.noteTransition action id) := by
  unfold Analysis.noteTransition
  split
  · exact tells.note rfl
  · exact tells

theorem refuse (tells : a.Tells [] b) (e : TableError) (span : Span) :
    a.Tells [] (b.refuse e span) :=
  tells.trans ⟨_, records_refuse⟩

theorem complain (tells : a.Tells [] b) (o : Opened) :
    a.Tells [o.complaint] (b.note o.complaint) := by
  have noted := records_note b o.complaint
  have isProblem : o.complaint.isProblem = true := rfl
  rw [if_pos isProblem] at noted
  exact tells.trans ⟨_, noted⟩

theorem opened? (tells : a.Tells [] b) (entered : Except TableError ScopeId × Table) (o : Opened)
    (action : String) (span : Span) : a.Tells [] (b.opened? entered o action span).2 := by
  rcases entered with ⟨e | id, t⟩
  · exact ((tells.move t).refuse e span).same rfl
  · have moved : a.Tells [] ({ b with table := t }.opening o) := tells.same rfl
    exact moved.noteTransition action id

end Tells

theorem tells_beginProgram : a.Tells (a.complaints (.beginProgram name span))
    (a.apply (.beginProgram name span)).2 := by
  show a.Tells [] (a.beginProgram name span).2
  unfold beginProgram
  split
  · exact ((Tells.refl a).refuse _ span).same rfl
  · rcases a.table.enter with ⟨e | id, t⟩
    · exact (((Tells.refl a).move t).refuse e span).same rfl
    · have opened : a.Tells [] ({ a with table := t }.opening .program) :=
        ((Tells.refl a).move t).same rfl
      have begun := opened.noteTransition "Entered program scope" (some id)
      dsimp only
      rcases Table.declare _ _ with ⟨e | ⟨⟩, t'⟩
      · exact (begun.move t').refuse e span
      · exact (begun.move t').same rfl

theorem tells_beginProcedure : a.Tells (a.complaints (.beginProcedure name span))
    (a.apply (.beginProcedure name span)).2 := by
  show a.Tells [] (a.beginProcedure name span).2
  unfold beginProcedure
  rcases a.table.declare (.procedure name) with ⟨e | ⟨⟩, t⟩
  · exact (((Tells.refl a).move t).refuse e span).opened? _ _ _ span
  · have landed : a.Tells [] { a with table := t, declared := a.declared + 1 } :=
      (Tells.refl a).same rfl
    exact landed.opened? _ _ _ span

theorem tells_beginBlock : a.Tells (a.complaints (.beginBlock span))
    (a.apply (.beginBlock span)).2 :=
  (Tells.refl a).opened? _ _ _ span

theorem table_refuse : (a.refuse e span).table = a.table := rfl

theorem leaving (formed : a.table.Formed) (span : Span) : a.Leaving span (a.endScope span).2 := by
  unfold endScope
  split
  · next outer opened => exact .passed opened
  · next opened =>
    rcases exited : a.table.exit with ⟨e | scope, t⟩
    · rw [formed.exit_refused exited]
      exact .refused (.inl opened)
    · exact .lost (.inl opened) (formed.step_exit exited)
  · next outer opened =>
    rcases exited : a.table.exit with ⟨e | scope, t⟩
    · rw [formed.exit_refused exited]
      exact .refused (.inr ⟨outer, opened⟩)
    · exact .lost (.inr ⟨outer, opened⟩) (formed.step_exit exited)
  · next o outer real nested opened =>
    by_cases shallow : a.table.depth ≤ 1
    · simp only [Table.exit_shallow shallow, table_refuse, Table.abandon_shallow shallow]
      exact .stuck opened nested real shallow rfl
    · have deep := Nat.lt_of_not_le shallow
      obtain ⟨dropped, t', abandoned⟩ := Table.abandon_deep deep
      rcases exited : a.table.exit with ⟨e | scope, t⟩
      · simp only [exited, formed.exit_refused exited, table_refuse, abandoned]
        exact .dropped opened deep (formed.step_abandon abandoned)
      · simp only [exited]
        exact .ended opened deep (formed.step_exit exited) rfl

theorem complaints_deep (deep : 2 ≤ a.table.depth) : a.complaints call = [] := by
  cases call <;> simp [complaints, stranded?, Nat.not_le_of_lt deep]

theorem complaints_outermost (opened : a.opened = [] ∨ ∃ outer, a.opened = .program :: outer) :
    a.complaints call = [] := by
  rcases opened with opened | ⟨outer, opened⟩ <;> cases call <;>
    simp [complaints, stranded?, opened]

theorem Leaving.tells (leaving : a.Leaving span b) :
    a.Tells (a.complaints (.endScope span)) b := by
  have left : ∀ outer, a.Tells [] { a with opened := outer } := fun _ => (Tells.refl a).same rfl
  cases leaving with
  | @passed outer opened =>
    have alone : a.complaints (.endScope span) = [] := by simp [complaints, stranded?, opened]
    rw [alone]
    exact left outer
  | @refused e opened =>
    rw [complaints_outermost opened]
    exact (Tells.refl a).refuse e span
  | lost opened =>
    rw [complaints_outermost opened]
    exact (Tells.refl a).move _
  | @ended _ outer _ t _ _ deep _ ordinary =>
    rw [complaints_deep deep]
    refine Tells.noteTransition (Tells.note ?_ ordinary) "Exited scope" none
    exact (left outer).same rfl
  | @dropped _ outer e _ t _ deep =>
    rw [complaints_deep deep]
    exact ((left outer).refuse e span).move t
  | @stuck o outer e opened nested real shallow =>
    have alone : a.complaints (.endScope span) = [o.complaint] := by
      simp [complaints, stranded?, opened, nested, real, shallow]
    rw [alone]
    exact ((left outer).refuse e span).complain o

theorem tells_endProgram : a.Tells (a.complaints (.endProgram span))
    (a.apply (.endProgram span)).2 := by
  show a.Tells [] (a.endProgram span).2
  unfold endProgram
  rcases a.table.finish with ⟨e | scope, t⟩
  · exact ((Tells.refl a).move t).refuse e span
  · have ended : a.Tells [] { a with table := t, opened := [] } := (Tells.refl a).same rfl
    exact Tells.same (ended.note rfl) rfl

theorem Declaring.tells {d : Declaration} {done : Bool} (declaring : a.Declaring d span done b) :
    a.Tells [] b := by
  cases declaring with
  | unbuilt | refused => exact (Tells.refl a).refuse _ span
  | landed => exact (Tells.refl a).same rfl
  | @warned _ t =>
    have landed : a.Tells [] { a with table := t, declared := a.declared + 1 } :=
      (Tells.refl a).same rfl
    refine landed.trans ⟨_, records_warned rfl ?_⟩
    show Code.shadowed ≠ Code.undeclared
    decide

theorem tells_resolve : a.Tells (a.complaints (.resolve name span))
    (a.apply (.resolve name span)).2 := by
  show a.Tells [] (a.resolve name span).2
  unfold resolve
  split
  · exact (Tells.refl a).same rfl
  · exact ⟨_, records_undeclared⟩

theorem tells (formed : a.table.Formed) (call : Call) :
    a.Tells (a.complaints call) (a.apply call).2 := by
  cases call with
  | beginProgram => exact tells_beginProgram
  | beginProcedure => exact tells_beginProcedure
  | beginBlock => exact tells_beginBlock
  | endScope span => exact (leaving formed span).tells
  | endProgram => exact tells_endProgram
  | declare d span => exact (a.declaring d span).tells
  | resolve => exact tells_resolve

def call? (a : Analysis) (s : Step) : Option Call :=
  match s.kind with
  | .program => some (.beginProgram s.name s.span)
  | .procedure => some (.beginProcedure s.name s.span)
  | .block => some (.beginBlock s.span)
  | .close => some (if a.atProgram then .endProgram s.span else .endScope s.span)
  | .declare => s.declaration?.map (.declare · s.span)
  | .resolve => some (.resolve s.name s.span)

theorem take_eq_call (a : Analysis) (s : Step) :
    a.take s = ((a.call? s).map fun call => (a.apply call).2).getD a := by
  unfold take call?
  cases s.kind with
  | program | procedure | block | resolve => rfl
  | close => by_cases atProgram : a.atProgram <;> simp [atProgram, apply]
  | declare => cases s.declaration? <;> rfl

theorem tells_take (formed : a.table.Formed) (s : Step) :
    a.Tells ((a.call? s).toList.flatMap a.complaints) (a.take s) := by
  rw [take_eq_call]
  cases a.call? s with
  | none => exact .refl a
  | some call => simpa using tells formed call

structure Faithful (a : Analysis) : Prop where
  unresolved : a.unresolved = a.diagnostics.toList.countP (·.code = .undeclared)
  halted : a.halted = a.diagnostics.toList.any (·.stops a.preferences)

theorem faithful_start (policy : Policy) (preferences : Preferences) :
    (start policy preferences).Faithful :=
  ⟨rfl, rfl⟩

theorem Records.faithful (records : Records a ds alone b) (faithful : a.Faithful) : b.Faithful where
  unresolved := by
    rw [records.unresolved, records.diagnostics, List.countP_append, faithful.unresolved]
  halted := by
    rw [records.halted, records.diagnostics, records.preferences, List.any_append, faithful.halted]

theorem Faithful.apply (faithful : a.Faithful) (formed : a.table.Formed) (call : Call) :
    (a.apply call).2.Faithful := by
  obtain ⟨ds, records⟩ := tells formed call
  exact records.faithful faithful

end Analysis

end ScopeFrames
