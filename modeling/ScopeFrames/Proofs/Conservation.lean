import ScopeFrames.Proofs.Loss
import ScopeFrames.Proofs.Telling

/-!
Conservation.  What was declared is in a scope that was closed, in one that is live, or in one that
an end dropped because it could not be closed.  Each reference is counted as resolved or not, and
each one that is not is told of once.
-/

namespace ScopeFrames

namespace Scope

variable {s : Scope} {size : Int64} {owner : Option String} {e : Entry} {offsets : List Int64}

@[simp] theorem size_extended : (s.extended [e]).size = s.size + 1 := by
  simp [extended, Scope.size]

@[simp] theorem size_sized : (s.sized size owner).size = s.size := by
  rw [← length_names, sized_names, length_names]

theorem size_placed (enough : offsets.length = s.size) : (s.placed offsets).size = s.size := by
  rw [← length_names, placed_names enough, length_names]

end Scope

@[simp] theorem ClosedScope.size_ofScope (s : Scope) (owner : Option String) (size : Int64) :
    (ofScope s owner size).size = s.size :=
  Array.length_toList

section

variable [Limits]

namespace Table

namespace Outcome

def landed : Outcome → Nat
  | .declared => 1
  | _ => 0

def released : Outcome → Nat
  | .closed scope => scope.size
  | .abandoned scope => scope.size
  | _ => 0

end Outcome

variable {t t' : Table} {op : Operation} {o : Outcome} {e : Entry} {owner : Option String}

theorem entryCount_eq (t : Table) : t.entryCount = (t.scopes.map (·.size)).sum := by
  rw [entryCount, List.sum_eq_foldl, List.foldl_map]

theorem Step.conserves (step : t.Step op o t') :
    t'.entryCount + o.released = t.entryCount + o.landed := by
  simp only [entryCount_eq]
  cases step with
  | refused => rfl
  | entered | enteredProcedure => simp [pushed, Scope.size, Outcome.released, Outcome.landed]
  | exited scopes lays =>
    simp only [scopes, Outcome.released, Outcome.landed, ClosedScope.size_ofScope,
      Scope.size_placed lays.length_eq, Scope.size_sized, List.map_cons, List.sum_cons]
    omega
  | finished scopes lays =>
    simp [scopes, Outcome.released, Outcome.landed, Scope.size_placed lays.length_eq]
  | abandoned scopes =>
    simp only [scopes, Outcome.released, Outcome.landed, List.map_cons, List.sum_cons]
    omega
  | declared scopes =>
    simp only [scopes, Outcome.released, Outcome.landed, Scope.size_extended, List.map_cons,
      List.sum_cons]
    omega

theorem entryCount_push : (t.push owner).2.entryCount = t.entryCount := by
  rw [push_eq]
  split
  · simp [entryCount_eq, pushed, Scope.size]
  · rfl

theorem entryCount_enterProcedure {owner : String} :
    (t.enterProcedure owner).2.entryCount = t.entryCount := by
  by_cases opens : t.Opens owner
  · rw [enterProcedure_eq opens, entryCount_push]
  · obtain ⟨err, refused⟩ := enterProcedure_refused opens
    rw [refused]

end Table

namespace Analysis

def drops (a b : Analysis) : List Scope :=
  if a.diagnostics.size < b.diagnostics.size then
    a.table.scopes.take (a.table.depth - b.table.depth)
  else
    []

def discards (a : Analysis) : Call → List Scope
  | .endScope span => a.drops (a.endScope span).2
  | _ => []

def discarded (a : Analysis) : List Call → List Scope
  | [] => []
  | call :: calls => a.discards call ++ (a.apply call).2.discarded calls

def held (a : Analysis) : Nat := (a.closed.toList.map (·.size)).sum + a.table.entryCount

def Call.refers : Call → Bool
  | .resolve .. => true
  | _ => false

structure Tally where
  declared : Nat
  held : Nat
  resolved : Nat
  unresolved : Nat

def tally (a : Analysis) : Tally := ⟨a.declared, a.held, a.resolved, a.unresolved⟩

/-- From `a` to `b` all that was declared is held, but for some entries that are gone, and so many
references were counted. -/
structure Settles (a : Analysis) (gone refs : Nat) (b : Analysis) : Prop where
  entries : b.declared + a.held = a.declared + b.held + gone
  references : b.resolved + b.unresolved = a.resolved + a.unresolved + refs

variable {a b c : Analysis} {call : Call} {calls : List Call} {t : Table} {gone refs : Nat}
  {span : Span} {name : String}

namespace Settles

theorem refl (a : Analysis) : a.Settles 0 0 a := ⟨rfl, rfl⟩

theorem same (settles : a.Settles gone refs b) (same : c.tally = b.tally) :
    a.Settles gone refs c := by
  obtain ⟨declared, held, resolved, unresolved⟩ := Tally.mk.inj same
  refine ⟨?_, ?_⟩
  · rw [declared, held, settles.entries]
  · rw [resolved, unresolved, settles.references]

theorem noteTransition (settles : a.Settles gone refs b) (action : String) (id : Option ScopeId) :
    a.Settles gone refs (b.noteTransition action id) := by
  rw [noteTransition_eq]
  exact settles.same rfl

theorem move (settles : a.Settles gone refs b) (count : t.entryCount = b.table.entryCount) :
    a.Settles gone refs { b with table := t } := by
  refine settles.same ?_
  simp only [tally, held, count]

theorem opened? (settles : a.Settles gone refs b) {entered : Except TableError ScopeId × Table}
    (count : entered.2.entryCount = b.table.entryCount) (o : Opened) (action : String)
    (span : Span) : a.Settles gone refs (b.opened? entered o action span).2 := by
  rcases entered with ⟨e | id, t⟩
  · exact (settles.move count).same rfl
  · have opened : a.Settles gone refs ({ b with table := t }.opening o) :=
      (settles.move count).same rfl
    exact opened.noteTransition action id

theorem declare (settles : a.Settles gone refs b) {entry : Entry} (formed : b.table.Formed)
    (done : b.table.declare entry = (.ok (), t)) :
    a.Settles gone refs { b with table := t, declared := b.declared + 1 } := by
  have count := (formed.step_declare done).conserves
  have entries := settles.entries
  refine ⟨?_, settles.references⟩
  simp only [held, Table.Outcome.landed, Table.Outcome.released] at count entries ⊢
  omega

end Settles

theorem settles_beginProgram (formed : a.table.Formed) :
    a.Settles 0 0 (a.beginProgram name span).2 := by
  unfold beginProgram
  split
  · exact (Settles.refl a).same rfl
  · have count : a.table.enter.2.entryCount = a.table.entryCount := Table.entryCount_push
    rcases entered : a.table.enter with ⟨e | id, t⟩
    · rw [entered] at count
      exact ((Settles.refl a).move count).same rfl
    · rw [entered] at count
      have opened : a.Settles 0 0 ({ a with table := t }.opening .program) :=
        ((Settles.refl a).move count).same rfl
      have begun := opened.noteTransition "Entered program scope" (some id)
      have live : t.Formed := (formed.step_enter entered).formed formed
      dsimp only
      rw [noteTransition_eq] at begun ⊢
      rcases declared : t.declare (.program name) with ⟨e | ⟨⟩, t'⟩
      · simp only [opening, declared, Table.declare_refused declared]
        exact begun.same rfl
      · simp only [opening, declared]
        exact begun.declare live declared

theorem settles_beginProcedure (formed : a.table.Formed) :
    a.Settles 0 0 (a.beginProcedure name span).2 := by
  unfold beginProcedure
  rcases declared : a.table.declare (.procedure name) with ⟨e | ⟨⟩, t⟩
  · rw [Table.declare_refused declared]
    have refused : a.Settles 0 0 (a.refuse e span) := (Settles.refl a).same rfl
    exact refused.opened? Table.entryCount_push _ _ span
  · have landed := (Settles.refl a).declare formed declared
    exact landed.opened? Table.entryCount_enterProcedure _ _ span

theorem settles_beginBlock : a.Settles 0 0 (a.beginBlock span).2 :=
  (Settles.refl a).opened? Table.entryCount_push _ _ span

theorem Declaring.settles {d : Declaration} {done : Bool} (formed : a.table.Formed)
    (declaring : a.Declaring d span done b) : a.Settles 0 0 b := by
  cases declaring with
  | unbuilt | refused => exact (Settles.refl a).same rfl
  | landed _ declared => exact (Settles.refl a).declare formed declared
  | warned _ declared => exact ((Settles.refl a).declare formed declared).same rfl

theorem settles_closed {scope : ClosedScope}
    (count : t.entryCount + scope.size = a.table.entryCount) :
    a.Settles 0 0 { a with table := t, closed := a.closed.push scope } := by
  refine ⟨?_, rfl⟩
  simp only [held, Array.toList_push, List.map_append, List.sum_append, List.map_singleton,
    List.sum_singleton]
  omega

theorem settles_endProgram (formed : a.table.Formed) : a.Settles 0 0 (a.endProgram span).2 := by
  unfold endProgram
  rcases finished : a.table.finish with ⟨e | scope, t⟩
  · rw [formed.finish_refused finished]
    exact (Settles.refl a).same rfl
  · have closed := settles_closed (formed.step_finish finished).conserves
    exact closed.same rfl

theorem settles_resolve : a.Settles 0 1 (a.resolve name span).2 := by
  unfold resolve
  split
  · exact ⟨rfl, Nat.add_right_comm _ _ _⟩
  · exact ⟨rfl, rfl⟩

theorem settles_other (formed : a.table.Formed) (other : ∀ span, call ≠ .endScope span) :
    a.Settles 0 (if call.refers then 1 else 0) (a.apply call).2 := by
  cases call with
  | beginProgram => exact settles_beginProgram formed
  | beginProcedure => exact settles_beginProcedure formed
  | beginBlock => exact settles_beginBlock
  | endScope span => exact absurd rfl (other span)
  | endProgram => exact settles_endProgram formed
  | declare d span => exact (a.declaring d span).settles formed
  | resolve => exact settles_resolve

theorem drops_kept (table : b.table = a.table) : a.drops b = [] := by simp [drops, table]

theorem drops_untold (same : b.diagnostics = a.diagnostics) : a.drops b = [] := by
  simp [drops, same]

theorem Settles.keeping (settles : a.Settles 0 refs b) (kept : a.drops b = []) :
    a.Settles ((a.drops b).map (·.size)).sum refs b := by
  rwa [kept]

theorem Leaving.counts (leaving : a.Leaving span b) :
    b.declared = a.declared ∧ b.resolved = a.resolved ∧ b.unresolved = a.unresolved := by
  cases leaving with
  | passed | refused | lost | dropped | stuck => exact ⟨rfl, rfl, rfl⟩
  | ended =>
    rw [noteTransition_eq]
    exact ⟨rfl, rfl, rfl⟩

theorem Leaving.settles (leaving : a.Leaving span b) (steady : a.Steady)
    (going : a.halted = false) : a.Settles ((a.drops b).map (·.size)).sum 0 b := by
  have left : ∀ outer, a.Settles 0 0 { a with opened := outer } :=
    fun _ => (Settles.refl a).same rfl
  cases leaving with
  | passed => exact (left _).keeping (drops_kept rfl)
  | refused =>
    refine Settles.keeping ?_ (drops_kept rfl)
    exact (Settles.refl a).same rfl
  | lost opened step =>
    -- a scope below the program's was left live, which only a halted analysis can meet
    have strays : a.Strays (.endScope span) := steady.strays opened (.inl ⟨_, step⟩)
    exact absurd strays.halted (Bool.eq_false_iff.1 going)
  | ended _ _ step =>
    have closed := settles_closed step.conserves
    rw [noteTransition_eq]
    exact Settles.keeping (closed.same rfl) (drops_untold rfl)
  | @dropped _ outer e scope t _ _ step =>
    have count : t.entryCount + scope.size = a.table.entryCount := step.conserves
    have gone : a.drops { { a with opened := outer }.refuse e span with table := t } = [scope] := by
      cases step with
      | abandoned scopes => simp [drops, refuse, report, note, Table.depth, scopes]
    refine ⟨?_, rfl⟩
    rw [gone, List.map_singleton, List.sum_singleton]
    simp only [held, refuse, report, note]
    omega
  | @stuck o outer =>
    refine Settles.keeping ?_ (drops_kept rfl)
    exact (left outer).same rfl

theorem Steady.settles (steady : a.Steady) (going : a.halted = false) (call : Call) :
    a.Settles ((a.discards call).map (·.size)).sum (if call.refers then 1 else 0)
      (a.apply call).2 := by
  have formed := steady.based.formed
  cases call with
  | endScope span => exact (leaving formed span).settles steady going
  | _ => exact settles_other formed (by simp)

theorem references_apply (formed : a.table.Formed) (call : Call) :
    (a.apply call).2.resolved + (a.apply call).2.unresolved =
      a.resolved + a.unresolved + if call.refers then 1 else 0 := by
  cases call with
  | endScope span =>
    obtain ⟨-, resolved, unresolved⟩ := (leaving formed span).counts
    show (a.endScope span).2.resolved + (a.endScope span).2.unresolved = a.resolved + a.unresolved
    rw [resolved, unresolved]
  | _ => exact (settles_other formed (by simp)).references

theorem halted_after (halted : a.halted = true) (calls : List Call) :
    (a.after calls).halted = true :=
  after_induction (motive := fun a => a.halted = true) halted
    fun _ call halted => halted_apply halted call

theorem Steady.conserves (steady : a.Steady) (going : (a.after calls).halted = false) :
    (a.after calls).declared + a.held =
      a.declared + (a.after calls).held + ((a.discarded calls).map (·.size)).sum := by
  induction calls generalizing a with
  | nil => rfl
  | cons call calls ih =>
    have before : a.halted = false := by
      refine Bool.eq_false_iff.2 fun halted => ?_
      rw [halted_after halted (call :: calls)] at going
      cases going
    have entries := (steady.settles before call).entries
    have later := ih (steady.apply call) going
    rw [discarded, List.map_append, List.sum_append, after_cons]
    omega

theorem Steady.references (steady : a.Steady) (calls : List Call) :
    (a.after calls).resolved + (a.after calls).unresolved =
      a.resolved + a.unresolved + calls.countP Call.refers := by
  induction calls generalizing a with
  | nil => rfl
  | cons call calls ih =>
    rw [after_cons, ih (steady.apply call), references_apply steady.based.formed,
      List.countP_cons]
    omega

theorem faithful_after (policy : Policy) (preferences : Preferences) (calls : List Call) :
    ((start policy preferences).after calls).Faithful := by
  refine (after_induction (motive := fun a => a.Steady ∧ a.Faithful)
    ⟨steady_start policy preferences, faithful_start policy preferences⟩ ?_).2
  rintro a call ⟨steady, faithful⟩
  exact ⟨steady.apply call, faithful.apply steady.based.formed call⟩

/-- After any calls that do not halt an analysis, what was declared is in closed scopes, in live
ones or in those that a failed end discarded.  After any calls at all each reference is counted
once, and each one that was not found is told of once. -/
theorem conserved_after (policy : Policy) (preferences : Preferences) (calls : List Call) :
    let a := (start policy preferences).after calls
    (a.halted = false →
      a.declared = (a.closed.toList.map (·.size)).sum + a.table.entryCount +
        (((start policy preferences).discarded calls).map (·.size)).sum) ∧
    a.resolved + a.unresolved = calls.countP Call.refers ∧
    a.unresolved = a.diagnostics.toList.countP (·.code = .undeclared) := by
  intro a
  have steady := steady_start policy preferences
  refine ⟨fun going => ?_, ?_, ?_⟩
  · have conserves : a.declared = 0 + a.held + _ := steady.conserves going
    rwa [Nat.zero_add] at conserves
  · have references : a.resolved + a.unresolved = 0 + _ := steady.references calls
    rwa [Nat.zero_add] at references
  · exact (faithful_after policy preferences calls).unresolved

end Analysis

end

namespace Analysis

def unlaidBlock : List Call :=
  [ .beginProgram "m" .dummy, .beginProcedure "p" .dummy, .declare (.simple "x" .int) .dummy,
    .endScope .dummy, .beginBlock .dummy, .declare (.array "a" .int none) .dummy,
    .resolve "x" .dummy, .endScope .dummy, .resolve "p" .dummy ]

theorem unlaidBlock_conserved :
    let a := (start {} {}).after unlaidBlock
    a.halted = false ∧ a.declared = 4 ∧ a.closed.toList.map (·.size) = [1] ∧
      a.table.entryCount = 2 ∧ ((start {} {}).discarded unlaidBlock).map (·.size) = [1] ∧
      a.declared = (a.closed.toList.map (·.size)).sum + a.table.entryCount +
        (((start {} {}).discarded unlaidBlock).map (·.size)).sum := by
  have going : ((start {} {}).after unlaidBlock).halted = false := by decide +kernel
  exact ⟨going, by decide +kernel, by decide +kernel, by decide +kernel, by decide +kernel,
    (conserved_after {} {} unlaidBlock).1 going⟩

end Analysis

end ScopeFrames
