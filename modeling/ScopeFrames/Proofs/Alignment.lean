import Mathlib.Data.Nat.Find
import ScopeFrames.Proofs.Stack
import ScopeFrames.Trace.Replay

/-!
As long as an analysis is not halted, what is open in it and what is live in its table match, one
for one.  So the end of anything in a replayed trace meets the scope that was opened for it.
-/

namespace ScopeFrames

theorem Opened.owner?_eq_some {o : Opened} {name : String} :
    o.owner? = some name ↔ o = .procedure name := by
  cases o <;> simp [owner?]

theorem exists_below {f : Nat → Nat} {n : Nat} (climbs : ∀ k < n, f (k + 1) ≤ f k + 1)
    (above : f 0 < f n) : ∃ m < n, (∀ k, m < k → k ≤ n → f m < f k) ∧ f n = f m + 1 := by
  obtain ⟨m, greatest⟩ : ∃ m, m = Nat.findGreatest (fun k => f k < f n) n := ⟨_, rfl⟩
  have below : f m < f n := greatest ▸ Nat.findGreatest_spec (P := fun k => f k < f n)
    (Nat.zero_le n) above
  have le : m ≤ n := greatest ▸ Nat.findGreatest_le n
  have after : ∀ k, m < k → k ≤ n → f n ≤ f k := fun k later le =>
    Nat.le_of_not_lt
      (Nat.findGreatest_is_greatest (P := fun k => f k < f n) (greatest ▸ later) le)
  have earlier : m < n := le.lt_of_ne fun same => Nat.lt_irrefl _ (same ▸ below)
  refine ⟨m, earlier, fun k later le => below.trans_le (after k later le), ?_⟩
  have next := after (m + 1) (Nat.lt_succ_self m) earlier
  have climb := climbs m earlier
  omega

section

variable [Limits]

namespace Table

variable {t t' : Table} {op : Operation} {id : ScopeId}

def ids (t : Table) : List ScopeId := t.scopes.map (·.id)

def owners (t : Table) : List (Option String) := t.scopes.map (·.owner)

def marks (t : Table) : List (ScopeId × Option String) := t.scopes.map fun s => (s.id, s.owner)

theorem ids_eq (t : Table) : t.ids = t.marks.map (·.1) := by
  simp [ids, marks, Function.comp_def]

theorem owners_eq (t : Table) : t.owners = t.marks.map (·.2) := by
  simp [owners, marks, Function.comp_def]

@[simp] theorem length_owners (t : Table) : t.owners.length = t.depth := List.length_map _

theorem Declares.marks_eq (declares : t.Declares t') : t'.marks = t.marks := by
  rcases declares with rfl | ⟨e, step⟩
  · rfl
  · cases step with
    | declared scopes => simp [marks, scopes]

theorem Step.marks_entered (step : t.Step op (.entered id) t') :
    t'.marks = (id, op.owner?) :: t.marks := by
  cases step with
  | entered | enteredProcedure => rfl

theorem Leaves.marks_eq (leaves : t.Leaves t') : t'.marks = t.marks.tail := by
  rcases leaves with ⟨closed, step⟩ | ⟨s, step⟩
  · cases step with
    | exited scopes => simp [marks, scopes]
  · cases step with
    | abandoned scopes => simp [marks, scopes]

end Table

namespace Analysis

/-- What is open with a scope of its own and the live scopes, outermost first, match one for one. -/
structure Aligned (a : Analysis) : Prop where
  length_eq : (real a.opened).length = a.table.depth
  owner_iff : ∀ (i : Nat) (o : Opened) (s : Scope), (real a.opened).reverse[i]? = some o →
    a.table.outermostFirst[i]? = some s → ∀ name, o = .procedure name ↔ s.owner = some name
  anonymous_iff : ∀ (i : Nat) (o : Opened) (s : Scope), (real a.opened).reverse[i]? = some o →
    a.table.outermostFirst[i]? = some s → (o = .block ∨ o = .program ↔ s.owner = none)
  program_last : .program ∉ a.opened.dropLast
  bottom_real : a.opened.getLast? ≠ some .placeholder

def Matched (x : Standing) : Prop := (real x.opened).map Opened.owner? = x.table.owners

variable {a b : Analysis} {x y : Standing} {halted : Bool} {o : Opened} {outer : List Opened}
  {s : Scope} {below : List Scope} {name : String}

theorem Matched.length_eq (matched : Matched x) : (real x.opened).length = x.table.depth := by
  simpa using congrArg List.length matched

theorem Motion.matched (motion : Motion x halted y) (based : Based x) (matched : Matched x)
    (going : halted = false) : Matched y := by
  have length_eq := matched.length_eq
  rw [Matched, Table.owners_eq] at matched
  rw [Matched, Table.owners_eq]
  cases motion with
  | kept declares => rw [declares.marks_eq, matched]
  | begun real _ owner declares step declares' =>
    rw [real_cons real, declares'.marks_eq, step.marks_entered, declares.marks_eq, List.map_cons,
      List.map_cons, matched, owner]
  | stoodIn _ declares => rw [declares.marks_eq, real_placeholder, matched]
  | passed opened => rw [← matched, opened, real_placeholder]
  | ended opened _ real leaves =>
    rw [leaves.marks_eq, List.map_tail, ← matched, opened, real_cons real, List.map_cons,
      List.tail_cons]
  | stuck => cases going
  | lost opened leaves =>
    obtain ⟨live, shallower⟩ := leaves.depth_eq
    rcases opened with opened | ⟨outer, opened⟩
    · simp only [opened, real_nil, List.length_nil] at length_eq
      omega
    · have grounded := based.grounded
      rw [opened] at grounded
      rw [opened, grounded.outer_eq_nil] at length_eq
      have single : (real [.program]).length = 1 := rfl
      omega
  | finished step =>
    have empty : _ = [] := List.length_eq_zero_iff.1 step.depth_finished.2
    simp [Table.marks, empty]

theorem Matched.aligned (matched : Matched a.standing) (based : Based a.standing) : a.Aligned := by
  have owner_eq : ∀ (i : Nat) (o : Opened) (s : Scope), (real a.opened).reverse[i]? = some o →
      a.table.outermostFirst[i]? = some s → o.owner? = s.owner := by
    intro i o s open_at live_at
    have reversed : (real a.opened).reverse.map Opened.owner? =
        a.table.outermostFirst.map (·.owner) := by
      rw [List.map_reverse, Table.outermostFirst, List.map_reverse]
      exact congrArg List.reverse matched
    have same := congrArg (·[i]?) reversed
    simp only [List.getElem?_map, open_at, live_at] at same
    exact Option.some.inj same
  refine ⟨matched.length_eq, ?_, ?_, based.grounded.program_last, based.grounded.bottom_real⟩
  · intro i o s open_at live_at name
    rw [← owner_eq i o s open_at live_at, Opened.owner?_eq_some]
  · intro i o s open_at live_at
    rw [← owner_eq i o s open_at live_at]
    have isReal := (List.mem_filter.1 (List.mem_reverse.1 (List.mem_of_getElem? open_at))).2
    cases o with
    | placeholder => cases isReal
    | program | procedure | block => simp [Opened.owner?]

structure Steady (a : Analysis) : Prop where
  based : Based a.standing
  matched : a.halted = false → Matched a.standing

theorem steady_start (policy : Policy) (preferences : Preferences) :
    (start policy preferences).Steady :=
  ⟨based_start policy preferences, fun _ => rfl⟩

theorem Steady.apply (steady : a.Steady) (call : Call) : (a.apply call).2.Steady := by
  have motion := (act steady.based.formed call).motion
  refine ⟨motion.based steady.based, fun going => ?_⟩
  have before : a.halted = false :=
    Bool.eq_false_iff.2 fun halted => by simp [halted_apply halted] at going
  exact motion.matched steady.based (steady.matched before) going

theorem steady_after (policy : Policy) (preferences : Preferences) (calls : List Call) :
    ((start policy preferences).after calls).Steady :=
  after_induction (steady_start policy preferences) fun _ call steady => steady.apply call

theorem Steady.aligned (steady : a.Steady) (going : a.halted = false) : a.Aligned :=
  (steady.matched going).aligned steady.based

theorem take_eq (a : Analysis) (step : ScopeFrames.Step) :
    a.take step = a ∨ ∃ call, a.take step = (a.apply call).2 := by
  unfold take
  cases step.kind with
  | program => exact .inr ⟨.beginProgram step.name step.span, rfl⟩
  | procedure => exact .inr ⟨.beginProcedure step.name step.span, rfl⟩
  | block => exact .inr ⟨.beginBlock step.span, rfl⟩
  | close =>
    by_cases atProgram : a.atProgram
    · exact .inr ⟨.endProgram step.span, if_pos atProgram⟩
    · exact .inr ⟨.endScope step.span, if_neg atProgram⟩
  | declare =>
    cases step.declaration? with
    | none => exact .inl rfl
    | some d => exact .inr ⟨.declare d step.span, rfl⟩
  | resolve => exact .inr ⟨.resolve step.name step.span, rfl⟩

theorem Steady.take (steady : a.Steady) (step : ScopeFrames.Step) : (a.take step).Steady := by
  rcases a.take_eq step with same | ⟨call, same⟩
  · rwa [same]
  · rw [same]
    exact steady.apply call

theorem motion_take (formed : a.table.Formed) (step : ScopeFrames.Step) :
    Motion a.standing (a.take step).halted (a.take step).standing := by
  rcases a.take_eq step with same | ⟨call, same⟩
  · rw [same]
    exact .kept (.inl rfl)
  · rw [same]
    exact (act formed call).motion

/-- The innermost scope has that id and is closed, or else an error is recorded and it is dropped or
left. -/
def Treats (a : Analysis) (id : ScopeId) (b : Analysis) : Prop :=
  (a.table.ids = id :: b.table.ids ∧
      ∃ scope : ClosedScope, scope.id = id ∧ b.closed = a.closed.push scope) ∨
    a.Blames b ∧ b.closed = a.closed ∧ (a.table.ids = id :: b.table.ids ∨ b.table = a.table)

theorem Blames.treats {id : ScopeId} (blames : a.Blames b) (table : b.table = a.table)
    (closed : b.closed = a.closed) : a.Treats id b :=
  .inr ⟨blames, closed, .inr table⟩

theorem treats_endProgram {answer : Answer} {span : Span}
    (act : Act a (.endProgram span) answer b) (scopes : a.table.scopes = s :: below) :
    a.Treats s.id b := by
  cases act with
  | refused _ blames same =>
    exact blames.treats (congrArg Standing.table same) (congrArg Standing.closed same)
  | begunBlock begins | stoodIn begins => cases begins
  | finished step same =>
    obtain ⟨table, -, closed⟩ := Standing.mk.inj same
    cases step with
    | finished alone =>
      obtain ⟨rfl, rfl⟩ := List.cons.inj (alone.symm.trans scopes)
      refine .inl ⟨?_, _, ?_, closed⟩
      · simp [Table.ids, table, scopes]
      · simp [ClosedScope.ofScope, Scope.placed]

theorem treats_endScope {answer : Answer} {span : Span} (act : Act a (.endScope span) answer b)
    (opened : a.opened = o :: outer) (nested : o ≠ .program) (isReal : o ≠ .placeholder)
    (scopes : a.table.scopes = s :: below) : a.Treats s.id b := by
  cases act with
  | refused _ blames same | stuck _ _ _ _ blames _ same =>
    exact blames.treats (congrArg Standing.table same) (congrArg Standing.closed same)
  | begunBlock begins | stoodIn begins => cases begins
  | passed opened' => exact absurd (List.cons.inj (opened.symm.trans opened')).1 isReal
  | ended _ _ _ step same =>
    obtain ⟨table, -, closed⟩ := Standing.mk.inj same
    cases step with
    | exited scopes' =>
      obtain ⟨rfl, rfl⟩ := List.cons.inj (scopes'.symm.trans scopes)
      refine .inl ⟨?_, _, ?_, closed⟩
      · simp [Table.ids, table, scopes]
      · simp [ClosedScope.ofScope, Scope.placed]
  | dropped _ _ _ step blames same =>
    obtain ⟨table, -, closed⟩ := Standing.mk.inj same
    cases step with
    | abandoned scopes' =>
      obtain ⟨rfl, rfl⟩ := List.cons.inj (scopes'.symm.trans scopes)
      exact .inr ⟨blames, closed, .inl (by simp [Table.ids, table, scopes])⟩
  | lost opened' =>
    rcases opened' with opened' | ⟨outer', opened'⟩
    · cases opened.symm.trans opened'
    · exact absurd (List.cons.inj (opened.symm.trans opened')).1 nested

theorem atProgram_iff : a.atProgram = true ↔ a.opened = [.program] := decide_eq_true_iff

theorem treats_close (based : Based a.standing) {step : ScopeFrames.Step}
    (kind : step.kind = .close) (opened : a.opened = o :: outer) (isReal : o ≠ .placeholder)
    (scopes : a.table.scopes = s :: below) : a.Treats s.id (a.take step) := by
  simp only [take, kind]
  split
  · exact treats_endProgram (act based.formed (.endProgram step.span)) scopes
  · next unfinished =>
    refine treats_endScope (act based.formed (.endScope step.span)) opened ?_ isReal scopes
    rintro rfl
    have grounded := based.grounded
    rw [show a.standing.opened = _ from opened] at grounded
    exact unfinished (atProgram_iff.2 (opened.trans (by rw [grounded.outer_eq_nil])))

theorem close_placeholder {step : ScopeFrames.Step} (kind : step.kind = .close)
    (opened : a.opened = .placeholder :: outer) : a.take step = { a with opened := outer } := by
  simp [take, kind, atProgram, endScope, opened]

theorem Motion.opens (motion : Motion x halted y) (based : Based x) (matched : Matched x)
    (deeper : x.opened.length < y.opened.length) :
    ∃ o s below, y.opened = o :: x.opened ∧ y.table.scopes = s :: below ∧
      Enclosed y.opened s below y ∧
        (o = .placeholder ∧ y.table.ids = x.table.ids ∨
          o ≠ .placeholder ∧ y.table.ids = s.id :: x.table.ids) := by
  have length_eq := matched.length_eq
  cases motion with
  | kept | lost => exact absurd deeper (Nat.lt_irrefl _)
  | passed opened | ended opened | stuck opened =>
    rw [opened, List.length_cons] at deeper
    exact absurd deeper (Nat.not_lt_of_lt (Nat.lt_succ_self _))
  | finished => exact absurd deeper (Nat.not_lt_zero _)
  | @begun _ op id t t' t'' o isReal nested _ declares step declares' =>
    have ids : t''.ids = id :: x.table.ids := by
      rw [t''.ids_eq, x.table.ids_eq, declares'.marks_eq, step.marks_entered, declares.marks_eq,
        List.map_cons]
    obtain ⟨s, below, scopes, rfl, belows⟩ := List.map_eq_cons_iff.1 ids
    refine ⟨o, s, below, rfl, scopes, ?_, .inr ⟨isReal, ids⟩⟩
    refine enclosed_top (List.cons_ne_nil _ _) (fun alone => ?_) scopes
    have outermost : x.opened = [] := (List.cons.inj alone).2
    have dead : x.table.scopes = [] := by
      rw [outermost, real_nil] at length_eq
      exact List.length_eq_zero_iff.1 length_eq.symm
    rwa [Table.ids, dead, List.map_nil, List.map_eq_nil_iff] at belows
  | @stoodIn _ t deep declares =>
    have inside : x.opened ≠ [] := by
      intro outermost
      have deep := deep outermost
      rw [← length_eq, outermost] at deep
      exact absurd deep (Nat.not_le.2 Limits.scopeDepth_pos)
    have live : 0 < t.scopes.length := by
      have same : t.depth = x.table.depth := declares.depth_eq
      rw [← Table.depth, same, ← length_eq]
      exact based.grounded.real_pos inside
    obtain ⟨s, below, scopes⟩ := List.exists_cons_of_length_pos live
    refine ⟨.placeholder, s, below, rfl, scopes, ?_, .inl ⟨rfl, ?_⟩⟩
    · exact enclosed_top (List.cons_ne_nil _ _) (by simp) scopes
    · rw [t.ids_eq, x.table.ids_eq, declares.marks_eq]

theorem Motion.length_le (motion : Motion x halted y) :
    y.opened.length ≤ x.opened.length + 1 := by
  cases motion with
  | kept | begun | stoodIn | lost => simp
  | passed opened | ended opened | stuck opened => simp [opened]; omega
  | finished => simp

end Analysis

namespace Run

theorem through_halted {r : Run} (halted : r.analysis.halted = true) (steps : List Step) :
    through steps r = r := by
  cases steps <;> simp [through, halted]

theorem through_append (front back : List Step) (r : Run) :
    through (front ++ back) r = through back (through front r) := by
  induction front generalizing r with
  | nil => rfl
  | cons s front ih =>
    simp only [List.cons_append, through]
    split
    · next halted => exact (through_halted halted back).symm
    · exact ih _

theorem executed_through_le (steps : List Step) (r : Run) :
    (through steps r).executed ≤ r.executed + steps.length := by
  induction steps generalizing r with
  | nil => exact Nat.le_refl _
  | cons s steps ih =>
    simp only [through, List.length_cons]
    split
    · omega
    · exact (ih _).trans (by dsimp only; omega)

end Run

namespace Trace

def reached (t : Trace) (policy : Policy) (preferences : Preferences) (index : Nat) : Analysis :=
  (Run.through (t.steps.take index) { analysis := .start policy preferences }).analysis

/-- The step at `last` ends what the one at `first` opened: that is open innermost then, and was
open all the time. -/
structure Ends (steps : List Step) (states : Nat → Analysis) (first last : Nat) : Prop where
  later : first < last
  closes : ∃ s, steps[last]? = some s ∧ s.kind = .close
  stays : ∀ k, first < k → k ≤ last → (states first).opened.length < (states k).opened.length
  innermost : (states last).opened.length = (states first).opened.length + 1

/-- The step at `last` treats the scope that the one at `first` opened and, if that opened none, no
scope at all. -/
def Meets (states : Nat → Analysis) (first last : Nat) : Prop :=
  (∃ id, (states (first + 1)).table.ids = id :: (states first).table.ids ∧
      (states last).table.ids = id :: (states first).table.ids ∧
      (states last).Treats id (states (last + 1))) ∨
    (states (first + 1)).table.ids = (states first).table.ids ∧
      (states (last + 1)).table = (states last).table ∧
      (states (last + 1)).closed = (states last).closed

variable {t : Trace} {policy : Policy} {preferences : Preferences} {index first last : Nat}

theorem reached_succ (executed : index < (t.run policy preferences).executed) :
    (t.reached policy preferences index).halted = false ∧
      ∃ s event, t.steps[index]? = some s ∧ t.reached policy preferences (index + 1)
        = ((t.reached policy preferences index).note event).take s := by
  obtain ⟨r, led⟩ : ∃ r, Run.through (t.steps.take index)
      { analysis := .start policy preferences } = r := ⟨_, rfl⟩
  have split : t.run policy preferences = Run.through (t.steps.drop index) r := by
    rw [← led, ← Run.through_append, List.take_append_drop, run]
  have few : r.executed ≤ 0 + (t.steps.take index).length := led ▸ Run.executed_through_le _ _
  have short := List.length_take_le index t.steps
  have going : r.analysis.halted = false := by
    refine Bool.eq_false_iff.2 fun halted => ?_
    rw [split, Run.through_halted halted] at executed
    omega
  have here : t.reached policy preferences index = r.analysis := congrArg Run.analysis led
  refine ⟨here ▸ going, ?_⟩
  match found : t.steps[index]? with
  | none =>
    have all : (t.run policy preferences).executed ≤ 0 + t.steps.length :=
      Run.executed_through_le _ _
    have past : t.steps.length ≤ index := List.getElem?_eq_none_iff.1 found
    omega
  | some s =>
    obtain ⟨event, told⟩ : ∃ event, r.announce s = r.analysis.note event := ⟨_, rfl⟩
    refine ⟨s, event, rfl, ?_⟩
    rw [here, ← told, reached, List.take_add_one, found, Option.toList_some, Run.through_append,
      led]
    simp [Run.through, going]

theorem steady_through {r : Run} (steady : r.analysis.Steady) (steps : List Step) :
    (Run.through steps r).analysis.Steady := by
  induction steps generalizing r with
  | nil => exact steady
  | cons s steps ih =>
    simp only [Run.through]
    split
    · exact steady
    · exact ih (Analysis.Steady.take (a := r.announce s) ⟨steady.based, steady.matched⟩ s)

theorem steady_reached (t : Trace) (policy : Policy) (preferences : Preferences) (index : Nat) :
    (t.reached policy preferences index).Steady :=
  steady_through (Analysis.steady_start policy preferences) _

theorem motion_reached (executed : index < (t.run policy preferences).executed) :
    Analysis.Motion (t.reached policy preferences index).standing
      (t.reached policy preferences (index + 1)).halted
      (t.reached policy preferences (index + 1)).standing := by
  obtain ⟨-, s, event, -, next⟩ := reached_succ executed
  rw [next]
  exact Analysis.motion_take (a := (t.reached policy preferences index).note event)
    (steady_reached t policy preferences index).based.formed s

theorem enclosed_reached {base : List Opened} {s : Scope} {below : List Scope} {start : Nat}
    (le : start ≤ last) (inside : last < (t.run policy preferences).executed)
    (stays : ∀ k, start ≤ k → k ≤ last →
      base.length ≤ (t.reached policy preferences k).opened.length)
    (enclosed : Analysis.Enclosed base s below (t.reached policy preferences start).standing) :
    Analysis.Enclosed base s below (t.reached policy preferences last).standing := by
  induction last, le using Nat.le_induction with
  | base => exact enclosed
  | succ k le ih =>
    have executed : k < (t.run policy preferences).executed := Nat.lt_of_succ_lt inside
    have so_far := ih executed fun k' le' le'' => stays k' le' (Nat.le_succ_of_le le'')
    exact (motion_reached executed).enclosed (steady_reached t policy preferences k).based so_far
      (stays (k + 1) (Nat.le_succ_of_le le) (Nat.le_refl _))

theorem Ends.meets (ends : Ends t.steps (t.reached policy preferences) first last)
    (inside : last < (t.run policy preferences).executed) :
    Meets (t.reached policy preferences) first last := by
  have before := ends.later.trans inside
  have steady := steady_reached t policy preferences first
  obtain ⟨o, s, below, opened, scopes, enclosed, kind⟩ :=
    (motion_reached before).opens steady.based (steady.matched (reached_succ before).1)
      (ends.stays (first + 1) (Nat.lt_succ_self _) ends.later)
  have deeper : (t.reached policy preferences (first + 1)).opened.length
      = (t.reached policy preferences first).opened.length + 1 := congrArg List.length opened
  have enclosed := enclosed_reached ends.later inside
    (fun k after early => deeper ▸ ends.stays k after early) enclosed
  obtain ⟨opened', later, scopes', grows⟩ := enclosed.eq_cons (ends.innermost.trans deeper.symm)
  obtain ⟨-, e, event, found, next⟩ := reached_succ inside
  obtain ⟨e', found', closes⟩ := ends.closes
  obtain rfl : e = e' := Option.some.inj (found.symm.trans found')
  rw [opened] at opened'
  have based := (steady_reached t policy preferences last).based
  rcases kind with ⟨rfl, same⟩ | ⟨isReal, ids⟩
  · rw [Analysis.close_placeholder (a := (t.reached policy preferences last).note event) closes
      opened'] at next
    exact .inr ⟨same, by rw [next]; rfl, by rw [next]; rfl⟩
  · have belows : below.map (·.id) = (t.reached policy preferences first).table.ids := by
      rw [Table.ids, scopes, List.map_cons] at ids
      exact (List.cons.inj ids).2
    have ids' : (t.reached policy preferences last).table.ids = later.id :: below.map (·.id) :=
      congrArg (List.map Scope.id) scopes'
    refine .inl ⟨s.id, ids, by rw [ids', grows.id_eq, belows], ?_⟩
    rw [next, ← grows.id_eq]
    exact Analysis.treats_close (a := (t.reached policy preferences last).note event) based closes
      opened' isReal scopes'

theorem exists_ends (inside : last < (t.run policy preferences).executed) {s : Step}
    (found : t.steps[last]? = some s) (closes : s.kind = .close)
    (nonempty : (t.reached policy preferences last).opened ≠ []) :
    ∃ first, Ends t.steps (t.reached policy preferences) first last := by
  obtain ⟨first, later, stays, innermost⟩ :=
    exists_below (f := fun k => (t.reached policy preferences k).opened.length)
      (fun k before => (motion_reached (before.trans inside)).length_le)
      (List.length_pos_iff.2 nonempty)
  exact ⟨first, later, ⟨s, found, closes⟩, stays, innermost⟩

end Trace

namespace Analysis

/-- After any calls that do not halt an analysis, what is open and what is live are aligned.  In a
replay every end meets the scope that was opened for it, and a program's end the only live one. -/
theorem aligned_after (policy : Policy) (preferences : Preferences) :
    (∀ calls, ((start policy preferences).after calls).halted = false →
      ((start policy preferences).after calls).Aligned) ∧
    ∀ (t : Trace) (last : Nat), last < (t.run policy preferences).executed →
      let states := t.reached policy preferences
      ((states last).atProgram = true → (states last).table.depth = 1) ∧
      (∀ s, t.steps[last]? = some s → s.kind = .close → (states last).opened ≠ [] →
        ∃ first, Trace.Ends t.steps states first last) ∧
      ∀ first, Trace.Ends t.steps states first last → Trace.Meets states first last := by
  refine ⟨fun calls going => ?_, fun t last inside => ⟨fun atProgram => ?_, ?_, ?_⟩⟩
  · exact (steady_after policy preferences calls).aligned going
  · have aligned := (t.steady_reached policy preferences last).aligned (Trace.reached_succ inside).1
    have length_eq := aligned.length_eq
    rw [atProgram_iff.1 atProgram] at length_eq
    exact length_eq.symm
  · exact fun s found closes nonempty => Trace.exists_ends inside found closes nonempty
  · exact fun first ends => ends.meets inside

end Analysis

end

namespace Analysis

def innerProgram : List Call :=
  [ .beginProgram "m" .dummy, .beginProcedure "p" .dummy, .endScope .dummy,
    .beginProcedure "p" .dummy, .beginProgram "n" .dummy, .declare (.simple "x" .int) .dummy ]

def innerProgramTrace : Trace where
  steps := [
    { kind := .program, name? := some "m" },
    { kind := .procedure, name? := some "p" },
    { kind := .close },
    { kind := .procedure, name? := some "p" },
    { kind := .program, name? := some "n" },
    { kind := .declare, name? := some "x", category := some .int },
    { kind := .close },
    { kind := .close },
    { kind := .close } ]

theorem innerProgram_aligned :
    ((start {} {}).after innerProgram).halted = false ∧ ((start {} {}).after innerProgram).Aligned ∧
      let states := innerProgramTrace.reached {} {}
      (states 8).atProgram = true ∧ (states 8).table.depth = 1 ∧
        Trace.Ends innerProgramTrace.steps states 3 7 ∧ Trace.Meets states 3 7 ∧
          ∃ first, Trace.Ends innerProgramTrace.steps states first 6 := by
  have going : ((start {} {}).after innerProgram).halted = false := by decide +kernel
  have executed : (innerProgramTrace.run {} {}).executed = 9 := by decide +kernel
  have inside : ∀ last < 9, last < (innerProgramTrace.run {} {}).executed := by
    rw [executed]
    exact fun _ inside => inside
  have atProgram : (innerProgramTrace.reached {} {} 8).atProgram = true := by decide +kernel
  have stays : ∀ k ≤ 7, 3 < k → (innerProgramTrace.reached {} {} 3).opened.length <
      (innerProgramTrace.reached {} {} k).opened.length := by
    decide +kernel
  have ends : Trace.Ends innerProgramTrace.steps (innerProgramTrace.reached {} {}) 3 7 :=
    ⟨by decide, ⟨{ kind := .close }, rfl, rfl⟩, fun k later le => stays k le later,
      by decide +kernel⟩
  obtain ⟨aligned, replayed⟩ := aligned_after {} {}
  refine ⟨going, aligned innerProgram going, ?_⟩
  exact ⟨atProgram, (replayed innerProgramTrace 8 (inside 8 (by decide))).1 atProgram, ends,
    (replayed innerProgramTrace 7 (inside 7 (by decide))).2.2 3 ends,
    (replayed innerProgramTrace 6 (inside 6 (by decide))).2.1 { kind := .close } rfl rfl
      (by decide +kernel)⟩

end Analysis

end ScopeFrames
