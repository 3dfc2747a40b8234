import ScopeFrames.Proofs.Running

namespace ScopeFrames

variable [Limits]

namespace Analysis

def Told (a : Analysis) : Prop := a.problems = a.diagnostics.toList.map (·.event)

variable {a b : Analysis} {call : Call} {span : Span} {alone : List Event} {o : Opened}
  {s : ScopeFrames.Step} {name : String}

theorem Told.note (told : a.Told) {event : Event} (ordinary : event.isProblem = false) :
    (a.note event).Told := by
  rw [Told, problems_note, ordinary]
  exact (List.append_nil _).trans told

theorem Tells.problems (tells : a.Tells alone b) (told : a.Told) :
    b.problems = b.diagnostics.toList.map (·.event) ++ alone := by
  obtain ⟨ds, records⟩ := tells
  rw [records.problems, records.diagnostics, told, List.map_append]

theorem stranded?_eq_some : a.stranded? call = some o ↔ (∃ span, call = .endScope span) ∧
    a.opened.head? = some o ∧ o ≠ .program ∧ o ≠ .placeholder ∧ a.table.depth ≤ 1 := by
  cases call <;> simp [stranded?, Option.filter_eq_some_iff, and_assoc]

theorem Leaving.halted (leaving : a.Leaving span b)
    (stranded : a.stranded? (.endScope span) = some o) : b.halted = true := by
  obtain ⟨-, first, nested, real, shallow⟩ := stranded?_eq_some.1 stranded
  cases leaving with
  | passed opened =>
    rw [opened] at first
    exact absurd (Option.some.inj first).symm real
  | refused opened | lost opened =>
    rcases opened with opened | ⟨outer, opened⟩
    · rw [opened] at first
      cases first
    · rw [opened] at first
      exact absurd (Option.some.inj first).symm nested
  | ended _ deep | dropped _ deep => exact absurd shallow (Nat.not_le_of_lt deep)
  | stuck _ _ _ _ halts => exact halted_of_halts halts

theorem exists_stranded (complains : a.complaints call ≠ []) : ∃ o, a.stranded? call = some o := by
  refine Option.ne_none_iff_exists'.1 fun none_found => complains ?_
  simp [complaints, none_found]

theorem halted_of_complaints (formed : a.table.Formed) (complains : a.complaints call ≠ []) :
    (a.apply call).2.halted = true := by
  obtain ⟨o, stranded⟩ := exists_stranded complains
  obtain ⟨⟨span, rfl⟩, -⟩ := stranded?_eq_some.1 stranded
  exact (leaving formed span).halted stranded

theorem Steady.opened_of_stranded (steady : a.Steady) (going : a.halted = false)
    (stranded : a.stranded? call = some o) : a.opened = [o] := by
  obtain ⟨-, first, nested, isReal, shallow⟩ := stranded?_eq_some.1 stranded
  obtain ⟨outer, opened⟩ := List.head?_eq_some_iff.1 first
  have length_eq := (steady.matched going).length_eq
  have grounded := steady.based.grounded
  simp only [standing, opened, real_cons isReal, List.length_cons] at length_eq grounded
  have empty : outer = [] := by
    by_contra nonempty
    have real_pos := grounded.tail.real_pos nonempty
    omega
  rw [opened, empty]

def outcry (a : Analysis) (s : ScopeFrames.Step) : List Event :=
  (a.call? s).toList.flatMap a.complaints

theorem halted_of_outcry (formed : a.table.Formed) (cries : a.outcry s ≠ []) :
    (a.take s).halted = true := by
  rw [take_eq_call]
  cases calls : a.call? s with
  | none => exact absurd (by simp [outcry, calls]) cries
  | some call => exact halted_of_complaints formed (by simpa [outcry, calls] using cries)

theorem Act.opened_nil {answer : Answer} (act : Act a call answer b) (begins : call.begins = false)
    (free : a.opened = []) : b.opened = [] := by
  cases act with
  | refused _ _ same | resolved same | declared _ same | lost _ _ same =>
    exact (congrArg Standing.opened same).trans free
  | begunProgram | begunProcedure => cases begins
  | begunBlock begins' | stoodIn begins' => exact absurd begins' (Bool.eq_false_iff.1 begins)
  | passed opened | ended opened | dropped opened | stuck opened => cases free.symm.trans opened
  | finished _ same => exact congrArg Standing.opened same

theorem opened_beginProgram (free : a.opened = []) (name : String) (span : Span) :
    (a.beginProgram name span).2.opened = [.program] ∨
      (a.beginProgram name span).2.opened = [.placeholder] := by
  unfold beginProgram
  rw [if_neg (by simp [free])]
  rcases a.table.enter with ⟨e | id, t⟩
  · exact .inr (congrArg (List.cons Opened.placeholder) free)
  · refine .inl ?_
    dsimp only
    rw [noteTransition_eq]
    split <;> exact congrArg (List.cons Opened.program) free

theorem halted_beginProcedure (dead : a.table.scopes = []) :
    (a.beginProcedure name span).2.halted = true := by
  obtain ⟨e, t, refused, halts⟩ : ∃ e t, a.table.declare (.procedure name) = (.error e, t) ∧
      e.halts = true := by
    simp only [Table.declare, dead]
    split <;> exact ⟨_, _, rfl, rfl⟩
  simp only [beginProcedure, refused]
  exact halted_opened? (halted_of_halts halts)

theorem opened_beginBlock (dead : a.table.scopes = []) (span : Span) :
    (a.beginBlock span).2.opened = .block :: a.opened := by
  have room : a.table.depth < Limits.scopeDepth := by
    rw [Table.depth, dead]
    exact Limits.scopeDepth_pos
  rw [beginBlock, Table.enter, Table.push_eq, if_pos room]
  exact congrArg Standing.opened (a.opened?_ok _ _ _ _ _).2

theorem Steady.scopes_of_free (steady : a.Steady) (going : a.halted = false)
    (free : a.opened = []) : a.table.scopes = [] := by
  have length_eq := (steady.matched going).length_eq
  simp only [standing, free, real_nil, List.length_nil] at length_eq
  exact List.length_eq_zero_iff.1 length_eq.symm

theorem Steady.kind_of_opened (steady : a.Steady) (going : a.halted = false) (free : a.opened = [])
    (opened : (a.take s).opened = [o]) (later : (a.take s).halted = false) (nested : o ≠ .program)
    (real : o ≠ .placeholder) : s.kind = .block := by
  have dead := steady.scopes_of_free going free
  rw [take_eq_call] at opened later
  cases calls : a.call? s with
  | none =>
    rw [calls] at opened
    cases free.symm.trans opened
  | some call =>
    rw [calls] at opened later
    cases begins : call.begins with
    | false =>
      have still := (act steady.based.formed call).opened_nil begins free
      cases still.symm.trans opened
    | true =>
      cases call with
      | beginProgram name span =>
        rcases opened_beginProgram free name span with program | placeholder
        · exact absurd (List.cons.inj (opened.symm.trans program)).1 nested
        · exact absurd (List.cons.inj (opened.symm.trans placeholder)).1 real
      | beginProcedure name span =>
        exact absurd (halted_beginProcedure dead) (Bool.eq_false_iff.1 later)
      | beginBlock span =>
        cases kind : s.kind with
        | block => rfl
        | close => by_cases atProgram : a.atProgram <;> simp [call?, kind, atProgram] at calls
        | program | procedure | declare | resolve => simp [call?, kind] at calls
      | endScope | endProgram | declare | resolve => cases begins

theorem Steady.opened_block (steady : a.Steady) (going : a.halted = false) (free : a.opened = [])
    (kind : s.kind = .block) : (a.take s).opened = [.block] := by
  simp only [Analysis.take, kind]
  rw [opened_beginBlock (steady.scopes_of_free going free), free]

theorem Steady.outcry_block (steady : a.Steady) (going : a.halted = false)
    (opened : a.opened = [.block]) (kind : s.kind = .close) :
    a.outcry s = [Opened.block.complaint] := by
  have length_eq := (steady.matched going).length_eq
  simp only [standing, opened] at length_eq
  have shallow : a.table.depth ≤ 1 := length_eq.symm.le
  simp [outcry, call?, kind, atProgram, opened, complaints, stranded?, shallow]

theorem Steady.alone_of_outcry (steady : a.Steady) (going : a.halted = false)
    (cries : a.outcry s ≠ []) :
    s.kind = .close ∧ ∃ o, a.opened = [o] ∧ o ≠ .program ∧ o ≠ .placeholder := by
  cases calls : a.call? s with
  | none => exact absurd (by simp [outcry, calls]) cries
  | some call =>
    have complains : a.complaints call ≠ [] := by simpa [outcry, calls] using cries
    obtain ⟨o, stranded⟩ := exists_stranded complains
    obtain ⟨⟨span, rfl⟩, -, nested, real, -⟩ := stranded?_eq_some.1 stranded
    refine ⟨?_, o, steady.opened_of_stranded going stranded, nested, real⟩
    cases kind : s.kind with
    | close => rfl
    | program | procedure | block | declare | resolve => simp [call?, kind] at calls

end Analysis

namespace Run

variable {r : Run} {s : Step}

theorem problems_advance (formed : r.analysis.table.Formed) (told : r.analysis.Told) :
    (r.advance s).analysis.problems =
      (r.advance s).analysis.diagnostics.toList.map (·.event) ++ r.analysis.outcry s := by
  have announced : (r.announce s).Told := told.note rfl
  exact (Analysis.tells_take (a := r.announce s) formed s).problems announced

theorem halted_advance (formed : r.analysis.table.Formed) (cries : r.analysis.outcry s ≠ []) :
    (r.advance s).analysis.halted = true :=
  Analysis.halted_of_outcry (a := r.announce s) formed cries

end Run

namespace Trace

variable {t : Trace} {policy : Policy} {p : Preferences} {index first last : Nat}

theorem told_reached (going : (t.reached policy p index).halted = false) :
    (t.reached policy p index).Told := by
  induction index with
  | zero => rfl
  | succ index ih =>
    have formed := (t.steady_reached policy p index).based.formed
    rcases t.reached_cases policy p index with same | ⟨s, before, next⟩
    · rw [same] at going ⊢
      exact ih going
    · have told := Run.problems_advance (r := t.runTo policy p index) (s := s) formed (ih before)
      -- a step that told more would have halted the run
      have quiet : (t.runTo policy p index).analysis.outcry s = [] := by
        by_contra cries
        have halted := Run.halted_advance (r := t.runTo policy p index) formed cries
        rw [← next, going] at halted
        cases halted
      rw [quiet, List.append_nil] at told
      rwa [next]

theorem run_eq_advance (executed : (t.run policy p).executed = last + 1) :
    ∃ s, t.steps[last]? = some s ∧ (t.reached policy p last).halted = false ∧
      t.run policy p = (t.runTo policy p last).advance s := by
  have inside : last < (t.run policy p).executed := executed ▸ Nat.lt_succ_self last
  obtain ⟨going, s, -, found, -⟩ := reached_succ inside
  refine ⟨s, found, going, ?_⟩
  rw [← runTo_succ going found]
  cases halted : (t.reached policy p (last + 1)).halted with
  | true => exact runTo_halted halted
  | false =>
    refine runTo_all (Nat.le_of_not_lt fun more => ?_)
    obtain ⟨s', found'⟩ : ∃ s', t.steps[last + 1]? = some s' := ⟨_, List.getElem?_eq_getElem more⟩
    have further := executed_runTo_le t policy p (last + 2)
    rw [runTo_succ halted found'] at further
    have so_far := executed_runTo more.le halted
    simp only [Run.advance] at further
    omega

theorem run_eq_start (executed : (t.run policy p).executed = 0) :
    (t.run policy p).analysis = .start policy p := by
  cases steps : t.steps with
  | nil => simp [run, steps, Run.through]
  | cons s rest =>
    have further := executed_runTo_le t policy p 1
    have first : t.runTo policy p 1 = (t.runTo policy p 0).advance s :=
      runTo_succ rfl (by simp [steps])
    rw [executed, first] at further
    cases further

structure Strands (t : Trace) (policy : Policy) (p : Preferences) (first last : Nat) : Prop where
  executed : (t.run policy p).executed = last + 1
  ends : Ends t.steps (t.reached policy p) first last
  block : ∃ s, t.steps[first]? = some s ∧ s.kind = .block
  free : (t.reached policy p first).opened = []

def Stranded (t : Trace) (policy : Policy) (p : Preferences) : Prop :=
  ∃ first last, t.Strands policy p first last

theorem Ends.opened_eq (ends : Ends t.steps (t.reached policy p) first last)
    (inside : last < (t.run policy p).executed) :
    (t.reached policy p last).opened = (t.reached policy p (first + 1)).opened := by
  have before := ends.later.trans inside
  have steady := steady_reached t policy p first
  obtain ⟨o, s, below, opened, scopes, enclosed, -⟩ :=
    (motion_reached before).opens steady.based (steady.matched (reached_succ before).1)
      (ends.stays (first + 1) (Nat.lt_succ_self _) ends.later)
  have deeper : (t.reached policy p (first + 1)).opened.length
      = (t.reached policy p first).opened.length + 1 := congrArg List.length opened
  have enclosed := enclosed_reached ends.later inside
    (fun k after early => deeper ▸ ends.stays k after early) enclosed
  exact (enclosed.eq_cons (ends.innermost.trans deeper.symm)).1

theorem Strands.outcry {s : Step} (strands : t.Strands policy p first last)
    (found : t.steps[last]? = some s) :
    (t.reached policy p last).outcry s = [Opened.block.complaint] := by
  obtain ⟨executed, ends, ⟨b, begins, kind⟩, free⟩ := strands
  have inside : last < (t.run policy p).executed := executed ▸ Nat.lt_succ_self last
  obtain ⟨going, b', event, begins', next⟩ := reached_succ (ends.later.trans inside)
  obtain rfl : b = b' := Option.some.inj (begins.symm.trans begins')
  have steady := t.steady_reached policy p first
  have opened : (t.reached policy p (first + 1)).opened = [.block] := by
    rw [next]
    exact Analysis.Steady.opened_block (a := (t.reached policy p first).note event)
      ⟨steady.based, steady.matched⟩ going free kind
  obtain ⟨s', found', closes⟩ := ends.closes
  obtain rfl : s = s' := Option.some.inj (found.symm.trans found')
  exact (t.steady_reached policy p last).outcry_block (reached_succ inside).1
    ((ends.opened_eq inside).trans opened) closes

theorem strands_of_outcry {s : Step} (executed : (t.run policy p).executed = last + 1)
    (found : t.steps[last]? = some s) (cries : (t.reached policy p last).outcry s ≠ []) :
    ∃ first, t.Strands policy p first last := by
  have inside : last < (t.run policy p).executed := executed ▸ Nat.lt_succ_self last
  obtain ⟨closes, o, alone, nested, real⟩ :=
    (t.steady_reached policy p last).alone_of_outcry (reached_succ inside).1 cries
  obtain ⟨first, ends⟩ := exists_ends inside found closes (by simp [alone])
  have free : (t.reached policy p first).opened = [] := by
    have innermost := ends.innermost
    rw [alone] at innermost
    exact List.length_eq_zero_iff.1 (Nat.succ.inj innermost).symm
  obtain ⟨going, b, event, begins, next⟩ := reached_succ (ends.later.trans inside)
  have opened := ends.opened_eq inside
  have later := (reached_succ (Nat.lt_of_le_of_lt ends.later inside)).1
  rw [alone, next] at opened
  rw [next] at later
  have steady := t.steady_reached policy p first
  have block := Analysis.Steady.kind_of_opened (a := (t.reached policy p first).note event)
    ⟨steady.based, steady.matched⟩ going free opened.symm later nested real
  exact ⟨first, executed, ends, ⟨b, begins, block⟩, free⟩

/-- A replay tells of each diagnostic, in their order, and then of the stranded scope if it ends
with one. -/
theorem problems_run (t : Trace) (policy : Policy) (p : Preferences) :
    ∃ alone, (t.run policy p).analysis.problems =
        (t.run policy p).analysis.diagnostics.toList.map (·.event) ++ alone ∧
      (alone = [] ∧ ¬ t.Stranded policy p ∨
        alone = [Opened.block.complaint] ∧ t.Stranded policy p) := by
  match executed : (t.run policy p).executed with
  | 0 =>
    refine ⟨[], ?_, .inl ⟨rfl, ?_⟩⟩
    · rw [run_eq_start executed]
      rfl
    · rintro ⟨first, last, strands⟩
      cases executed.symm.trans strands.executed
  | last + 1 =>
    obtain ⟨s, found, going, ran⟩ := run_eq_advance executed
    have formed := (t.steady_reached policy p last).based.formed
    have problems := Run.problems_advance (r := t.runTo policy p last) (s := s) formed
      (told_reached going)
    rw [← ran] at problems
    refine ⟨_, problems, ?_⟩
    by_cases cries : (t.reached policy p last).outcry s = []
    · refine .inl ⟨cries, ?_⟩
      rintro ⟨first, last', strands⟩
      obtain rfl : last = last' := Nat.succ.inj (executed.symm.trans strands.executed)
      cases cries.symm.trans (strands.outcry found)
    · obtain ⟨first, strands⟩ := strands_of_outcry executed found cries
      exact .inr ⟨strands.outcry found, first, last, strands⟩

end Trace

end ScopeFrames
