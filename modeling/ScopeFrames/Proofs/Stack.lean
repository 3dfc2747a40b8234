import Mathlib.Data.List.Infix
import ScopeFrames.Proofs.Call
import ScopeFrames.Proofs.Excursion

namespace ScopeFrames

namespace Table

variable [Limits] {t t' : Table} {op : Operation} {id : ScopeId} {closed : ClosedScope} {s : Scope}
  {below : List Scope}

theorem Step.depth_entered (step : t.Step op (.entered id) t') : t'.depth = t.depth + 1 := by
  cases step with
  | entered | enteredProcedure => rfl

def Leaves (t t' : Table) : Prop :=
  (∃ closed, t.Step .exit (.closed closed) t') ∨ ∃ s, t.Step .abandon (.abandoned s) t'

theorem Leaves.depth_eq (leaves : t.Leaves t') : 1 ≤ t'.depth ∧ t.depth = t'.depth + 1 := by
  rcases leaves with ⟨closed, ⟨⟩ | ⟨⟩ | ⟨scopes⟩⟩ | ⟨s, ⟨⟩ | ⟨scopes⟩⟩
  all_goals simp [depth, *]

theorem Leaves.formed (leaves : t.Leaves t') (formed : t.Formed) : t'.Formed := by
  rcases leaves with ⟨closed, step⟩ | ⟨s, step⟩
  · exact step.formed formed
  · exact step.formed formed

theorem Leaves.over (leaves : t.Leaves t') (isOver : t.Over s below)
    (deep : below.length < t'.depth) : t'.Over s below := by
  rcases leaves with ⟨closed, step⟩ | ⟨s, step⟩
  · exact step.over isOver deep
  · exact step.over isOver deep

theorem Step.depth_finished (step : t.Step .finish (.closed closed) t') :
    t.depth = 1 ∧ t'.depth = 0 := by
  cases step with
  | finished scopes => simp [depth, scopes]

theorem Declares.depth_eq (declares : t.Declares t') : t'.depth = t.depth := by
  rcases declares with rfl | ⟨e, step⟩
  · rfl
  · exact step.depth_declared.1

theorem Declares.formed (declares : t.Declares t') (formed : t.Formed) : t'.Formed := by
  rcases declares with rfl | ⟨e, step⟩
  · exact formed
  · exact step.formed formed

theorem Over.deep (isOver : t.Over s below) : below.length < t.depth := by
  obtain ⟨above, later, scopes, -⟩ := isOver
  simp only [depth, scopes, List.length_append, List.length_cons]
  omega

theorem Declares.over (declares : t.Declares t') (isOver : t.Over s below) : t'.Over s below := by
  rcases declares with rfl | ⟨e, step⟩
  · exact isOver
  · exact step.over isOver (step.depth_declared.1.symm ▸ isOver.deep)

theorem Step.entered_over (step : t.Step op (.entered id) t') (isOver : t.Over s below) :
    t'.Over s below :=
  step.over isOver (step.depth_entered.symm ▸ Nat.lt_succ_of_lt isOver.deep)

end Table

def Opened.owner? : Opened → Option String
  | .procedure name => some name
  | _ => none

def Opened.isReal : Opened → Bool
  | .placeholder => false
  | _ => true

namespace Analysis

def real (opened : List Opened) : List Opened := opened.filter Opened.isReal

variable {o : Opened} {opened outer base : List Opened}

@[simp] theorem real_nil : real [] = [] := rfl

@[simp] theorem real_placeholder : real (.placeholder :: outer) = real outer := rfl

theorem real_cons (nested : o ≠ .placeholder) : real (o :: outer) = o :: real outer := by
  cases o with
  | placeholder => exact absurd rfl nested
  | program | procedure | block => rfl

structure Grounded (opened : List Opened) : Prop where
  program_last : .program ∉ opened.dropLast
  bottom_real : opened.getLast? ≠ some .placeholder

theorem grounded_nil : Grounded [] := ⟨by simp, by simp⟩

theorem Grounded.cons (grounded : Grounded opened) (nested : opened ≠ [] → o ≠ .program)
    (real : opened = [] → o ≠ .placeholder) : Grounded (o :: opened) := by
  obtain ⟨program_last, bottom_real⟩ := grounded
  cases opened with
  | nil => exact ⟨by simp, by simpa using real rfl⟩
  | cons o' outer =>
    refine ⟨?_, by simpa using bottom_real⟩
    rw [List.dropLast_cons_of_ne_nil (by simp), List.mem_cons, not_or]
    exact ⟨(nested (by simp)).symm, program_last⟩

theorem Grounded.tail (grounded : Grounded (o :: outer)) : Grounded outer := by
  obtain ⟨program_last, bottom_real⟩ := grounded
  cases outer with
  | nil => exact grounded_nil
  | cons o' outer =>
    rw [List.dropLast_cons_of_ne_nil (by simp), List.mem_cons, not_or] at program_last
    exact ⟨program_last.2, by simpa using bottom_real⟩

theorem Grounded.outer_eq_nil (grounded : Grounded (.program :: outer)) : outer = [] := by
  by_contra nonempty
  refine grounded.program_last ?_
  rw [List.dropLast_cons_of_ne_nil nonempty]
  exact List.mem_cons_self

theorem Grounded.real_pos (grounded : Grounded opened) (nonempty : opened ≠ []) :
    1 ≤ (real opened).length := by
  have bottom := List.getLast_mem nonempty
  have isReal : (opened.getLast nonempty).isReal = true := by
    cases last : opened.getLast nonempty with
    | placeholder =>
      refine absurd ?_ grounded.bottom_real
      rw [List.getLast?_eq_some_getLast nonempty, last]
    | program | procedure | block => rfl
  exact List.length_pos_of_mem (List.mem_filter.2 ⟨bottom, isReal⟩)

theorem suffix_tail (suffix : base <:+ o :: outer) (stays : base.length ≤ outer.length) :
    base <:+ outer := by
  rcases List.suffix_cons_iff.1 suffix with rfl | inner
  · exact absurd stays (Nat.not_succ_le_self _)
  · exact inner

theorem real_length_le (suffix : base <:+ opened) : (real base).length ≤ (real opened).length :=
  (suffix.filter Opened.isReal).length_le

variable [Limits] {s : Scope} {below : List Scope}

/-- What a call does to the scopes, whichever call it is; the flag says whether the analysis is
halted then. -/
inductive Motion (x : Standing) : Bool → Standing → Prop
  | kept {halted t} : x.table.Declares t → Motion x halted ⟨t, x.opened, x.closed⟩
  | begun {halted op id t t' t''} {o : Opened} : o ≠ .placeholder →
      (x.opened ≠ [] → o ≠ .program) → op.owner? = o.owner? → x.table.Declares t →
      t.Step op (.entered id) t' → t'.Declares t'' → Motion x halted ⟨t'', o :: x.opened, x.closed⟩
  | stoodIn {halted t} : (x.opened = [] → Limits.scopeDepth ≤ x.table.depth) →
      x.table.Declares t → Motion x halted ⟨t, .placeholder :: x.opened, x.closed⟩
  | passed {halted} {outer : List Opened} : x.opened = .placeholder :: outer →
      Motion x halted ⟨x.table, outer, x.closed⟩
  | ended {halted t closed} {o : Opened} {outer : List Opened} : x.opened = o :: outer →
      o ≠ .program → o ≠ .placeholder → x.table.Leaves t → Motion x halted ⟨t, outer, closed⟩
  | stuck {o : Opened} {outer : List Opened} : x.opened = o :: outer → o ≠ .placeholder →
      x.table.depth ≤ 1 → Motion x true ⟨x.table, outer, x.closed⟩
  | lost {halted t} : (x.opened = [] ∨ ∃ outer, x.opened = .program :: outer) →
      x.table.Leaves t → Motion x halted ⟨t, x.opened, x.closed⟩
  | finished {halted scope t closed} : x.table.Step .finish (.closed scope) t →
      Motion x halted ⟨t, [], closed⟩

variable {a b : Analysis} {call : Call} {answer : Answer} {x y : Standing} {halted : Bool}

theorem Act.motion (act : Act a call answer b) : Motion a.standing b.halted b.standing := by
  cases act with
  | refused _ _ same | resolved same => exact same ▸ .kept (.inl rfl)
  | declared step same => exact same ▸ .kept (.inr ⟨_, step⟩)
  | begunProgram free step declares same =>
    rw [same, ← free]
    exact .begun nofun (fun nonempty => absurd free nonempty) rfl (.inl rfl) step declares
  | begunProcedure step step' same =>
    exact same ▸ .begun nofun nofun rfl (.inr ⟨_, step⟩) step' (.inl rfl)
  | begunBlock _ step same => exact same ▸ .begun nofun nofun rfl (.inl rfl) step (.inl rfl)
  | stoodIn _ deep declares _ same => exact same ▸ .stoodIn deep declares
  | passed opened same => exact same ▸ .passed opened
  | ended opened nested real step same =>
    exact same ▸ .ended opened nested real (.inl ⟨_, step⟩)
  | dropped opened nested real step _ same =>
    exact same ▸ .ended opened nested real (.inr ⟨_, step⟩)
  | stuck opened _ real shallow _ halted same =>
    rw [same, halted]
    exact .stuck opened real shallow
  | lost opened step same => exact same ▸ .lost opened (.inl ⟨_, step⟩)
  | finished step same => exact same ▸ .finished step

structure Based (x : Standing) : Prop where
  formed : x.table.Formed
  grounded : Grounded x.opened
  covered : (real x.opened).length ≤ x.table.depth
  excess : x.table.depth ≤ (real x.opened).length + 1

theorem based_start (policy : Policy) (preferences : Preferences) :
    Based (start policy preferences).standing :=
  ⟨Table.formed_empty policy, grounded_nil, Nat.zero_le _, Nat.zero_le _⟩

theorem Motion.based (motion : Motion x halted y) (based : Based x) : Based y := by
  obtain ⟨formed, grounded, covered, excess⟩ := based
  cases motion with
  | kept declares =>
    have same := declares.depth_eq
    exact ⟨declares.formed formed, grounded, by simpa [same], by simpa [same]⟩
  | begun real nested _ declares step declares' =>
    have deeper : _ = x.table.depth + 1 :=
      declares'.depth_eq.trans (step.depth_entered.trans (congrArg (· + 1) declares.depth_eq))
    refine ⟨declares'.formed (step.formed (declares.formed formed)),
      grounded.cons nested fun _ => real, ?_, ?_⟩
    · simp only [real_cons real, List.length_cons, deeper]
      omega
    · simp only [real_cons real, List.length_cons, deeper]
      omega
  | stoodIn deep declares =>
    have same := declares.depth_eq
    refine ⟨declares.formed formed, grounded.cons nofun fun empty => ?_, by simpa [same],
      by simpa [same]⟩
    have deep := deep empty
    simp only [empty, real_nil, List.length_nil] at excess
    exact absurd (deep.trans excess) (Nat.not_le.2 Limits.scopeDepth_ge)
  | passed opened =>
    rw [opened] at grounded covered excess
    exact ⟨formed, grounded.tail, covered, excess⟩
  | ended opened _ real leaves =>
    obtain ⟨-, shallower⟩ := leaves.depth_eq
    rw [opened, real_cons real, List.length_cons] at covered excess
    rw [opened] at grounded
    refine ⟨leaves.formed formed, grounded.tail, ?_, ?_⟩ <;> dsimp only <;> omega
  | stuck opened real shallow =>
    rw [opened, real_cons real, List.length_cons] at covered
    rw [opened] at grounded
    refine ⟨formed, grounded.tail, ?_, ?_⟩ <;> dsimp only <;> omega
  | lost opened leaves =>
    obtain ⟨live, shallower⟩ := leaves.depth_eq
    rw [shallower] at excess
    refine ⟨leaves.formed formed, grounded, ?_, Nat.le_of_succ_le excess⟩
    rcases opened with opened | ⟨outer, opened⟩
    · simp [opened]
    · rw [opened] at grounded
      simpa [opened, grounded.outer_eq_nil, real_cons] using live
  | finished step =>
    exact ⟨step.formed formed, grounded_nil, by simp, by simp [step.depth_finished]⟩

theorem Based.after (based : Based a.standing) (calls : List Call) :
    Based (a.after calls).standing :=
  after_induction (motive := (Based ·.standing)) based fun _ call based =>
    (act based.formed call).motion.based based

theorem based_after (policy : Policy) (preferences : Preferences) (calls : List Call) :
    Based ((start policy preferences).after calls).standing :=
  (based_start policy preferences).after calls

/-- What is open up to `base` is open still, and so are the scope `s`, grown perhaps, and right
below it the scopes `below`. -/
structure Enclosed (base : List Opened) (s : Scope) (below : List Scope) (x : Standing) :
    Prop where
  rooted : base ≠ []
  bare : base = [.program] → below = []
  suffix : base <:+ x.opened
  level : x.table.depth + (real base).length = below.length + 1 + (real x.opened).length
  isOver : x.table.Over s below

theorem enclosed_top (rooted : x.opened ≠ []) (bare : x.opened = [.program] → below = [])
    (scopes : x.table.scopes = s :: below) : Enclosed x.opened s below x where
  rooted := rooted
  bare := bare
  suffix := List.suffix_rfl
  level := by simp [Table.depth, scopes]
  isOver := Table.over_top scopes

theorem Motion.enclosed (motion : Motion x halted y) (based : Based x)
    (enclosed : Enclosed base s below x) (stays : base.length ≤ y.opened.length) :
    Enclosed base s below y := by
  obtain ⟨rooted, bare, suffix, level, isOver⟩ := enclosed
  cases motion with
  | kept declares =>
    exact ⟨rooted, bare, suffix, declares.depth_eq ▸ level, declares.over isOver⟩
  | begun real _ _ declares step declares' =>
    refine ⟨rooted, bare, suffix.trans (List.suffix_cons _ _), ?_,
      declares'.over (step.entered_over (declares.over isOver))⟩
    simp only [real_cons real, List.length_cons, declares'.depth_eq, step.depth_entered,
      declares.depth_eq]
    omega
  | stoodIn _ declares =>
    exact ⟨rooted, bare, suffix.trans (List.suffix_cons _ _), declares.depth_eq ▸ level,
      declares.over isOver⟩
  | passed opened =>
    rw [opened] at suffix level
    exact ⟨rooted, bare, suffix_tail suffix stays, level, isOver⟩
  | ended opened _ real leaves =>
    rw [opened] at suffix level
    have inner := suffix_tail suffix stays
    have inside := real_length_le inner
    obtain ⟨-, shallower⟩ := leaves.depth_eq
    rw [real_cons real, List.length_cons] at level
    refine ⟨rooted, bare, inner, ?_, leaves.over isOver (by omega)⟩
    dsimp only
    omega
  | stuck opened real shallow =>
    rw [opened] at suffix level
    have inside := real_length_le (suffix_tail suffix stays)
    rw [real_cons real, List.length_cons] at level
    omega
  | lost opened leaves =>
    -- only the program is open, so that there is no scope to leave but the program's
    obtain ⟨live, shallower⟩ := leaves.depth_eq
    rcases opened with opened | ⟨outer, opened⟩
    · rw [opened] at suffix
      exact absurd (List.suffix_nil.1 suffix) rooted
    · have grounded := based.grounded
      rw [opened] at grounded
      rw [opened, grounded.outer_eq_nil] at suffix level
      have same : base = [.program] :=
        (List.suffix_cons_iff.1 suffix).resolve_right fun inner => rooted (List.suffix_nil.1 inner)
      rw [same, bare same, List.length_nil] at level
      omega
  | finished => exact absurd (List.length_eq_zero_iff.1 (Nat.le_zero.1 stays)) rooted

theorem Enclosed.eq_cons (enclosed : Enclosed base s below x)
    (back : x.opened.length = base.length) :
    x.opened = base ∧ ∃ later, x.table.scopes = later :: below ∧ s.Grows later := by
  have same : base = x.opened := enclosed.suffix.eq_of_length back.symm
  have level := enclosed.level
  rw [same] at level
  exact ⟨same.symm, enclosed.isOver.eq_cons (Nat.add_right_cancel level)⟩

theorem Enclosed.after {calls : List Call} (enclosed : Enclosed base s below a.standing)
    (based : Based a.standing)
    (stays : ∀ front, front <+: calls → base.length ≤ (a.after front).opened.length) :
    Enclosed base s below (a.after calls).standing := by
  induction calls generalizing a with
  | nil => exact enclosed
  | cons call calls ih =>
    have motion := (act based.formed call).motion
    refine ih (motion.enclosed based enclosed (stays [call] (by simp))) (motion.based based) ?_
    exact fun front early => stays (call :: front) (by simpa using early)

end Analysis

end ScopeFrames
