import ScopeFrames.Proofs.Passage
import ScopeFrames.Proofs.Spelling

/-!
A replay is clean exactly if its steps spell sound programs.  Whatever is open must be closed in
time, so that the steps to come are read from the stack of what is open.
-/

namespace ScopeFrames

namespace View

def Stacked : List Opened → Prop
  | [] => True
  | o :: outer => o ≠ .placeholder ∧ (o = .program → outer = []) ∧ Stacked outer

/-- What a step does to the stack of what is open, if it meets no error. -/
def Moves (s : Step) (opened opened' : List Opened) : Prop :=
  match s.kind with
  | .program => opened = [] ∧ opened' = [.program]
  | .procedure => opened ≠ [] ∧ opened' = .procedure s.name :: opened
  | .block => opened' = .block :: opened
  | .close => ∃ o, opened = o :: opened' ∧ (opened' = [] → o = .program)
  | .declare | .resolve => opened ≠ [] ∧ opened' = opened

/-- Steps that close what is open, each scope after what is left of its body, and then spell
programs. -/
def Completes : List Opened → List Step → Prop
  | [], steps => ∃ programs, Program.Spell programs steps
  | o :: outer, steps => (outer = [] → o = .program) ∧
      ∃ (body : Body) (inner : List Step) (close : Step) (after : List Step),
        steps = inner ++ close :: after ∧ body.Spells inner ∧ close.kind = .close ∧
          Completes outer after

variable {s : Step} {steps : List Step} {opened opened' : List Opened}

theorem Moves.stacked (moves : Moves s opened opened') (stacked : Stacked opened) :
    Stacked opened' := by
  unfold Moves at moves
  split at moves
  · rw [moves.2]
    exact ⟨nofun, fun _ => rfl, trivial⟩
  · rw [moves.2]
    exact ⟨nofun, nofun, stacked⟩
  · rw [moves]
    exact ⟨nofun, nofun, stacked⟩
  · obtain ⟨o, rfl, -⟩ := moves
    exact stacked.2.2
  · rwa [moves.2]
  · rwa [moves.2]

theorem Moves.completes (moves : Moves s opened opened') (completes : Completes opened' steps)
    (valid : s.fault? = none) : Completes opened (s :: steps) := by
  unfold Moves at moves
  cases kind : s.kind with
  | program =>
    rw [kind] at moves
    obtain ⟨rfl, rfl⟩ := moves
    obtain ⟨-, body, inner, close, after, rfl, spells, ends, programs, spell⟩ := completes
    exact ⟨_, .cons kind spells ends spell⟩
  | procedure =>
    rw [kind] at moves
    obtain ⟨nonempty, rfl⟩ := moves
    obtain ⟨o, outer, rfl⟩ := List.exists_cons_of_ne_nil nonempty
    obtain ⟨-, body, inner, close, after, rfl, spells, ends, last, rest, inner', close', after',
      rfl, spells', ends', completes⟩ := completes
    exact ⟨last, .procedure s.name body rest, s :: (inner ++ close :: inner'), close', after',
      by simp, .procedure kind spells ends spells', ends', completes⟩
  | block =>
    rw [kind] at moves
    subst moves
    obtain ⟨nested, body, inner, close, after, rfl, spells, ends, completes⟩ := completes
    cases opened with
    | nil => cases nested rfl
    | cons o outer =>
      obtain ⟨last, rest, inner', close', after', rfl, spells', ends', completes⟩ := completes
      exact ⟨last, .block body rest, s :: (inner ++ close :: inner'), close', after',
        by simp, .block kind spells ends spells', ends', completes⟩
  | close =>
    rw [kind] at moves
    obtain ⟨o, rfl, last⟩ := moves
    exact ⟨last, .done, [], s, steps, rfl, .done, kind, completes⟩
  | declare =>
    obtain ⟨d, given, -⟩ := Step.declares_of_valid valid kind
    rw [kind] at moves
    obtain ⟨nonempty, rfl⟩ := moves
    obtain ⟨o, outer, rfl⟩ := List.exists_cons_of_ne_nil nonempty
    obtain ⟨last, body, inner, close, after, rfl, spells, ends, completes⟩ := completes
    exact ⟨last, .declare d s.span body, s :: inner, close, after, rfl,
      .declare kind given spells, ends, completes⟩
  | resolve =>
    rw [kind] at moves
    obtain ⟨nonempty, rfl⟩ := moves
    obtain ⟨o, outer, rfl⟩ := List.exists_cons_of_ne_nil nonempty
    obtain ⟨last, body, inner, close, after, rfl, spells, ends, completes⟩ := completes
    exact ⟨last, .resolve s.name body, s :: inner, close, after, rfl, .resolve kind spells, ends,
      completes⟩

end View

theorem Trace.checkFrom_eq_ok {index : Nat} {steps : List Step} :
    checkFrom index steps = .ok () ↔ ∀ s ∈ steps, s.fault? = none := by
  induction steps generalizing index with
  | nil => simp [checkFrom]
  | cons s steps ih =>
    cases fault : s.fault? with
    | none => simp [checkFrom, Step.check, fault, ih]
    | some reason => simp [checkFrom, Step.check, fault]

section

variable [Limits]

namespace Table

variable {t t' : Table} {e : Entry} {id : ScopeId} {scope : ClosedScope} {owner : String}

theorem depth_enter (entered : t.enter = (.ok id, t')) : t'.depth = t.depth + 1 := by
  obtain ⟨-, -, rfl⟩ := push_eq_ok.1 entered
  rfl

theorem depth_declare (declared : t.declare e = (.ok (), t')) :
    t.depth ≠ 0 ∧ t'.depth = t.depth := by
  obtain ⟨top, outer, stored, next, scopes, -, -, -, -, rfl⟩ := declare_eq_ok.1 declared
  simp [depth, scopes]

theorem Formed.depth_enterProcedure (formed : t.Formed)
    (entered : t.enterProcedure owner = (.ok id, t')) : t'.depth = t.depth + 1 := by
  have step := formed.step (.enterProcedure owner)
  simp only [Table.apply, entered, Prod.map, Outcome.of, id_eq] at step
  cases step
  rfl

theorem Formed.depth_exit (formed : t.Formed) (exited : t.exit = (.ok scope, t')) :
    t'.depth ≠ 0 ∧ t.depth = t'.depth + 1 := by
  have step := formed.step .exit
  simp only [Table.apply, exited, Prod.map, Outcome.of, id_eq] at step
  cases step with
  | exited scopes => simp [depth, scopes]

theorem Formed.depth_finish (formed : t.Formed) (finished : t.finish = (.ok scope, t')) :
    t'.depth = 0 := by
  have step := formed.step .finish
  simp only [Table.apply, finished, Prod.map, Outcome.of, id_eq] at step
  cases step
  rfl

theorem depth_lookup? {name : String} {found : Entry × Nat} (looked : t.lookup? name = some found) :
    t.depth ≠ 0 := by
  intro empty
  rw [depth, List.length_eq_zero_iff] at empty
  simp [lookup?, empty] at looked

end Table

namespace View

open Table

structure Aligned (v : View) : Prop where
  formed : v.table.Formed
  stacked : Stacked v.opened
  depth_eq : v.table.depth = v.opened.length

variable {v w : View} {s : Step} {steps : List Step}

theorem Aligned.opened_ne (aligned : v.Aligned) (deep : v.table.depth ≠ 0) : v.opened ≠ [] := by
  intro empty
  simp [aligned.depth_eq, empty] at deep

theorem Closes.moves (closes : v.Closes w) (aligned : v.Aligned) :
    (∃ o, v.opened = o :: w.opened ∧ (w.opened = [] → o = .program)) ∧
      w.table.depth = w.opened.length := by
  obtain ⟨formed, stacked, depth_eq⟩ := aligned
  cases opens : v.opened with
  | nil =>
    simp only [Closes, opens] at closes
    obtain ⟨scope, t, exited, -⟩ := closes
    have deep := formed.depth_exit exited
    simp [depth_eq, opens] at deep
  | cons o outer =>
    rw [opens] at stacked depth_eq
    cases o with
    | placeholder => exact absurd rfl stacked.1
    | program =>
      obtain rfl := stacked.2.1 rfl
      simp only [Closes, opens] at closes
      obtain ⟨scope, t, finished, rfl⟩ := closes
      exact ⟨⟨_, rfl, fun _ => rfl⟩, formed.depth_finish finished⟩
    | procedure _ | block =>
      simp only [Closes, opens] at closes
      obtain ⟨scope, t, exited, rfl⟩ := closes
      obtain ⟨deep, depth_eq'⟩ := formed.depth_exit exited
      have shallower : t.depth = outer.length := by
        rw [List.length_cons] at depth_eq
        omega
      refine ⟨⟨_, rfl, ?_⟩, shallower⟩
      rintro rfl
      exact absurd shallower deep

theorem Takes.moves (takes : v.Takes s w) (aligned : v.Aligned) (valid : s.fault? = none) :
    Moves s v.opened w.opened ∧ w.table.depth = w.opened.length := by
  unfold Takes at takes
  unfold Moves
  cases kind : s.kind with
  | program =>
    rw [kind] at takes
    obtain ⟨id, t, t', empty, entered, declared, rfl⟩ := takes
    have deeper := (depth_declare declared).2.trans (depth_enter entered)
    exact ⟨⟨empty, rfl⟩, by simp [deeper, aligned.depth_eq, empty]⟩
  | procedure =>
    rw [kind] at takes
    obtain ⟨id, t, t', declared, entered, rfl⟩ := takes
    have formed := aligned.formed.declared declared
    obtain ⟨deep, same⟩ := depth_declare declared
    have deeper := formed.depth_enterProcedure entered
    exact ⟨⟨aligned.opened_ne deep, rfl⟩, by simp [deeper, same, aligned.depth_eq]⟩
  | block =>
    rw [kind] at takes
    obtain ⟨id, t, entered, rfl⟩ := takes
    exact ⟨rfl, by simp [depth_enter entered, aligned.depth_eq]⟩
  | close =>
    rw [kind] at takes
    exact Closes.moves takes aligned
  | declare =>
    obtain ⟨d, given, -⟩ := Step.declares_of_valid valid kind
    simp only [kind, given] at takes
    obtain ⟨e, t, -, declared, rfl⟩ := takes
    obtain ⟨deep, same⟩ := depth_declare declared
    exact ⟨⟨aligned.opened_ne deep, rfl⟩, same.trans aligned.depth_eq⟩
  | resolve =>
    rw [kind] at takes
    obtain ⟨found, looked, rfl⟩ := takes
    exact ⟨⟨aligned.opened_ne (depth_lookup? looked), rfl⟩, aligned.depth_eq⟩

theorem Takes.aligned (takes : v.Takes s w) (aligned : v.Aligned) (valid : s.fault? = none) :
    w.Aligned :=
  have ⟨moves, depth_eq⟩ := takes.moves aligned valid
  ⟨takes.formed aligned.formed, moves.stacked aligned.stacked, depth_eq⟩

theorem Path.completes (path : v.Path steps w) (aligned : v.Aligned)
    (valid : ∀ s ∈ steps, s.fault? = none) (free : w.opened = []) : Completes v.opened steps := by
  -- read backwards: what the later steps complete, this one moved to
  induction steps generalizing v with
  | nil =>
    cases path
    rw [free]
    exact ⟨[], .nil⟩
  | cons s steps ih =>
    obtain ⟨u, takes, path⟩ := path
    have faultless := valid s (by simp)
    have completes := ih path (takes.aligned aligned faultless) fun s member =>
      valid s (by simp [member])
    exact (takes.moves aligned faultless).1.completes completes faultless

end View

namespace Trace

variable {t : Trace} {policy : Policy} {preferences : Preferences}

theorem exists_spell (valid : t.check = .ok ())
    (clean : (t.replay policy preferences).isClean = true) :
    ∃ programs, Program.Spell programs t.steps := by
  have aligned : (View.start policy preferences).Aligned :=
    ⟨Table.formed_empty policy, trivial, rfl⟩
  obtain ⟨v, path, free⟩ := isClean_iff_path.1 clean
  exact path.completes aligned (checkFrom_eq_ok.1 valid) free

variable {programs : List Program}

theorem leads_start (valid : t.check = .ok ()) (spell : Program.Spell programs t.steps) :
    (View.start policy preferences).Leads t.steps ((∀ q ∈ programs, q.Sound policy) ∧
      Limits.firstLabel + Program.count StepKind.labels programs ≤ Limits.maxLabel)
      ((View.start policy preferences).past programs) :=
  View.leads_programs spell (checkFrom_eq_ok.1 valid) (Table.formed_empty policy) rfl rfl

theorem isClean_iff_of_spell (valid : t.check = .ok ()) (spell : Program.Spell programs t.steps) :
    (t.replay policy preferences).isClean = true ↔ (∀ q ∈ programs, q.Sound policy) ∧
      Limits.firstLabel + Program.count StepKind.labels programs ≤ Limits.maxLabel := by
  rw [isClean_iff_path]
  constructor
  · rintro ⟨v, path, -⟩
    exact ((leads_start valid spell v).1 path).1
  · intro sound
    exact ⟨_, (leads_start valid spell _).2 ⟨sound, rfl⟩, rfl⟩

theorem labels_le (spell : Program.Spell programs t.steps)
    (short : t.steps.length ≤ Limits.traceSteps) :
    Limits.firstLabel + Program.count StepKind.labels programs ≤ Limits.maxLabel := by
  have few : Program.count StepKind.labels programs ≤ t.steps.length := by
    rw [spell.count_eq rfl]
    exact List.countP_le_length
  have enough : Limits.firstLabel + Limits.traceSteps ≤ Limits.maxLabel := Limits.labels_suffice
  omega

/-- A replay is clean exactly if its steps spell sound programs, whatever is preferred. -/
theorem isClean_iff_sound (policy : Policy) (short : t.steps.length ≤ Limits.traceSteps)
    (valid : t.check = .ok ()) (preferences : Preferences) :
    ((t.replay policy preferences).isClean = true ↔
      ∃ programs, Program.Spell programs t.steps ∧ ∀ q ∈ programs, q.Sound policy) ∧
    ∀ other, (t.replay policy other).isClean = (t.replay policy preferences).isClean := by
  have verdict (preferences : Preferences) : (t.replay policy preferences).isClean = true ↔
      ∃ programs, Program.Spell programs t.steps ∧ ∀ q ∈ programs, q.Sound policy := by
    constructor
    · intro clean
      obtain ⟨programs, spell⟩ := exists_spell valid clean
      exact ⟨programs, spell, ((isClean_iff_of_spell valid spell).1 clean).1⟩
    · rintro ⟨programs, spell, sound⟩
      exact (isClean_iff_of_spell valid spell).2 ⟨sound, labels_le spell short⟩
  refine ⟨verdict preferences, fun other => ?_⟩
  rw [Bool.eq_iff_iff, verdict, verdict]

end Trace

end

namespace Trace

def nested : Trace where
  steps := [
    { kind := .program, name? := some "p" },
    { kind := .procedure, name? := some "f" },
    { kind := .declare, name? := some "x", category := some .int },
    { kind := .resolve, name? := some "p" },
    { kind := .close },
    { kind := .block },
    { kind := .declare, name? := some "x", category := some .array, base := some .int,
      bounds := some (1, 3) },
    { kind := .close },
    { kind := .resolve, name? := some "f" },
    { kind := .close } ]

theorem nested_isClean :
    nested.steps.length ≤ Limits.traceSteps ∧ nested.check = .ok () ∧
      (nested.replay {} {}).isClean = true ∧
      ∃ programs, Program.Spell programs nested.steps ∧ ∀ q ∈ programs, q.Sound {} := by
  have short : nested.steps.length ≤ Limits.traceSteps := by decide
  have valid : nested.check = .ok () := by decide
  have clean : (nested.replay {} {}).isClean = true := by decide +kernel
  exact ⟨short, valid, clean, (isClean_iff_sound {} short valid {}).1.1 clean⟩

example :
    (Trace.replay { steps := [{ kind := .block }, { kind := .close }] } {} {}).isClean = false := by
  decide +kernel

end Trace

end ScopeFrames
