import ScopeFrames.Proofs.Lookup
import ScopeFrames.Proofs.Preference
import ScopeFrames.Proofs.Recorded

namespace ScopeFrames

namespace Preferences

def wary (p : Preferences) : Preferences := { p with warnOnShadowing := true }

def unwary (p : Preferences) : Preferences := { p with warnOnShadowing := false }

variable {p : Preferences} {hidden : Option Nat} {name : String} {span : Span}
  {level : Option Nat} {d : Diagnostic}

theorem mem_hides : d ∈ p.hides hidden name span level ↔
    p.warnOnShadowing = true ∧ ∃ outer, hidden = some outer ∧
      d = .shadowed name outer span level := by
  unfold hides
  split
  · next asked => simp [asked, eq_comm]
  · next quiet => simp [quiet]

theorem length_hides_le : (p.hides hidden name span level).length ≤ 1 := by
  unfold hides
  split
  · simp
  · exact Nat.zero_le _

end Preferences

namespace Declaration

variable {d : Declaration}

theorem entry_name {e : Entry} (built : d.entry = .ok e) : e.name = d.name := by
  match d with
  | .simple _ _ | .array _ _ none => cases built; rfl
  | .array name base (some (start, stop)) =>
    simp only [entry] at built
    split at built
    · cases built
    · cases built; rfl

end Declaration

theorem Step.declaration?_eq_some {s : Step} {d : Declaration}
    (declares : s.declaration? = some d) : s.kind = .declare ∧ d.name = s.name := by
  unfold declaration? at declares
  split at declares
  · next kind _ => cases declares; exact ⟨kind, rfl⟩
  · next kind _ => cases declares; exact ⟨kind, rfl⟩
  · cases declares

theorem Analysis.Call.refusals_unshadowed (call : Call) : Code.shadowed ∉ call.refusals := by
  cases call <;> simp only [refusals] <;> decide

def Report.unwarned (r : Report) : Report :=
  { r with diagnostics := r.diagnostics.filter (·.code ≠ .shadowed) }

def Replay.unwarned (r : Replay) : Replay := { r with report := r.report.unwarned }

section

variable [Limits]

namespace Analysis

def Lands (a : Analysis) (s : Step) : Prop :=
  ∃ d, s.declaration? = some d ∧ (a.declare d s.span).1 = true

structure Warns (a : Analysis) (s : Step) (more : List Diagnostic) : Prop where
  warned_iff : (∃ d ∈ more, d.code = .shadowed) ↔
    a.Lands s ∧ ∃ e outer, a.table.Finds s.name e outer
  once : more.countP (·.code = .shadowed) ≤ 1
  levels : ∀ d ∈ more, d.code = .shadowed → ∃ e outer level, a.table.Finds s.name e outer ∧
    outer < level ∧ d = .shadowed s.name outer s.span (some level)

variable {a : Analysis} {s : ScopeFrames.Step} {d : Diagnostic} {e : Entry} {outer : Nat}

theorem hints_none (declares : s.declaration? = none) : a.hints s = [] := by
  unfold hints call?
  cases s.kind with
  | declare => simp [declares]
  | program | procedure | block | resolve => rfl
  | close => by_cases atProgram : a.atProgram <;> simp [atProgram, warnings]

theorem hints_some {declaration : Declaration} (declares : s.declaration? = some declaration) :
    a.hints s = a.warnings (.declare declaration s.span) := by
  obtain ⟨kind, -⟩ := Step.declaration?_eq_some declares
  simp [hints, call?, kind, declares]

theorem mem_warnings {declaration : Declaration} {span : Span} :
    d ∈ a.warnings (.declare declaration span) ↔
      a.preferences.warnOnShadowing = true ∧ (a.declare declaration span).1 = true ∧
        ∃ e outer, a.table.lookup? declaration.name = some (e, outer) ∧
          d = .shadowed declaration.name outer span a.table.level? := by
  simp only [warnings]
  split
  · next landed =>
    simp only [Preferences.mem_hides, landed, true_and, Option.map_eq_some_iff, Prod.exists,
      exists_eq_right, ← exists_and_right]
    rw [exists_comm]
  · next refused => simp [refused]

theorem mem_hints : d ∈ a.hints s ↔ a.preferences.warnOnShadowing = true ∧ a.Lands s ∧
    ∃ e outer, a.table.lookup? s.name = some (e, outer) ∧
      d = .shadowed s.name outer s.span a.table.level? := by
  cases declares : s.declaration? with
  | none => simp [hints_none declares, Lands, declares]
  | some declaration =>
    obtain ⟨-, named⟩ := Step.declaration?_eq_some declares
    rw [hints_some declares, mem_warnings, named]
    simp [Lands, declares]

theorem hints_unasked (unasked : a.preferences.warnOnShadowing = false) : a.hints s = [] := by
  refine List.eq_nil_iff_forall_not_mem.2 fun d member => ?_
  exact Bool.eq_false_iff.1 unasked (mem_hints.1 member).1

theorem length_hints_le (a : Analysis) (s : ScopeFrames.Step) : (a.hints s).length ≤ 1 := by
  cases declares : s.declaration? with
  | none => simp [hints_none declares]
  | some declaration =>
    rw [hints_some declares, warnings]
    split
    · exact Preferences.length_hides_le
    · exact Nat.zero_le _

theorem lt_level_of_finds {declaration : Declaration} {span : Span}
    (landed : (a.declare declaration span).1 = true)
    (found : a.table.Finds declaration.name e outer) :
    ∃ level, a.table.level? = some level ∧ outer < level := by
  obtain ⟨entry, t, built, done⟩ := (a.declaring declaration span).done_iff.1 landed
  obtain ⟨top, below, stored, next, scopes, -, fresh, -⟩ := Table.declare_eq_ok.1 done
  rw [Declaration.entry_name built] at fresh
  refine ⟨below.length, by simp [Table.level?, scopes], ?_⟩
  obtain ⟨above, s', outside, split, rfl, member, named, -⟩ := found
  rw [scopes] at split
  cases above with
  | nil =>
    obtain ⟨rfl, -⟩ := List.cons.inj split
    exact absurd (List.mem_map.2 ⟨e, by simpa using member, named⟩) fresh
  | cons inner above =>
    obtain ⟨-, rfl⟩ := List.cons.inj split
    simp only [List.append_eq, List.length_append, List.length_cons]
    omega

theorem Lands.lt_level (lands : a.Lands s) (found : a.table.Finds s.name e outer) :
    ∃ level, a.table.level? = some level ∧ outer < level := by
  obtain ⟨d, declares, landed⟩ := lands
  rw [← (Step.declaration?_eq_some declares).2] at found
  exact lt_level_of_finds landed found

theorem Recordable.unshadowed {call : Call} (recordable : Recordable a call d)
    (unasked : a.preferences.warnOnShadowing = false) : d.code ≠ .shadowed := by
  cases recordable with
  | refused code => exact fun same => call.refusals_unshadowed (same ▸ code)
  | misplaced => exact (by decide : Code.invalidScopeOwner ≠ .shadowed)
  | undeclared => exact (by decide : Code.undeclared ≠ .shadowed)
  | shadowed asked => exact absurd asked (Bool.eq_false_iff.1 unasked)

theorem Blameless.core_unshadowed (blameless : Blameless a) (call : Call) :
    ∀ d ∈ (a.core.apply call).2.diagnostics.toList, d.code ≠ .shadowed := by
  intro d member
  obtain ⟨-, -, more, told, all⟩ :=
    within (a := a.core) blameless.formed blameless.unclaimed call
  have told : (a.core.apply call).2.diagnostics = more := by rw [told]; exact Array.empty_append
  rw [told, Array.mem_toList_iff] at member
  exact (all d member).unshadowed rfl

theorem Blameless.unshadowed (blameless : Blameless a) (s : ScopeFrames.Step) :
    ∀ d ∈ a.findings s, d.code ≠ .shadowed := by
  intro d member
  rw [findings, take_eq_call] at member
  cases calls : a.core.call? s with
  | none =>
    rw [calls] at member
    cases member
  | some call =>
    rw [calls, Option.map_some, Option.getD_some] at member
    exact blameless.core_unshadowed call d member

theorem Blameless.take (blameless : Blameless a) (s : ScopeFrames.Step) :
    Blameless (a.take s) := by
  rw [take_eq_call]
  cases a.call? s with
  | none => exact blameless
  | some call => exact blameless.apply call

theorem Blameless.warns (blameless : Blameless a)
    (asked : a.preferences.warnOnShadowing = true) (s : ScopeFrames.Step) :
    a.Warns s (a.findings s ++ a.hints s) := by
  have unshadowed := blameless.unshadowed s
  have hinted : ∀ d ∈ a.findings s ++ a.hints s, d.code = .shadowed → d ∈ a.hints s := by
    intro d member shadowed
    exact (List.mem_append.1 member).resolve_left fun found => unshadowed d found shadowed
  refine ⟨⟨?_, ?_⟩, ?_, ?_⟩
  · rintro ⟨d, member, shadowed⟩
    obtain ⟨-, lands, e, outer, found, -⟩ := mem_hints.1 (hinted d member shadowed)
    exact ⟨lands, e, outer, blameless.formed.finds_iff.1 found⟩
  · rintro ⟨lands, e, outer, finds⟩
    refine ⟨.shadowed s.name outer s.span a.table.level?, List.mem_append_right _ ?_, rfl⟩
    exact mem_hints.2 ⟨asked, lands, e, outer, blameless.formed.finds_iff.2 finds, rfl⟩
  · have none_found : (a.findings s).countP (·.code = .shadowed) = 0 :=
      List.countP_eq_zero.2 (by simpa using unshadowed)
    rw [List.countP_append, none_found, Nat.zero_add]
    exact List.countP_le_length.trans (a.length_hints_le s)
  · intro d member shadowed
    obtain ⟨-, lands, e, outer, found, rfl⟩ := mem_hints.1 (hinted d member shadowed)
    have finds := blameless.formed.finds_iff.1 found
    obtain ⟨level, here, lt⟩ := lands.lt_level finds
    exact ⟨e, outer, level, finds, lt, by rw [here]⟩

end Analysis

/-- They took as many steps, recorded the same but for warnings of hidden declarations in the second
one, and go on in the same way. -/
structure Run.Quieter (r r' : Run) : Prop extends r.Abreast r' where
  diagnostics : r.analysis.diagnostics.toList =
    r'.analysis.diagnostics.toList.filter (·.code ≠ .shadowed)
  harmless : ∀ d ∈ r'.analysis.diagnostics, d.code = .shadowed → d.isError = false

namespace Run.Quieter

variable {r r' : Run}

theorem advance (quieter : r.Quieter r') (blameless : Analysis.Blameless r'.analysis)
    (unasked : r.analysis.preferences.warnOnShadowing = false) (s : Step) :
    (r.advance s).Quieter (r'.advance s) where
  toAbreast := quieter.toAbreast.advance s
  diagnostics := by
    have unshadowed := blameless.unshadowed s
    have findings : (r'.analysis.findings s).filter (·.code ≠ .shadowed) = r'.analysis.findings s :=
      List.filter_eq_self.2 (by simpa using unshadowed)
    have hints : (r'.analysis.hints s).filter (·.code ≠ .shadowed) = [] := by
      refine List.filter_eq_nil_iff.2 fun d member => ?_
      obtain ⟨-, -, e, outer, -, rfl⟩ := Analysis.mem_hints.1 member
      simp [Diagnostic.shadowed]
    rw [diagnostics_advance, diagnostics_advance, Analysis.hints_unasked unasked,
      List.filter_append, List.filter_append, findings, hints, quieter.diagnostics,
      Analysis.findings_congr quieter.core]
  harmless := by
    intro d member shadowed
    rw [← Array.mem_toList_iff, diagnostics_advance, List.mem_append, List.mem_append] at member
    rcases member with (old | found) | hinted
    · exact quieter.harmless d (Array.mem_toList_iff.1 old) shadowed
    · exact absurd shadowed (blameless.unshadowed s d found)
    · obtain ⟨-, -, e, outer, -, rfl⟩ := Analysis.mem_hints.1 hinted
      rfl

theorem halted_eq {p p' : Preferences} (quieter : r.Quieter r') (serves : r.analysis.Serves p)
    (serves' : r'.analysis.Serves p') (same : p.stopOnFirstError = p'.stopOnFirstError) :
    r.analysis.halted = r'.analysis.halted := by
  rw [Bool.eq_iff_iff, serves.halted_iff, serves'.halted_iff, quieter.diagnostics]
  refine exists_congr fun d => ?_
  rw [List.mem_filter, and_assoc]
  refine and_congr_right fun member => ?_
  have harmless := quieter.harmless d (Array.mem_toList_iff.1 member)
  simp only [Diagnostic.stops, same, Bool.and_eq_true, decide_eq_true_eq, and_iff_right_iff_imp]
  rintro ⟨error, -⟩ shadowed
  exact Bool.eq_false_iff.1 (harmless shadowed) error

theorem report_eq (quieter : r.Quieter r') :
    r.analysis.summarize = r'.analysis.summarize.unwarned := by
  rw [quieter.report, quieter.diagnostics]
  rfl

end Run.Quieter

namespace Trace

variable {t : Trace} {policy : Policy} {p : Preferences} {index : Nat} {s : Step}

theorem blameless_reached (t : Trace) (policy : Policy) (p : Preferences) (index : Nat) :
    Analysis.Blameless (t.reached policy p index) :=
  Run.through_induction (motive := fun r => Analysis.Blameless r.analysis)
    (Analysis.blameless_start policy p)
    (fun r s blameless => Analysis.Blameless.take (a := r.announce s)
      ⟨blameless.formed, blameless.unclaimed, blameless.known⟩ s) _

theorem quieter_runTo (t : Trace) (policy : Policy) (p : Preferences) (index : Nat) :
    (t.runTo policy p.unwary index).Quieter (t.runTo policy p.wary index) := by
  induction index with
  | zero => exact ⟨⟨rfl, rfl⟩, rfl, nofun⟩
  | succ index ih =>
    have serves := serves_runTo t policy p.unwary index
    have serves' := serves_runTo t policy p.wary index
    have halted := ih.halted_eq serves serves' rfl
    cases halts : (t.reached policy p.wary index).halted with
    | true => rwa [runTo_stays halts, runTo_stays (halted.trans halts)]
    | false =>
      cases found : t.steps[index]? with
      | none => rwa [runTo_past found, runTo_past found]
      | some s =>
        rw [runTo_succ halts found, runTo_succ (halted.trans halts) found]
        have unasked := congrArg Preferences.warnOnShadowing serves.preferences
        exact ih.advance (t.blameless_reached policy p.wary index) unasked s

/-- A replay that is not to warn of hidden declarations is the one that is, but for those warnings.
There is one exactly for each declaration that lands where its name had a meaning; it tells the
level of that meaning, which is outside of its own. -/
theorem replay_wary (t : Trace) (policy : Policy) (p : Preferences) :
    t.replay policy p.unwary = (t.replay policy p.wary).unwarned ∧
    ∀ index s, index < (t.replay policy p.wary).executed → t.steps[index]? = some s →
      let states := t.reached policy p.wary
      ∃ more, (states (index + 1)).diagnostics.toList = (states index).diagnostics.toList ++ more ∧
        (states index).Warns s more := by
  refine ⟨?_, fun index s executed found => ?_⟩
  · have quieter := t.quieter_runTo policy p t.steps.length
    have halted := quieter.halted_eq (serves_runTo t policy p.unwary _)
      (serves_runTo t policy p.wary _) rfl
    rw [replay, replay, runTo_all (Nat.le_refl _), runTo_all (p := p.wary) (Nat.le_refl _)]
    simp only [Replay.of, Replay.unwarned, quieter.executed, halted, quieter.opened,
      quieter.report_eq]
  · have going := (reached_succ executed).1
    refine ⟨_, ?_, (t.blameless_reached policy p.wary index).warns ?_ s⟩
    · have next : t.reached policy p.wary (index + 1) = _ :=
        congrArg Run.analysis (runTo_succ going found)
      rw [next, Run.diagnostics_advance, List.append_assoc]
      rfl
    · rw [(serves_reached t policy p.wary index).preferences]
      rfl

end Trace

end

namespace Trace

def hiddenVariable : Trace where
  steps := [
    { kind := .program, name? := some "m" },
    { kind := .declare, name? := some "x", category := some .int },
    { kind := .procedure, name? := some "p" },
    { kind := .declare, name? := some "x", category := some .int },
    { kind := .close },
    { kind := .close } ]

theorem hiddenVariable_warns :
    let p : Preferences := {}
    (hiddenVariable.replay {} p.wary).report.diagnostics = [.shadowed "x" 0 .dummy (some 1)] ∧
      (hiddenVariable.replay {} p.unwary).report.diagnostics = [] ∧
      ∃ more, (hiddenVariable.reached {} p.wary 4).diagnostics.toList =
          (hiddenVariable.reached {} p.wary 3).diagnostics.toList ++ more ∧
        (hiddenVariable.reached {} p.wary 3).Warns
          { kind := .declare, name? := some "x", category := some .int } more := by
  intro p
  have executed : 3 < (hiddenVariable.replay {} p.wary).executed := by decide +kernel
  exact ⟨by decide +kernel, by decide +kernel, (replay_wary hiddenVariable {} p).2 3 _ executed rfl⟩

end Trace

end ScopeFrames
