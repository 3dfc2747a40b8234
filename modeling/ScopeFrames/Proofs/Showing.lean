import ScopeFrames.Proofs.Columns
import ScopeFrames.Proofs.Heeding
import ScopeFrames.Proofs.Shadowing

namespace ScopeFrames

namespace Step

def place (s : Step) : String :=
  match s.line, s.column with
  | some line, some column => s!" at {line}:{column}"
  | _, _ => ""

/-- A step at the very first place whose name takes no columns: it is empty, or so long that the
sum of the columns starts over. -/
def Unseen (s : Step) : Prop :=
  s.line = some 1 ∧ s.column = some 1 ∧ s.name.utf8ByteSize % UInt32.size = 0

instance (s : Step) : Decidable s.Unseen :=
  inferInstanceAs (Decidable
    (s.line = some 1 ∧ s.column = some 1 ∧ s.name.utf8ByteSize % UInt32.size = 0))

variable {s : Step}

theorem isDummy_identifier {line column length : Nat} :
    (Span.identifier line column length).isDummy = true ↔
      line = 1 ∧ column = 1 ∧ length % UInt32.size = 0 := by
  have split : Span.identifier line column length =
      ⟨⟨0, line, column⟩, ⟨0, line, (column + length) % UInt32.size⟩⟩ :=
    congrArg (Span.mk ⟨0, line, column⟩ ⟨0, line, ·⟩) (Span.stop_identifier line column length)
  simp only [split, Span.isDummy, Span.dummy, Position.start, decide_eq_true_eq, Span.mk.injEq,
    Position.mk.injEq, true_and]
  unfold UInt32.size
  omega

theorem shown_span : (if s.span.isDummy then "" else s!" at {s.span.start.text}") =
    if s.Unseen then "" else s.place := by
  unfold span place
  cases lined : s.line with
  | none => simp [Span.isDummy, Unseen, lined]
  | some line =>
    cases columned : s.column with
    | none => simp [Span.isDummy, Unseen, columned]
    | some column =>
      have unseen : s.Unseen ↔ line = 1 ∧ column = 1 ∧ s.name.utf8ByteSize % UInt32.size = 0 := by
        simp only [Unseen, lined, columned, Option.some.injEq]
      simp only [isDummy_identifier, unseen]
      rfl

theorem Unseen.name_eq (unseen : s.Unseen) (fits : ¬ s.Protrudes) : s.name = "" := by
  obtain ⟨lined, columned, whole⟩ := unseen
  have short : s.name.utf8ByteSize < UInt32.size := by
    by_contra long
    have beyond : Limits.maxColumn < s.name.utf8ByteSize := Nat.not_lt.1 long
    exact fits ⟨1, 1, lined, columned, Nat.lt_add_left 1 beyond⟩
  rw [Nat.mod_eq_of_lt short] at whole
  exact String.utf8ByteSize_eq_zero_iff.1 whole

theorem kind_of_name (unnamed : s.name = "") (valid : s.fault? = none) :
    s.kind = .block ∨ s.kind = .close := by
  have named : s.kind.needsName = false := by
    refine Bool.eq_false_iff.2 fun needs => ?_
    simp [fault?, needs, unnamed] at valid
  cases kind : s.kind <;> simp_all [StepKind.needsName]

end Step

def Diagnostic.headline (d : Diagnostic) : String :=
  s!"{d.severity}[{d.code.text}]: {d.message}"

theorem Diagnostic.text_of_span {d : Diagnostic} {s : Step} (stands : d.span = s.span) :
    d.text = d.headline ++ if s.Unseen then "" else s.place := by
  rw [← Step.shown_span, ← stands]
  rfl

section

variable [Limits]

namespace Analysis

variable {a : Analysis} {call : Call} {d : Diagnostic} {s : ScopeFrames.Step}

theorem Recordable.span_eq (recordable : Recordable a call d) : d.span = call.span := by
  cases recordable <;> rfl

theorem span_of_call? (calls : a.call? s = some call) : call.span = s.span := by
  unfold call? at calls
  cases kind : s.kind with
  | program | procedure | block | resolve =>
    rw [kind] at calls
    cases calls
    rfl
  | close =>
    rw [kind] at calls
    cases calls
    split <;> rfl
  | declare =>
    rw [kind] at calls
    obtain ⟨d, -, rfl⟩ := Option.map_eq_some_iff.1 calls
    rfl

theorem Blameless.stands (blameless : Blameless a) (s : ScopeFrames.Step) :
    ∃ more, (a.take s).diagnostics = a.diagnostics ++ more ∧ ∀ d ∈ more, d.span = s.span := by
  rw [take_eq_call]
  cases calls : a.call? s with
  | none => exact ⟨#[], by simp, by simp⟩
  | some call =>
    obtain ⟨-, -, more, told, all⟩ := within blameless.formed blameless.unclaimed call
    refine ⟨more, told, fun d member => ?_⟩
    rw [(all d member).span_eq, span_of_call? calls]

end Analysis

namespace Trace

def recorded (t : Trace) (policy : Policy) (p : Preferences) (index : Nat) : List Diagnostic :=
  (t.reached policy p (index + 1)).diagnostics.toList.drop
    (t.reached policy p index).diagnostics.size

variable {t : Trace} {policy : Policy} {p : Preferences} {index : Nat} {s : Step}

theorem recorded_of_step (next : ∃ event, t.reached policy p (index + 1) =
    ((t.reached policy p index).note event).take s) :
    (t.reached policy p (index + 1)).diagnostics.toList =
        (t.reached policy p index).diagnostics.toList ++ t.recorded policy p index ∧
      ∀ d ∈ t.recorded policy p index, d.span = s.span := by
  obtain ⟨event, next⟩ := next
  obtain ⟨formed, unclaimed, known⟩ := t.blameless_reached policy p index
  obtain ⟨more, told, stand⟩ := Analysis.Blameless.stands
    (a := (t.reached policy p index).note event) ⟨formed, unclaimed, known⟩ s
  have told : (t.reached policy p (index + 1)).diagnostics.toList =
      (t.reached policy p index).diagnostics.toList ++ more.toList := by
    rw [next, told, Array.toList_append]
    rfl
  have same : t.recorded policy p index = more.toList := by
    rw [recorded, told, ← Array.length_toList, List.drop_left]
  rw [same]
  exact ⟨told, by simpa using stand⟩

theorem runTo_executed (t : Trace) (policy : Policy) (p : Preferences) :
    t.run policy p = t.runTo policy p (t.run policy p).executed := by
  have le : (t.run policy p).executed ≤ t.steps.length := by
    have few : (t.run policy p).executed ≤ 0 + t.steps.length := Run.executed_through_le _ _
    omega
  rcases Nat.lt_or_eq_of_le le with short | all
  · refine runTo_halted (Bool.not_eq_false _ ▸ fun going => ?_)
    have next := runTo_succ going (List.getElem?_eq_getElem short)
    have further := t.executed_runTo_le policy p ((t.run policy p).executed + 1)
    rw [next] at further
    have here := executed_runTo le going
    simp only [Run.advance] at further
    omega
  · exact runTo_all all.ge

theorem recorded_reached (le : index ≤ (t.run policy p).executed) :
    (t.reached policy p index).diagnostics.toList =
      (List.range index).flatMap (t.recorded policy p) := by
  induction index with
  | zero => rfl
  | succ index ih =>
    obtain ⟨-, s, event, -, next⟩ := reached_succ le
    rw [(recorded_of_step ⟨event, next⟩).1, ih (Nat.le_of_succ_le le), List.range_succ]
    simp

/-- What a replay of a trace that passed its check reports was recorded step after step, and what
was recorded at a step shows its place, if it gives one.  The exception is the very first place,
which is not shown for a block or an end that stands there without a name. -/
theorem replay_shows (valid : t.check = .ok ()) (policy : Policy) (p : Preferences) :
    let r := t.replay policy p
    r.report.diagnostics = (List.range r.executed).flatMap (t.recorded policy p) ∧
    ∀ index s, index < r.executed → t.steps[index]? = some s →
      ∀ d ∈ t.recorded policy p index,
        (¬ s.Unseen → d.text = d.headline ++ s.place) ∧
        (s.Unseen → d.text = d.headline ∧
          (¬ s.Protrudes → s.name = "" ∧ (s.kind = .block ∨ s.kind = .close))) := by
  intro r
  refine ⟨?_, fun index s executed found d member => ?_⟩
  · refine Eq.trans ?_ (recorded_reached (Nat.le_refl _))
    exact congrArg (·.analysis.diagnostics.toList) (t.runTo_executed policy p)
  · obtain ⟨-, s', event, found', next⟩ := reached_succ executed
    obtain rfl : s' = s := Option.some.inj (found'.symm.trans found)
    have text := Diagnostic.text_of_span ((recorded_of_step ⟨event, next⟩).2 d member)
    refine ⟨fun seen => by rw [text, if_neg seen], fun unseen => ⟨?_, fun fits => ?_⟩⟩
    · rw [text, if_pos unseen, String.append_empty]
    · have unnamed := unseen.name_eq fits
      have passed := checkFrom_eq_ok.1 valid _ (List.mem_of_getElem? found)
      exact ⟨unnamed, Step.kind_of_name unnamed passed⟩

end Trace

end

namespace Trace

def programless : Trace where
  steps := [
    { kind := .resolve, name? := some "x", line := some 1, column := some 1 },
    { kind := .declare, name? := some "y", category := some .int } ]

theorem programless_shows :
    programless.check = .ok () ∧ (programless.replay {} {}).report.diagnostics.map (·.text) =
        ["error[E110]: Use of undeclared identifier 'x' at 1:1",
          "error[E092]: Cannot declare with 0 live scope(s)"] ∧
      (∀ d ∈ programless.recorded {} {} 0, d.text = d.headline ++ " at 1:1") ∧
      ∀ d ∈ programless.recorded {} {} 1, d.text = d.headline ++ "" := by
  have valid : programless.check = .ok () := by decide
  have executed : (programless.replay {} {}).executed = 2 := by decide +kernel
  have shows := (replay_shows valid {} {}).2
  refine ⟨valid, by decide +kernel, fun d member => ?_, fun d member => ?_⟩
  · exact (shows 0 _ (by omega) rfl d member).1 (by decide)
  · exact (shows 1 _ (by omega) rfl d member).1 (by decide)

def untimely : Trace where
  steps := [{ kind := .close, line := some 1, column := some 1 }]

theorem not_shows_start :
    ¬ ∀ (t : Trace) (policy : Policy) (p : Preferences), t.check = .ok () →
      (∀ s ∈ t.steps, ¬ s.Protrudes) →
      ∀ index s, index < (t.replay policy p).executed → t.steps[index]? = some s →
        ∀ d ∈ t.recorded policy p index, d.text = d.headline ++ s.place := by
  intro shows
  let d := Diagnostic.refused (.emptyStack "exit a nested scope" 0) (.identifier 1 1 0) none
  have recorded : untimely.recorded {} {} 0 = [d] := by decide +kernel
  have member : d ∈ untimely.recorded {} {} 0 := recorded ▸ List.mem_singleton_self d
  have fits : ∀ s ∈ untimely.steps, ¬ s.Protrudes := by
    rintro _ (_ | ⟨_, ⟨⟩⟩) ⟨line, column, -, ⟨⟩, beyond⟩
    exact absurd beyond (by decide)
  have shown := shows untimely {} {} (by decide) fits 0 _ (by decide +kernel) rfl d member
  exact absurd shown (by decide +kernel)

end Trace

end ScopeFrames
