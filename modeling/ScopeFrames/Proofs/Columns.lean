import ScopeFrames.Proofs.Running
import ScopeFrames.Trace.Reader

namespace ScopeFrames

namespace Toml

variable {α β ε : Type}

theorem bind_eq_ok {x : Except ε α} {f : α → Except ε β} {b : β} (done : x >>= f = .ok b) :
    ∃ a, x = .ok a ∧ f a = .ok b := by
  cases x with
  | error => cases done
  | ok a => exact ⟨a, rfl, done⟩

theorem mem_mapM {f : α → Except ε β} {as : List α} {bs : List β} {b : β}
    (done : as.mapM f = .ok bs) (member : b ∈ bs) : ∃ a ∈ as, f a = .ok b := by
  induction as generalizing bs with
  | nil =>
    cases done
    cases member
  | cons a as ih =>
    rw [List.mapM_cons] at done
    obtain ⟨b', first, done⟩ := bind_eq_ok done
    obtain ⟨bs', rest, done⟩ := bind_eq_ok done
    cases done
    rcases List.mem_cons.1 member with rfl | later
    · exact ⟨a, List.mem_cons_self, first⟩
    · obtain ⟨a', member', read⟩ := ih rest later
      exact ⟨a', List.mem_cons_of_mem a member', read⟩

theorem read_eq_ok {shape : Value → Except Cause α} {text : String} {a : α}
    (done : read shape text = .ok a) : ∃ v, shape v = .ok a := by
  simp only [read] at done
  split at done
  · cases done
  · split at done
    · cases done
    · next shaped =>
      cases done
      exact ⟨_, shaped⟩

theorem Value.optional_eq_ok {shape : Value → Except Cause α} {field : Option Value} {a : α}
    (done : optional shape field = .ok (some a)) : ∃ v, shape v = .ok a := by
  cases field with
  | none => cases done
  | some v =>
    cases shaped : shape v with
    | error =>
      simp only [optional, shaped] at done
      cases done
    | ok a' =>
      simp only [optional, shaped] at done
      cases done
      exact ⟨v, shaped⟩

theorem Value.le_of_asNatural {max n : Nat} {v : Value} (done : v.asNatural max = .ok n) :
    n ≤ max := by
  obtain ⟨m, -, done⟩ := bind_eq_ok done
  split at done
  · next bounds =>
    cases done
    exact Int.toNat_le.2 bounds.2
  · cases done

end Toml

theorem Span.stop_identifier (line column length : Nat) :
    (identifier line column length).stop.column = (column + length) % UInt32.size := by
  simp [identifier, UInt32.toNat_add, UInt32.toNat_ofNat']

theorem Limits.lt_of_le_traceBytes [Limits] {size : Nat} (le : size ≤ Limits.traceBytes) :
    size < UInt32.size :=
  Nat.lt_of_le_of_lt (Nat.le_trans le Limits.traceBytes_le) (by decide)

open Toml

structure Step.InRange (s : Step) : Prop where
  line : ∀ line, s.line = some line → line ≤ Limits.maxColumn
  column : ∀ column, s.column = some column → column ≤ Limits.maxColumn

namespace Step

theorem inRange_ofToml {v : Value} {s : Step} (done : ofToml v = .ok s) : s.InRange := by
  obtain ⟨field, -, done⟩ := bind_eq_ok done
  obtain ⟨kind, -, done⟩ := bind_eq_ok done
  obtain ⟨name, -, done⟩ := bind_eq_ok done
  obtain ⟨category, -, done⟩ := bind_eq_ok done
  obtain ⟨base, -, done⟩ := bind_eq_ok done
  obtain ⟨bounds, -, done⟩ := bind_eq_ok done
  obtain ⟨line, lined, done⟩ := bind_eq_ok done
  obtain ⟨column, columned, done⟩ := bind_eq_ok done
  cases done
  constructor
  · rintro _ rfl
    obtain ⟨_, natural⟩ := Value.optional_eq_ok lined
    exact Value.le_of_asNatural natural
  · rintro _ rfl
    obtain ⟨_, natural⟩ := Value.optional_eq_ok columned
    exact Value.le_of_asNatural natural

def Protrudes (s : Step) : Prop :=
  ∃ line column, s.line = some line ∧ s.column = some column ∧
    Limits.maxColumn < column + s.name.utf8ByteSize

/-- Where a step stands that gives a line and a column, with overflow checks and without. -/
structure Stands (s : Step) (line column : Nat) : Prop where
  line_le : line ≤ Limits.maxColumn
  column_le : column ≤ Limits.maxColumn
  start : s.span.start = ⟨0, line, column⟩
  stop_line : s.span.stop.line = line
  exact : column + s.name.utf8ByteSize ≤ Limits.maxColumn →
    s.span? = some s.span ∧ s.span.stop.column = column + s.name.utf8ByteSize
  wrapped : Limits.maxColumn < column + s.name.utf8ByteSize →
    s.span? = none ∧ s.span.stop.column = column + s.name.utf8ByteSize - UInt32.size ∧
      s.span.stop.column < s.span.start.column

theorem InRange.stands {s : Step} {line column : Nat} (inRange : s.InRange)
    (short : s.name.utf8ByteSize < UInt32.size) (lined : s.line = some line)
    (columned : s.column = some column) : s.Stands line column := by
  have placed : s.span = .identifier line column s.name.utf8ByteSize := by
    simp only [span, lined, columned]
  have checked : s.span? = Span.identifier? line column s.name.utf8ByteSize := by
    simp only [span?, lined, columned]
  have column_le := inRange.column column columned
  rw [Span.identifier?_eq, Nat.mod_eq_of_lt short, ← placed] at checked
  have sum := Span.stop_identifier line column s.name.utf8ByteSize
  rw [← placed] at sum
  have start : s.span.start = ⟨0, line, column⟩ := by rw [placed]; rfl
  refine ⟨inRange.line line lined, column_le, start, by rw [placed]; rfl, fun fits => ?_,
    fun beyond => ⟨?_, ?_⟩⟩
  · rw [checked, if_pos fits, sum]
    exact ⟨rfl, Nat.mod_eq_of_lt (Nat.lt_succ_of_le fits)⟩
  · rw [checked, if_neg (Nat.not_le.2 beyond)]
  · rw [start, sum]
    unfold Limits.maxColumn at beyond column_le
    unfold UInt32.size at short ⊢
    dsimp only
    omega

theorem span?_eq_none {s : Step} (short : s.name.utf8ByteSize < UInt32.size) :
    s.span? = none ↔ s.Protrudes := by
  unfold span? Protrudes
  split
  · next line column lined columned =>
    rw [Span.identifier?_eq, Nat.mod_eq_of_lt short]
    simp [lined, columned]
  · next unplaced =>
    constructor
    · nofun
    · rintro ⟨line, column, lined, columned, -⟩
      exact absurd columned (unplaced line column lined)

end Step

theorem Trace.inRange_ofToml {v : Value} {t : Trace} (done : ofToml v = .ok t) :
    ∀ s ∈ t.steps, s.InRange := by
  obtain ⟨field, -, done⟩ := bind_eq_ok done
  obtain ⟨steps, items, done⟩ := bind_eq_ok done
  obtain ⟨name, -, done⟩ := bind_eq_ok done
  cases done
  intro s member
  cases steps with
  | none => cases member
  | some steps =>
    obtain ⟨_, listed⟩ := Value.optional_eq_ok items
    obtain ⟨_, -, listed⟩ := bind_eq_ok listed
    obtain ⟨_, -, shaped⟩ := mem_mapM listed member
    exact Step.inRange_ofToml shaped

section

variable [Limits]

namespace Run

theorem through_going {s : Step} {r : Run} (going : r.analysis.halted = false)
    (rest : List Step) : through (s :: rest) r = through rest (r.advance s) := by
  simp [through, going, advance]

theorem checked_going {s : Step} {r : Run} (going : r.analysis.halted = false)
    (rest : List Step) : checked (s :: rest) r =
      if s.span? = none then .error { r with analysis := r.announce s }
      else checked rest (r.advance s) := by
  simp [checked, going, advance]

theorem checked_cases (steps : List Step) (r : Run) :
    checked steps r = .ok (through steps r) ∧
        (∀ s ∈ steps.take ((through steps r).executed - r.executed), s.span? ≠ none) ∨
      ∃ front s back, steps = front ++ s :: back ∧ s.span? = none ∧
        (∀ s' ∈ front, s'.span? ≠ none) ∧
        r.executed + front.length < (through steps r).executed ∧
        checked steps r = .error {
          executed := r.executed + front.length
          analysis := (through front r).announce s } := by
  induction steps generalizing r with
  | nil => exact .inl ⟨rfl, by simp⟩
  | cons s rest ih =>
    cases going : r.analysis.halted with
    | true => exact .inl (by simp [checked, through, going])
    | false =>
      have reaches : r.executed + 1 ≤ (through rest (r.advance s)).executed :=
        executed_le_through rest (r.advance s)
      rw [through_going going, checked_going going]
      by_cases unplaced : s.span? = none
      · refine .inr ⟨[], s, rest, rfl, unplaced, by simp, reaches, ?_⟩
        rw [if_pos unplaced]
        rfl
      · rw [if_neg unplaced]
        refine (ih (r.advance s)).imp ?_ ?_
        · rintro ⟨whole, all⟩
          refine ⟨whole, ?_⟩
          rw [← Nat.sub_add_cancel (Nat.sub_pos_of_lt reaches), List.take_succ_cons]
          exact List.forall_mem_cons.2 ⟨unplaced, all⟩
        · rintro ⟨front, s', back, rfl, lost, all, executed, stopped⟩
          have counts : (r.advance s).executed + front.length =
              r.executed + (s :: front).length := by
            simp [advance, Nat.add_assoc, Nat.add_comm 1]
          refine ⟨s :: front, s', back, rfl, lost, List.forall_mem_cons.2 ⟨unplaced, all⟩, ?_, ?_⟩
          · exact counts ▸ executed
          · rw [stopped, counts, through_going going]

end Run

namespace Trace

variable {text : String} {t : Trace}

theorem inRange_ofText (done : ofText text = .ok t) : ∀ s ∈ t.steps, s.InRange := by
  unfold ofText at done
  split at done
  · cases done
  · next shaped =>
    split at done
    · cases done
    · split at done
      · cases done
      · cases done
        obtain ⟨_, shaped⟩ := read_eq_ok shaped
        exact inRange_ofToml shaped

theorem overflows_iff (policy : Policy) (p : Preferences) :
    t.overflows (t.run policy p) = true ↔ ∃ r, t.checked policy p = .error r := by
  have runs := Run.checked_cases t.steps { analysis := .start policy p }
  simp only [overflows, checked, run, List.any_eq_true, Option.isNone_iff_eq_none]
  rcases runs with ⟨whole, placed⟩ | ⟨front, s, back, split, unplaced, -, executed, stopped⟩
  · rw [whole]
    constructor
    · rintro ⟨s, member, none⟩
      exact absurd none (placed s member)
    · rintro ⟨r, ⟨⟩⟩
  · rw [stopped]
    refine ⟨fun _ => ⟨_, rfl⟩, fun _ => ⟨s, ?_, unplaced⟩⟩
    rw [Nat.zero_add] at executed
    refine List.mem_iff_getElem?.2 ⟨front.length, ?_⟩
    rw [List.getElem?_take, if_pos executed, split]
    simp

/-- A step of a trace that was read stands where it says, as far as its name reaches, and that may
be too far: then its last column is lost, and overflow checks stop the first replay that comes to
such a step. -/
theorem ofText_columns (done : ofText text = .ok t)
    (short : ∀ s ∈ t.steps, s.name.utf8ByteSize ≤ Limits.traceBytes) (policy : Policy)
    (p : Preferences) :
    (∀ s ∈ t.steps, ∀ line column, s.line = some line → s.column = some column →
      s.Stands line column) ∧
    (t.checked policy p = .ok (t.run policy p) ∧
        (∀ s ∈ t.steps.take (t.run policy p).executed, ¬ s.Protrudes) ∨
      ∃ front s back, t.steps = front ++ s :: back ∧ s.Protrudes ∧
        (∀ s' ∈ front, ¬ s'.Protrudes) ∧ front.length < (t.run policy p).executed ∧
        t.checked policy p = .error {
          executed := front.length
          analysis := (Run.through front { analysis := .start policy p }).announce s }) ∧
    (t.overflows (t.run policy p) = true ↔ ∃ r, t.checked policy p = .error r) := by
  have small : ∀ s ∈ t.steps, s.name.utf8ByteSize < UInt32.size :=
    fun s member => Limits.lt_of_le_traceBytes (short s member)
  refine ⟨fun s member line column => (inRange_ofText done s member).stands (small s member), ?_,
    overflows_iff policy p⟩
  refine (Run.checked_cases t.steps { analysis := .start policy p }).imp ?_ ?_
  · rintro ⟨whole, placed⟩
    refine ⟨whole, fun s member protrudes => placed s member ?_⟩
    exact (Step.span?_eq_none (small s (List.mem_of_mem_take member))).2 protrudes
  · rintro ⟨front, s, back, split, unplaced, placed, executed, stopped⟩
    have small' : ∀ s' ∈ front ++ s :: back, s'.name.utf8ByteSize < UInt32.size := split ▸ small
    rw [Nat.zero_add] at executed stopped
    refine ⟨front, s, back, split, ?_, fun s' member protrudes => placed s' member ?_, executed,
      stopped⟩
    · exact (Step.span?_eq_none (small' s (by simp))).1 unplaced
    · exact (Step.span?_eq_none (small' s' (List.mem_append_left _ member))).2 protrudes

end Trace

end

namespace Trace

def lastColumn : Trace where
  steps := [{ kind := .resolve, name? := some "x", line := some 1, column := some 4294967294 }]

def lastColumnText : String :=
  "[[step]]\nkind = \"resolve\"\nname = \"x\"\nline = 1\ncolumn = 4294967294\n"

theorem lastColumn_checked :
    ofText lastColumnText = .ok lastColumn ∧
      (∀ s ∈ lastColumn.steps, s.name.utf8ByteSize ≤ Limits.traceBytes ∧
        s.span = ⟨⟨0, 1, 4294967294⟩, ⟨0, 1, 4294967295⟩⟩) ∧
      lastColumn.checked {} {} = .ok (lastColumn.run {} {}) := by
  have done : ofText lastColumnText = .ok lastColumn := by rfl
  have short : ∀ s ∈ lastColumn.steps, s.name.utf8ByteSize ≤ Limits.traceBytes := by decide
  obtain ⟨stands, checks, -⟩ := ofText_columns done short {} {}
  refine ⟨done, fun s member => ⟨short s member, ?_⟩, ?_⟩
  · obtain rfl := List.mem_singleton.1 member
    have stands := stands _ member _ _ rfl rfl
    have stop := (stands.exact (by decide)).2
    exact Span.mk.injEq .. ▸ ⟨stands.start, Position.mk.injEq .. ▸ ⟨rfl, rfl, stop⟩⟩
  · rcases checks with ⟨whole, -⟩ | ⟨front, s, back, split, ⟨line, column, lined, columned, off⟩, -⟩
    · exact whole
    · have member : s ∈ lastColumn.steps := split ▸ by simp
      obtain rfl := List.mem_singleton.1 member
      cases columned
      exact absurd off (by decide)

def beyond : Trace where
  steps := [{ kind := .resolve, name? := some "x", line := some 1, column := some 4294967295 }]

def beyondText : String :=
  "[[step]]\nkind = \"resolve\"\nname = \"x\"\nline = 1\ncolumn = 4294967295\n"

theorem not_columns_fit :
    (¬ ∀ (text : String) (t : Trace), ofText text = .ok t → ∀ (policy : Policy) (p : Preferences),
      t.checked policy p = .ok (t.run policy p)) ∧
    ¬ ∀ (text : String) (t : Trace), ofText text = .ok t →
      ∀ s ∈ t.steps, s.span.start.column ≤ s.span.stop.column := by
  have done : ofText beyondText = .ok beyond := by rfl
  refine ⟨fun goes => ?_, fun ordered => ?_⟩
  · have stopped : beyond.checked {} {} ≠ .ok (beyond.run {} {}) := nofun
    exact stopped (goes _ _ done {} {})
  · exact absurd (ordered _ _ done) (by decide)

end Trace

end ScopeFrames
