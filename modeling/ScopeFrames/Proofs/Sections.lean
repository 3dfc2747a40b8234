import Mathlib.Data.List.Forall2
import ScopeFrames.Proofs.Filing

namespace ScopeFrames

inductive Finding : Type
  | error
  | warning
  deriving DecidableEq

namespace Finding

def text : Finding → String
  | .error => "error"
  | .warning => "warning"

def level : Finding → Level
  | .error => .error
  | .warning => .warning

end Finding

namespace FileEvents

def found (f : FileEvents) (finding : Finding) : List Event :=
  f.events.toList.filter (·.level = finding.level)

def Reported (f : FileEvents) : Prop :=
  ∃ e ∈ f.events.toList, e.level = .error ∨ e.level = .warning

instance (f : FileEvents) : Decidable f.Reported :=
  inferInstanceAs (Decidable (∃ e ∈ f.events.toList, e.level = .error ∨ e.level = .warning))

theorem not_reported_iff {f : FileEvents} : ¬ f.Reported ↔ ∀ finding, f.found finding = [] := by
  simp only [Reported, found, List.filter_eq_nil_iff, decide_eq_true_eq, not_exists, not_and]
  constructor
  · rintro none (_ | _) e member level
    · exact none e member (.inl level)
    · exact none e member (.inr level)
  · rintro none e member (level | level)
    · exact none .error e member level
    · exact none .warning e member level

end FileEvents

structure Block where
  finding : Finding
  code : Code
  message : String
  place? : Option Position
  notes : List (String × String)
  help? : Option String

namespace Block

structure Shows (b : Block) (e : Event) : Prop where
  level : e.level = b.finding.level
  code : b.code = e.code
  message : b.message = e.message
  place : b.place? = e.span.map (·.start)
  inOrder : b.notes.Pairwise fun x y => compare x.1 y.1 = .lt
  notes : ∀ key value, (key, value) ∈ b.notes ↔
    (key, value) ∈ e.context.notes ∧ key ≠ "file" ∧ key ≠ "file_id"
  help : b.help? =
    if e.level = .error ∧ e.code.action ≠ Code.noAction then some e.code.action else none

def lines (b : Block) (path : String) : List String :=
  s!"{b.finding.text}[{b.code.text}]: {b.message}"
    :: (b.place?.map fun place => s!"  --> {path}:{place.text}").toList
    ++ (b.notes.map fun (key, value) => s!"  = {key}: {value}")
    ++ (b.help?.map fun action => s!"  = help: {action}").toList

end Block

structure Section where
  path : String
  blocks : List Block

namespace Section

structure Covers (s : Section) (f : FileEvents) : Prop where
  path : s.path = f.path
  blocks : List.Forall₂ Block.Shows s.blocks (f.found .error ++ f.found .warning)

def lines (s : Section) : List String :=
  s!"Checking {s.path}..." :: s.blocks.flatMap (·.lines s.path) ++ [""]

def count (sections : List Section) (finding : Finding) : Nat :=
  (sections.flatMap (·.blocks)).countP (·.finding = finding)

def totalLine (name : String) (count : Nat) : List String :=
  if count = 0 then [] else [s!"Total {name}: {count}"]

def document (sections : List Section) : List String :=
  sections.flatMap (·.lines) ++ totalLine "errors" (count sections .error)
    ++ totalLine "warnings" (count sections .warning)

end Section

def ended (lines : List String) : String := String.join (lines.map (· ++ "\n"))

theorem ended_append (lines lines' : List String) :
    ended (lines ++ lines') = ended lines ++ ended lines' := by
  rw [ended, List.map_append, String.join_append]
  rfl

theorem ended_cons (line : String) (lines : List String) :
    ended (line :: lines) = line ++ "\n" ++ ended lines := by
  rw [ended, List.map_cons, String.join_cons]
  rfl

theorem ended_flatMap {α : Type} (f : α → List String) (as : List α) :
    ended (as.flatMap f) = String.join (as.map fun a => ended (f a)) := by
  induction as with
  | nil => rfl
  | cons a as ih => rw [List.flatMap_cons, ended_append, ih, List.map_cons, String.join_cons]

namespace Block

def ofEvent (finding : Finding) (e : Event) : Block where
  finding := finding
  code := e.code
  message := e.message
  place? := e.span.map (·.start)
  notes := e.context.notes.filter fun (key, _) => key ≠ "file" && key ≠ "file_id"
  help? := if e.level = .error ∧ e.code.action ≠ Code.noAction then some e.code.action else none

variable {finding : Finding} {e : Event}

theorem shows_ofEvent (level : e.level = finding.level) : (ofEvent finding e).Shows e where
  level := level
  code := rfl
  message := rfl
  place := rfl
  inOrder := e.context.inOrder.sublist List.filter_sublist
  notes key value := by simp [ofEvent]
  help := rfl

theorem describe_eq (path : String) (finding : Finding) (e : Event) :
    FileEvents.describe path finding.text e = ended ((ofEvent finding e).lines path) := by
  have help : ended ((ofEvent finding e).help?.map fun action => s!"  = help: {action}").toList =
      if e.isError && e.code.action ≠ Code.noAction then s!"  = help: {e.code.action}\n"
      else "" := by
    by_cases advised : e.level = .error ∧ e.code.action ≠ Code.noAction <;>
      simp [ofEvent, Event.isError, advised, ended, toString]
  rw [lines, ended_append, ended_append, ended_cons, help]
  cases spanned : e.span <;>
    simp [FileEvents.describe, ofEvent, spanned, ended, Function.comp_def, String.append_assoc,
      toString]

end Block

namespace Section

def ofFile (f : FileEvents) : Section where
  path := f.path
  blocks := (f.found .error).map (Block.ofEvent .error) ++
    (f.found .warning).map (Block.ofEvent .warning)

theorem covers_ofFile (f : FileEvents) : (ofFile f).Covers f where
  path := rfl
  blocks := by
    have shown (finding : Finding) : List.Forall₂ Block.Shows
        ((f.found finding).map (Block.ofEvent finding)) (f.found finding) := by
      refine List.forall₂_map_left_iff.2 (List.forall₂_same.2 fun e member => ?_)
      exact Block.shows_ofEvent (of_decide_eq_true (List.mem_filter.1 member).2)
    exact List.rel_append (shown .error) (shown .warning)

theorem section?_eq (f : FileEvents) :
    f.section? = if f.Reported then some (ended (ofFile f).lines) else none := by
  have silent : (f.errors.isEmpty && f.warnings.isEmpty) = true ↔ ¬ f.Reported := by
    rw [FileEvents.not_reported_iff, Bool.and_eq_true, List.isEmpty_iff, List.isEmpty_iff]
    refine ⟨fun ⟨errors, warnings⟩ finding => ?_, fun none => ⟨none .error, none .warning⟩⟩
    cases finding with
    | error => exact errors
    | warning => exact warnings
  rw [FileEvents.section?]
  by_cases reported : f.Reported
  · rw [if_neg (not_not_intro reported ∘ silent.1), if_pos reported, lines, ended_append,
      ended_cons, ended_flatMap, ofFile, List.map_append, List.map_map, List.map_map,
      String.join_append]
    simp only [Function.comp_def, ← Block.describe_eq]
    have heading : s!"Checking {f.path}...\n" = s!"Checking {f.path}..." ++ "\n" := by
      simp only [String.append_assoc]
      rfl
    rw [heading]
    simp only [String.append_assoc]
    rfl
  · rw [if_pos (silent.2 reported), if_neg reported]

theorem countP_ofFile (f : FileEvents) (finding : Finding) :
    (ofFile f).blocks.countP (·.finding = finding) = (f.found finding).length := by
  rw [ofFile, List.countP_append, List.countP_map, List.countP_map]
  cases finding <;> simp [Function.comp_def, Block.ofEvent]

theorem count_ofFile (files : List FileEvents) (finding : Finding) :
    count ((files.filter (·.Reported)).map ofFile) finding =
      (files.map fun f => (f.found finding).length).sum := by
  induction files with
  | nil => rfl
  | cons f files ih =>
    rw [List.map_cons, List.sum_cons, ← ih]
    by_cases reported : f.Reported
    · rw [List.filter_cons_of_pos (by simpa using reported), ← countP_ofFile]
      simp [count]
    · rw [List.filter_cons_of_neg (by simpa using reported), FileEvents.not_reported_iff.1 reported]
      simp

theorem ended_totalLine (name : String) (count : Nat) : ended (totalLine name count) =
    if 0 < count then s!"Total {name}: {count}\n" else "" := by
  cases count <;> simp [totalLine, ended, toString]

theorem report_eq (c : Collector) :
    c.report = ended (document ((c.files.filter (·.Reported)).map ofFile)) := by
  have sections : c.files.filterMap (·.section?) =
      ((c.files.filter (·.Reported)).map ofFile).map fun s => ended s.lines := by
    rw [List.map_map, ← List.filterMap_eq_map, List.filterMap_filter]
    simp only [section?_eq, decide_eq_true_eq]
    rfl
  have errors : c.totals.errors = (c.files.map fun f => (f.found .error).length).sum := by
    rw [List.sum_eq_foldl, List.foldl_map]
    rfl
  have warnings : c.totals.warnings = (c.files.map fun f => (f.found .warning).length).sum := by
    rw [List.sum_eq_foldl, List.foldl_map]
    rfl
  rw [document, ended_append, ended_append, ended_flatMap, ← sections, ended_totalLine,
    ended_totalLine, count_ofFile, count_ofFile, ← errors, ← warnings]
  rfl

end Section

namespace Collector

section

variable [Limits]

/-- Whatever has been recorded, the report has one section for each file with errors or warnings,
in the order of their paths; a section tells of all errors and then of all warnings that are stored
for its file, and the totals count what the sections tell of. -/
theorem report_sections (rs : List Recording) :
    let c := ({} : Collector).after rs
    ∃ sections : List Section,
      c.report = ended (Section.document sections) ∧
      (sections.Pairwise fun s t => FilePath.order s.path t.path = .lt) ∧
      (∀ f ∈ c.files, f.Reported → ∃ s ∈ sections, s.Covers f) ∧
      ∀ s ∈ sections, ∃ f ∈ c.files, f.Reported ∧ s.Covers f := by
  intro c
  have holds : c.Holds rs := holds_after rs
  refine ⟨_, Section.report_eq c, ?_, fun f member reported => ?_, fun s member => ?_⟩
  · exact List.pairwise_map.2 (holds.ordered.filter _)
  · have kept : f ∈ c.files.filter (·.Reported) :=
      List.mem_filter.2 ⟨member, decide_eq_true reported⟩
    exact ⟨_, List.mem_map_of_mem kept, Section.covers_ofFile f⟩
  · obtain ⟨f, kept, rfl⟩ := List.mem_map.1 member
    obtain ⟨member, reported⟩ := List.mem_filter.1 kept
    exact ⟨f, member, of_decide_eq_true reported, Section.covers_ofFile f⟩

end

def warningAndError : List Event :=
  [ .milestone .traceLoaded "Loaded",
    .warning .eventsDropped "Many",
    (((Event.error .undeclared "Undeclared 'q'").placed (.identifier 3 5 1)).noting
      "scope_level" "1").noting "file" "a.toml" ]

theorem warningAndError_sections :
    let rs := warningAndError.map (.record "a.toml")
    (({} : Collector).after rs).report = ended
      [ "Checking a.toml...", "error[E110]: Undeclared 'q'", "  --> a.toml:3:5",
        "  = scope_level: 1", "  = help: Declare the identifier in this or an enclosing scope",
        "warning[W000]: Many", "", "Total errors: 1", "Total warnings: 1" ] ∧
    ∃ sections : List Section,
      (({} : Collector).after rs).report = ended (Section.document sections) ∧
      ∀ s ∈ sections, s.path = "a.toml" ∧ s.blocks.map (·.finding.level) = [.error, .warning] := by
  intro rs
  have files : ({} : Collector).after rs = ⟨[⟨"a.toml", warningAndError.toArray⟩]⟩ := by
    have own : FilePath.order "a.toml" "a.toml" = .eq := FilePath.order_eq_eq.2 rfl
    simp [rs, after, warningAndError, apply, record, update, own, FileEvents.record,
      Limits.eventsPerFile]
  obtain ⟨sections, report, -, -, covered⟩ := report_sections rs
  refine ⟨by rw [files]; decide +kernel, sections, report, fun s member => ?_⟩
  obtain ⟨f, stored, -, covers⟩ := covered s member
  rw [files] at stored
  obtain rfl := List.mem_singleton.1 stored
  refine ⟨covers.path, ?_⟩
  have levels : List.Forall₂ (· = ·) (s.blocks.map (·.finding.level))
      ((FileEvents.found _ .error ++ FileEvents.found _ .warning).map (·.level)) :=
    List.forall₂_map_left_iff.2 <| List.forall₂_map_right_iff.2 <|
      covers.blocks.imp fun _ _ shows => shows.level.symm
  rw [List.forall₂_eq_eq_eq] at levels
  exact levels.trans rfl

end Collector

end ScopeFrames
