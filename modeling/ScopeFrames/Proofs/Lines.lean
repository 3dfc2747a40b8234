import ScopeFrames.Event
import ScopeFrames.Proofs.Reading

namespace ScopeFrames

namespace Json

def field? (key : String) : Json → Option Json
  | .object fields => fields.lookup key
  | _ => none

def text? : Json → Option String
  | .string s => some s
  | _ => none

def number? : Json → Option Nat
  | .number n => some n
  | _ => none

def texts? : Json → Option (List (String × String))
  | .object fields => fields.mapM fun (key, value) => value.text?.map (key, ·)
  | _ => none

def optional {α : Type} (key : String) (decode : Json → Option α) (j : Json) : Option (Option α) :=
  match j.field? key with
  | none => some none
  | some value => (decode value).map some

theorem optional_eq_none {α : Type} (key : String) (decode : Json → Option α) (j : Json) :
    j.optional key decode = some none ↔ j.field? key = none := by
  unfold optional
  cases j.field? key with
  | none => simp
  | some value => cases decode value <;> simp

theorem texts?_object (pairs : List (String × String)) :
    texts? (.object (pairs.map fun (key, value) => (key, .string value))) = some pairs := by
  have each : ((fun (key, value) => (text? value).map (key, ·)) ∘
      fun (key, value) => (key, Json.string value)) = (some : String × String → _) := by
    funext ⟨key, value⟩
    rfl
  rw [texts?, List.mapM_map, each]
  simpa using List.mapM_pure (m := Option) (l := pairs) (f := id)

end Json

def Level.ofName? (s : String) : Option Level :=
  [Level.error, .warning, .info, .debug].find? (·.text = s)

theorem Level.ofName?_text (l : Level) : ofName? l.text = some l := by
  cases l <;> decide

structure Region where
  line : Nat
  column : Nat
  endLine : Nat
  endColumn : Nat
  deriving DecidableEq

def Region.ofJson? (j : Json) : Option Region := do
  let line ← (← j.field? "line").number?
  let column ← (← j.field? "column").number?
  let endLine ← (← j.field? "end_line").number?
  let endColumn ← (← j.field? "end_column").number?
  some { line, column, endLine, endColumn }

def Span.region (s : Span) : Region :=
  ⟨s.start.line, s.start.column, s.stop.line, s.stop.column⟩

structure Record where
  level : Level
  code : Code
  message : String
  region? : Option Region
  context? : Option (List (String × String))
  deriving DecidableEq

def Record.ofJson? (j : Json) : Option Record := do
  let level ← Level.ofName? (← (← j.field? "level").text?)
  let code ← (← j.field? "code").text?
  let message ← (← j.field? "message").text?
  let region? ← j.optional "span" Region.ofJson?
  let context? ← j.optional "context" Json.texts?
  some { level, code := ⟨code⟩, message, region?, context? }

namespace Event

def record (e : Event) : Record where
  level := e.level
  code := e.code
  message := e.message
  region? := e.span.map (·.region)
  context? := if e.context.notes = [] then none else some e.context.notes

theorem optional_span (e : Event) (timestamp : String) :
    (e.json timestamp).optional "span" Region.ofJson? = some (e.span.map (·.region)) := by
  by_cases empty : e.context.notes = [] <;> cases spanned : e.span <;>
    simp [json, Json.optional, Json.field?, empty, spanned, List.lookup_cons, Region.ofJson?,
      Json.number?, Span.region]

theorem optional_context (e : Event) (timestamp : String) :
    (e.json timestamp).optional "context" Json.texts? =
      some (if e.context.notes = [] then none else some e.context.notes) := by
  by_cases empty : e.context.notes = [] <;> cases spanned : e.span <;>
    simp [json, Json.optional, Json.field?, empty, spanned, List.lookup_cons, Json.texts?_object]

theorem texts_json (e : Event) (timestamp : String) :
    (e.json timestamp).field? "level" = some (.string e.level.text) ∧
    (e.json timestamp).field? "code" = some (.string e.code.text) ∧
    (e.json timestamp).field? "message" = some (.string e.message) := by
  by_cases empty : e.context.notes = [] <;> simp [json, Json.field?, List.lookup_cons, empty]

theorem ofJson?_json (e : Event) (timestamp : String) :
    Record.ofJson? (e.json timestamp) = some e.record := by
  obtain ⟨level, code, message⟩ := e.texts_json timestamp
  simp [Record.ofJson?, level, code, message, optional_span, optional_context, Json.text?,
    Level.ofName?_text, record]

/-- The line of an event is a line, and to read it is to get back all that is told of the event. -/
theorem line_lossless (e : Event) (timestamp : String) :
    (∀ b ∈ (e.line timestamp).toUTF8.data, 0x20 ≤ b) ∧
    (∃ j, Json.read (e.line timestamp) = some j ∧ Record.ofJson? j = some e.record ∧
      (j.field? "span" = none ↔ e.span = none) ∧ (j.field? "context" = none ↔ e.context = {})) ∧
    ∀ (e' : Event) (timestamp' : String), e.line timestamp = e'.line timestamp' →
      e.level = e'.level ∧ e.code = e'.code ∧ e.message = e'.message ∧
      e.span.map (·.region) = e'.span.map (·.region) ∧ e.context = e'.context := by
  refine ⟨fun b => Json.le_of_mem_render, ⟨e.json timestamp, Json.read_render _,
    e.ofJson?_json timestamp, ?_, ?_⟩, fun e' timestamp' same => ?_⟩
  · rw [← Json.optional_eq_none "span" Region.ofJson?, optional_span]
    simp
  · rw [← Json.optional_eq_none "context" Json.texts?, optional_context, Context.ext_iff]
    simp
  · have values : e.json timestamp = e'.json timestamp' :=
      Option.some.inj <| (Json.read_render _).symm.trans <| (congrArg Json.read same).trans <|
        Json.read_render _
    have records : e.record = e'.record :=
      Option.some.inj <| (e.ofJson?_json timestamp).symm.trans <|
        (congrArg Record.ofJson? values).trans (e'.ofJson?_json timestamp')
    simp only [record, Record.mk.injEq] at records
    obtain ⟨level, code, message, region, context⟩ := records
    refine ⟨level, code, message, region, ?_⟩
    rw [Context.ext_iff]
    split at context <;> split at context <;> simp_all

def quoting : Event :=
  ((Event.error .undeclared "\",\n\"level\":").placed ⟨⟨7, 2, 3⟩, ⟨8, 2, 4⟩⟩).noting "a\tb" "\\"

def shifted : Event := quoting.placed ⟨⟨0, 2, 3⟩, ⟨0, 2, 4⟩⟩

theorem shifted_line :
    quoting.line "now" = shifted.line "now" ∧ quoting.span ≠ shifted.span ∧
      quoting.message = shifted.message ∧
      quoting.span.map (·.region) = shifted.span.map (·.region) := by
  have same : quoting.line "now" = shifted.line "now" := rfl
  obtain ⟨-, -, message, region, -⟩ := (quoting.line_lossless "now").2.2 shifted "now" same
  exact ⟨same, by decide, message, region⟩

end Event

end ScopeFrames
