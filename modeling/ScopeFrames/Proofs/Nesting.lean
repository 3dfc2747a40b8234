import ScopeFrames.Proofs.Filing

namespace ScopeFrames

structure Event.Bears (stamped e : Event) (file : FileContext) : Prop where
  path : stamped.context.find? "file" = some file.path
  id : stamped.context.find? "file_id" = some (toString file.id)
  notes : ∀ key, key ≠ "file" → key ≠ "file_id" →
    stamped.context.find? key = e.context.find? key
  rest : { stamped with context := e.context } = e

theorem Event.bears_stamped (e : Event) (file : FileContext) :
    (e.stamped (some file)).Bears e file where
  path := by
    rw [stamped, noting, Context.find?_insert_of_ne _ _ (by decide)]
    exact Context.find?_insert _ _ _
  id := Context.find?_insert _ _ _
  notes key path id := by
    rw [stamped, noting, Context.find?_insert_of_ne _ _ id]
    exact Context.find?_insert_of_ne _ _ path
  rest := rfl

inductive Happening : Type
  | look
  | tell (e : Event)
  | begun
  | ended

/-- A moment of the visits, with the files whose visits are around it, innermost first. -/
structure Moment where
  happening : Happening
  around : List FileContext

namespace Moment

variable (start : Option FileContext)

def file? (m : Moment) : Option FileContext := m.around.head?.or start

def told? (m : Moment) : Option Event :=
  match m.happening with
  | .tell e => some (e.stamped (m.file? start))
  | _ => none

def filed? (key : List FilePath.Part) (m : Moment) : Option Event :=
  if (m.file? start).any (FilePath.parts ·.path = key) then
    (m.told? start).filter Event.isProblem
  else none

def recording? (m : Moment) : Option Recording :=
  match m.happening, m.file? start with
  | .begun, some file => some (.mention file.path)
  | .tell e, some file =>
    if e.isProblem then some (.record file.path (e.stamped (some file))) else none
  | _, _ => none

end Moment

namespace Visit

mutual

def moments (around : List FileContext) : Visit → List Moment
  | .look => [⟨.look, around⟩]
  | .tell e => [⟨.tell e, around⟩]
  | .file context inside => ⟨.begun, context :: around⟩ :: momentsEach (context :: around) inside

def momentsEach (around : List FileContext) : List Visit → List Moment
  | [] => []
  | v :: rest => v.moments around ++ ⟨.ended, around⟩ :: momentsEach around rest

end

end Visit

mutual

def Sightings.files : Sightings → List (Option FileContext)
  | .seen first visits => first :: Sightings.filesEach visits

def Sightings.filesEach : List (Sightings × Option FileContext) → List (Option FileContext)
  | [] => []
  | (within, after) :: rest => within.files ++ after :: Sightings.filesEach rest

end

namespace Recording

variable {start : Option FileContext} {key : List FilePath.Part}

theorem events_append (rs rs' : List Recording) :
    events (rs ++ rs') key = events rs key ++ events rs' key := by
  simp [events]

theorem filed?_eq (m : Moment) : m.filed? start key = (m.recording? start).bind fun r =>
    if FilePath.parts r.path = key then r.event? else none := by
  obtain ⟨happening, around⟩ := m
  cases working : Moment.file? start ⟨happening, around⟩ with
  | none => cases happening <;> simp [Moment.recording?, Moment.filed?, working]
  | some file =>
    cases happening with
    | look | begun | ended =>
      simp [Moment.recording?, Moment.filed?, Moment.told?, working, event?]
    | tell e =>
      have same := e.isProblem_stamped (some file)
      by_cases here : FilePath.parts file.path = key <;> cases problem : e.isProblem <;>
        simp [Moment.recording?, Moment.filed?, Moment.told?, working, path, event?, problem,
          same, here]

theorem events_moments (ms : List Moment) :
    events (ms.filterMap (·.recording? start)) key = ms.filterMap (·.filed? start key) := by
  simp only [events, List.filterMap_filter, List.filterMap_filterMap, filed?_eq, decide_eq_true_eq]

end Recording

section

variable [Limits]

theorem Collector.after_append (c : Collector) (rs rs' : List Recording) :
    c.after (rs ++ rs') = (c.after rs).after rs' :=
  List.foldl_append

def Journal.heard? (j : Journal) (e : Event) : Option Recording :=
  if e.isProblem then j.current.map fun file => .record file.path (e.stamped (some file)) else none

theorem Journal.collector_emit (j : Journal) (e : Event) :
    (j.emit e).collector = j.collector.after (j.heard? e).toList := by
  have stamped := e.isProblem_stamped j.current
  rw [Event.isProblem] at stamped
  cases working : j.current with
  | none => simp [emit, collect, heard?, working, Collector.after]
  | some file =>
    rw [working] at stamped
    cases problem : e.isProblem <;>
      simp [emit, collect, heard?, working, stamped, problem, Collector.after, Collector.apply]

namespace Visit

open Journal

/-- What was seen and done at the moments, if the innermost file was at work at each. -/
structure Tracks (start : Option FileContext) (j : Journal) (ms : List Moment)
    (seen : List (Option FileContext)) (j' : Journal) : Prop where
  seen : seen = ms.map (·.file? start)
  current : j'.current = j.current
  sink : j'.sink = j.sink
  written : j'.written.toList =
    j.written.toList ++ (ms.filterMap (·.told? start)).filter j.sink.passes
  collector : j'.collector = j.collector.after (ms.filterMap (·.recording? start))

variable {start : Option FileContext} {j j' j'' : Journal} {ms ms' : List Moment}
  {seen seen' : List (Option FileContext)} {around : List FileContext}

theorem Tracks.append (first : Tracks start j ms seen j')
    (rest : Tracks start j' ms' seen' j'') : Tracks start j (ms ++ ms') (seen ++ seen') j'' where
  seen := by rw [List.map_append, ← first.seen, ← rest.seen]
  current := rest.current.trans first.current
  sink := rest.sink.trans first.sink
  written := by
    rw [List.filterMap_append, List.filter_append, ← List.append_assoc, ← first.written,
      ← first.sink]
    exact rest.written
  collector := by
    rw [List.filterMap_append, Collector.after_append, ← first.collector]
    exact rest.collector

def At (start : Option FileContext) (around : List FileContext) (j : Journal) : Prop :=
  j.current = around.head?.or start

theorem tracks_idle (at_ : At start around j) {h : Happening} (idle : h = .look ∨ h = .ended) :
    Tracks start j [⟨h, around⟩] [j.current] j where
  seen := congrArg ([·]) at_
  current := rfl
  sink := rfl
  written := by rcases idle with rfl | rfl <;> exact (List.append_nil _).symm
  collector := by rcases idle with rfl | rfl <;> rfl

theorem tracks_tell (at_ : At start around j) (e : Event) :
    Tracks start j [⟨.tell e, around⟩] [j.current] (j.emit e) where
  seen := congrArg ([·]) at_
  current := rfl
  sink := rfl
  written := by
    have told : Moment.told? start ⟨.tell e, around⟩ = some (e.stamped j.current) :=
      congrArg (some <| e.stamped ·) at_.symm
    rw [List.filterMap_cons_some told, List.filterMap_nil]
    by_cases passes : j.sink.passes (e.stamped j.current) = true <;> simp [Journal.emit, passes]
  collector := by
    have recorded : Moment.recording? start ⟨.tell e, around⟩ = j.heard? e := by
      rw [heard?, show j.current = _ from at_, Moment.recording?, Moment.file?]
      cases around.head?.or start <;> simp
    rw [collector_emit]
    cases heard : j.heard? e <;> simp [recorded, heard]

theorem tracks_file {file : FileContext}
    (within : Tracks start
      { j with current := some file, collector := j.collector.mention file.path } ms seen j') :
    Tracks start j (⟨.begun, file :: around⟩ :: ms) (some file :: seen)
      { j' with current := j.current } where
  seen := by
    rw [List.map_cons, ← within.seen]
    rfl
  current := rfl
  sink := within.sink
  written := by
    have opening : Moment.told? start ⟨.begun, file :: around⟩ = none := rfl
    simpa [opening] using within.written
  collector := by
    have opening : Moment.recording? start ⟨.begun, file :: around⟩ = some (.mention file.path) :=
      rfl
    simpa [opening, Collector.after, Collector.apply] using within.collector

mutual

theorem tracks_observe : (v : Visit) → (j : Journal) → (around : List FileContext) →
    At start around j → Tracks start j (v.moments around) (v.observe j).1.files (v.observe j).2
  | .look, _, _, at_ => tracks_idle at_ (.inl rfl)
  | .tell e, _, _, at_ => tracks_tell at_ e
  | .file context inside, j, around, at_ => by
    -- Within its visit the file is the innermost one, whatever is around it.
    have within := tracks_observeEach inside
      { j with current := some context, collector := j.collector.mention context.path }
      (context :: around) rfl
    exact tracks_file within

theorem tracks_observeEach : (vs : List Visit) → (j : Journal) → (around : List FileContext) →
    At start around j → Tracks start j (momentsEach around vs)
      (Sightings.filesEach (observeEach j vs).1) (observeEach j vs).2
  | [], _, _, _ => ⟨rfl, rfl, rfl, (List.append_nil _).symm, rfl⟩
  | v :: vs, j, around, at_ => by
    have first := tracks_observe v j around at_
    have back : At start around (v.observe j).2 := first.current.trans at_
    exact first.append
      ((tracks_idle back (.inr rfl)).append (tracks_observeEach vs (v.observe j).2 around back))

end

/-- Whatever is visited, whatever file was at work before and whatever the collector heard before:
at each moment the file at work is that of the innermost visit around it, after a visit it is what
it was before, and each event is written with that file noted in it and, if it tells of a problem,
stored under it. -/
theorem observeEach_nests (sink : Sink) (start : Option FileContext) (rs : List Recording)
    (written : Array Event) (visits : List Visit) :
    let before : Journal :=
      { sink, current := start, collector := ({} : Collector).after rs, written }
    let moments := momentsEach [] visits
    let after := (observeEach before visits).2
    (observeAll before visits).files = start :: moments.map (·.file? start) ∧
    after.current = start ∧
    after.written.toList =
      written.toList ++ (moments.filterMap (·.told? start)).filter sink.passes ∧
    (∀ key, after.collector.file? key =
      (Recording.spelling? (rs ++ moments.filterMap (·.recording? start)) key).map ({
        path := ·
        events := (FileEvents.kept
          (Recording.events rs key ++ moments.filterMap (·.filed? start key))).toArray })) ∧
    ∀ e file, (Event.stamped e (some file)).Bears e file := by
  intro before moments after
  have tracks : Tracks start before moments _ after := tracks_observeEach visits before [] rfl
  refine ⟨congrArg (start :: ·) tracks.seen, tracks.current, tracks.written, fun key => ?_,
    Event.bears_stamped⟩
  rw [tracks.collector, ← Collector.after_append, (Collector.holds_after _).stored,
    Recording.events_append, Recording.events_moments]

end Visit

end

example : (Visit.observeAll { sink := ⟨none, .error⟩ }
    [.file ⟨"outer.toml", 1⟩ [.file ⟨"inner.toml", 2⟩ [.look], .look], .look]).files =
      [none, some ⟨"outer.toml", 1⟩, some ⟨"inner.toml", 2⟩, some ⟨"inner.toml", 2⟩,
        some ⟨"inner.toml", 2⟩, some ⟨"outer.toml", 1⟩, some ⟨"outer.toml", 1⟩,
        some ⟨"outer.toml", 1⟩, none, none, none] := by
  decide +kernel

end ScopeFrames
