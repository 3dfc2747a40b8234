import ScopeFrames.CommandLine
import ScopeFrames.Proofs.Stranding

namespace ScopeFrames

theorem Collector.update_own {f : FileEvents} {path : String} {g : FileEvents → FileEvents}
    (same : f.path = path) : update path g [f] = [g f] := by
  have order : FilePath.order path f.path = .eq :=
    FilePath.order_eq_eq.2 (congrArg FilePath.parts same.symm)
  simp only [update, order]

theorem Event.isProblem_stamped (e : Event) (current : Option FileContext) :
    (e.stamped current).isProblem = e.isProblem := by
  cases current <;> rfl

namespace Context

def ofFile (path key value : String) (later : compare "file_id" key = .lt) : Context where
  notes := [("file", path), ("file_id", "0"), (key, value)]
  inOrder := by
    have first : compare "file" "file_id" = .lt := by decide
    simp [first, later, Std.TransCmp.lt_trans first later]

theorem insert_file (path key value : String) (later : compare "file_id" key = .lt) :
    ((({} : Context).insert key value).insert "file" path).insert "file_id" (toString 0) =
      .ofFile path key value later := by
  have first : compare "file" "file_id" = .lt := by decide
  have after : compare "file_id" "file" = .gt := Std.OrientedCmp.gt_of_lt first
  apply Context.ext
  simp only [insert, put, Std.TransCmp.lt_trans first later, later, after]
  rfl

end Context

section

variable [Limits]

namespace FileEvents

def kept (es : List Event) : List Event :=
  if es.length ≤ Limits.eventsPerFile then es
  else es.take Limits.eventsPerFile ++ [.warning .eventsDropped overflowMessage]

variable {es : List Event} {e : Event} {path : String}

theorem kept_of_le (le : es.length ≤ Limits.eventsPerFile) : kept es = es := if_pos le

theorem kept_of_lt (lt : Limits.eventsPerFile < es.length) : kept es =
    es.take Limits.eventsPerFile ++ [.warning .eventsDropped overflowMessage] :=
  if_neg (Nat.not_le_of_lt lt)

theorem record_kept (path : String) (es : List Event) (e : Event) :
    record { path, events := (kept es).toArray } e =
      { path, events := (kept (es ++ [e])).toArray } := by
  have longer : (es ++ [e]).length = es.length + 1 := List.length_append
  rcases Nat.lt_trichotomy es.length Limits.eventsPerFile with room | full | past
  · rw [kept_of_le room.le, kept_of_le (longer ▸ room)]
    simp [record, room]
  · rw [kept_of_le full.le, kept_of_lt (by omega), ← full, List.take_left]
    simp [record, full]
  · rw [kept_of_lt past, kept_of_lt (by omega), List.take_append_of_le_length past.le]
    simp [record, past.le]

theorem foldl_record (path : String) (es : List Event) :
    es.foldl record { path } = { path, events := (kept es).toArray } := by
  induction es using List.reverseRecOn with
  | nil => rfl
  | append_singleton es e ih =>
    rw [List.foldl_append, ih, List.foldl_cons, List.foldl_nil, record_kept]

theorem path_record (f : FileEvents) (e : Event) : (f.record e).path = f.path := by
  unfold record
  split
  · rfl
  · split <;> rfl

end FileEvents

namespace Journal

variable {j : Journal} {file : FileContext} {f : FileEvents} {e : Event} {events : Array Event}

structure Gathers (j : Journal) (file : FileContext) (f : FileEvents) : Prop where
  current : j.current = some file
  files : j.collector.files = [f]
  path : f.path = file.path

theorem Gathers.emit (gathers : j.Gathers file f) (e : Event) : (j.emit e).Gathers file
    (if e.isProblem then f.record (e.stamped (some file)) else f) := by
  obtain ⟨current, files, path⟩ := gathers
  have collected : (j.emit e).collector.files =
      if (e.stamped (some file)).isProblem then
        Collector.update file.path (·.record (e.stamped (some file))) [f]
      else [f] := by
    simp only [Journal.emit, collect, current, Collector.record, apply_ite Collector.files, files]
    rfl
  refine ⟨current, ?_, ?_⟩
  · rw [collected, Event.isProblem_stamped, Collector.update_own path]
    split <;> rfl
  · split
    · exact (FileEvents.path_record f _).trans path
    · exact path

theorem Gathers.emitAll (gathers : j.Gathers file f) (events : Array Event) :
    (j.emitAll events).Gathers file
      (((events.toList.filter Event.isProblem).map (·.stamped (some file))).foldl .record f) := by
  rw [Journal.emitAll, ← Array.foldl_toList]
  induction events.toList generalizing j f with
  | nil => exact gathers
  | cons e events ih =>
    rw [List.foldl_cons, List.filter_cons]
    have next := gathers.emit e
    split
    · next problem =>
      rw [if_pos problem] at next
      exact ih next
    · next ordinary =>
      rw [if_neg ordinary] at next
      exact ih next

end Journal

def Diagnostic.gathered (d : Diagnostic) (path : String) : Event where
  level := if d.isError then .error else .warning
  code := d.code
  message := Event.clip d.message
  span := some d.span
  context := .ofFile path "scope_level" (dash (d.level.map toString)) (by decide)

/-- What is gathered of the scope of a block that was begun where nothing was open. -/
def strandedBlock (path : String) : Event where
  level := .error
  code := .emptyStack
  message := Event.clip "Failed to discard unclosable scope"
  context := .ofFile path "owner" "Some(Block)" (by decide)

theorem Diagnostic.stamped_event (d : Diagnostic) (path : String) :
    d.event.stamped (some ⟨path, 0⟩) = d.gathered path := by
  have noted :=
    Context.insert_file path "scope_level" (dash (d.level.map toString)) (by decide)
  rw [gathered, ← noted]
  cases error : d.isError <;> simp only [event, error] <;> rfl

theorem stamped_complaint (path : String) :
    Opened.block.complaint.stamped (some ⟨path, 0⟩) = strandedBlock path := by
  have noted := Context.insert_file path "owner" s!"Some({Opened.block.text})" (by decide)
  exact congrArg (Event.mk .error .emptyStack (Event.clip _) none) noted

theorem Diagnostic.isError_gathered (d : Diagnostic) (path : String) :
    (d.gathered path).isError = d.isError := by
  cases error : d.isError <;> simp [Event.isError, gathered, error]

theorem Diagnostic.isWarning_gathered (d : Diagnostic) (path : String) :
    (d.gathered path).isWarning = !d.isError := by
  cases error : d.isError <;> simp [Event.isWarning, gathered, error]

theorem Report.counts_gathered (r : Report) (path : String) :
    let f : FileEvents := { path, events := (r.diagnostics.map (·.gathered path)).toArray }
    f.errors.length = r.errorCount ∧ f.warnings.length = r.warningCount := by
  have all : r.diagnostics.length =
      r.diagnostics.countP (·.isError) + r.diagnostics.countP (!·.isError) := by
    simpa using List.length_eq_countP_add_countP Diagnostic.isError (l := r.diagnostics)
  constructor
  · simp only [FileEvents.errors, ← List.countP_eq_length_filter, List.countP_map,
      Function.comp_def, Diagnostic.isError_gathered, errorCount]
  · simp only [FileEvents.warnings, ← List.countP_eq_length_filter, List.countP_map,
      Function.comp_def, Diagnostic.isWarning_gathered, warningCount, errorCount]
    omega

namespace CommandLine

variable {path : String} {file : Option FileContent} {config : Config} {j : Journal} {t : Trace}

theorem files_replayFile (fresh : j.collector = {}) (loaded : Trace.ofFile path file = .ok t) :
    let events := (t.run config.layout config.analysis).analysis.problems
    (replayFile path file config j).2.collector.files =
      [{ path
         events := (FileEvents.kept (events.map (·.stamped (some ⟨path, 0⟩)))).toArray }] := by
  intro events
  have gathers : Journal.Gathers
      { j with current := some ⟨path, 0⟩, collector := j.collector.mention path } ⟨path, 0⟩
      { path } :=
    ⟨rfl, by simp [fresh, Collector.mention, Collector.update], rfl⟩
  have read := gathers.emitAll (Trace.fileEvents path file (.ok t))
  have ordinary : (Trace.fileEvents path file (.ok t)).toList.filter Event.isProblem = [] := rfl
  rw [ordinary] at read
  have replayed := (read.emitAll (t.run config.layout config.analysis).analysis.events).emit
    ((Replay.of t (t.run config.layout config.analysis)).milestone t)
  have ends : ((Replay.of t (t.run config.layout config.analysis)).milestone t).isProblem = false :=
    rfl
  have files := replayed.files
  rw [if_neg (Bool.eq_false_iff.1 ends), List.map_nil, List.foldl_nil,
    FileEvents.foldl_record] at files
  simp only [replayFile, Journal.within, loaded]
  exact files

/-- What is gathered under the file of a trace that could be read: the event of each diagnostic of
the report, in their order, and then one more exactly if the replay ends with a stranded block.  As
long as there is room and no block is stranded, the totals are those of the report. -/
theorem replayFile_gathers (fresh : j.collector = {}) (loaded : Trace.ofFile path file = .ok t) :
    let run := t.run config.layout config.analysis
    let report := (t.replay config.layout config.analysis).report
    let done := replayFile path file config j
    let stranded := t.Stranded config.layout config.analysis
    done.1 = .ok (t, run) ∧
    (∃ alone, done.2.collector.files = [{ path, events := (FileEvents.kept
        (report.diagnostics.map (·.gathered path) ++ alone)).toArray }] ∧
      (alone = [] ∧ ¬ stranded ∨ alone = [strandedBlock path] ∧ stranded)) ∧
    (report.diagnostics.length ≤ Limits.eventsPerFile → ¬ stranded →
      done.2.collector.totals.errors = report.errorCount ∧
        done.2.collector.totals.warnings = report.warningCount) := by
  intro run report done stranded
  have files : done.2.collector.files = _ := files_replayFile fresh loaded
  obtain ⟨alone, problems, ends⟩ := t.problems_run config.layout config.analysis
  have gathered : (run.analysis.problems.map (·.stamped (some ⟨path, 0⟩))) =
      report.diagnostics.map (·.gathered path) ++ alone.map (·.stamped (some ⟨path, 0⟩)) := by
    rw [problems, List.map_append, List.map_map]
    exact congrArg (· ++ _) (List.map_congr_left fun d _ => d.stamped_event path)
  rw [gathered] at files
  refine ⟨?_, ⟨_, files, ?_⟩, fun few free => ?_⟩
  · simp only [done, replayFile, Journal.within, loaded]
    rfl
  · rcases ends with ⟨rfl, free⟩ | ⟨rfl, ends⟩
    · exact .inl ⟨rfl, free⟩
    · exact .inr ⟨by rw [List.map_singleton, stamped_complaint], ends⟩
  · obtain ⟨rfl, -⟩ : alone = [] ∧ _ := ends.resolve_right fun ends => free ends.2
    rw [List.map_nil, List.append_nil, FileEvents.kept_of_le (by rwa [List.length_map])] at files
    obtain ⟨errors, warnings⟩ := report.counts_gathered path
    simp only [Collector.totals, files, List.foldl_cons, List.foldl_nil, Nat.zero_add]
    exact ⟨errors, warnings⟩

end CommandLine

end

namespace CommandLine

def bareBlock : Trace where
  steps := [{ kind := .block }, { kind := .close }]

def bareBlockFile : FileContent where
  size := 47
  text := .ok "[[step]]\nkind = \"block\"\n\n[[step]]\nkind = \"end\"\n"

def bareReference : Trace where
  steps := [{ kind := .resolve, name? := some "x" }]

def bareReferenceFile : FileContent where
  size := 37
  text := .ok "[[step]]\nkind = \"resolve\"\nname = \"x\"\n"

theorem bareBlock_gathers :
    let j : Journal := { sink := ⟨none, .error⟩ }
    let path := "bare.toml"
    let unclosed := Diagnostic.refused (.emptyStack "exit a nested scope" 1) .dummy (some 0)
    Trace.ofFile path (some bareBlockFile) = .ok bareBlock ∧ bareBlock.Stranded {} {} ∧
      (replayFile path (some bareBlockFile) {} j).2.collector.files =
        [{ path, events := #[unclosed.gathered path, strandedBlock path] }] ∧
      Trace.ofFile path (some bareReferenceFile) = .ok bareReference ∧
      ¬ bareReference.Stranded {} {} ∧
      (replayFile path (some bareReferenceFile) {} j).2.collector.totals.errors = 1 := by
  intro j path unclosed
  have loaded : Trace.ofFile path (some bareBlockFile) = .ok bareBlock := rfl
  have stranded : bareBlock.Stranded {} {} := by
    refine ⟨0, 1, by decide +kernel, ⟨Nat.zero_lt_one, ⟨_, rfl, rfl⟩, fun k later le => ?_, ?_⟩,
      ⟨_, rfl, rfl⟩, rfl⟩
    · obtain rfl : k = 1 := Nat.le_antisymm le later
      decide +kernel
    · decide +kernel
  have reported :
      (bareBlock.replay ({} : Config).layout ({} : Config).analysis).report.diagnostics =
        [unclosed] := by
    decide +kernel
  obtain ⟨-, ⟨alone, files, ends⟩, -⟩ := @replayFile_gathers _ _ _ {} j _ rfl loaded
  obtain ⟨rfl, -⟩ := ends.resolve_left fun free => free.2 stranded
  have kept : FileEvents.kept [unclosed.gathered path, strandedBlock path] = _ :=
    FileEvents.kept_of_le (by decide)
  have loaded' : Trace.ofFile path (some bareReferenceFile) = .ok bareReference := rfl
  have free : ¬ bareReference.Stranded {} {} := by
    rintro ⟨first, last, executed, ends, -⟩
    have ran : (bareReference.run {} {}).executed = 1 := by decide +kernel
    obtain rfl : last = 0 := Nat.succ.inj (executed.symm.trans ran)
    exact Nat.not_lt_zero first ends.later
  have totals := (@replayFile_gathers _ _ _ {} j _ rfl loaded').2.2 (by decide +kernel) free
  refine ⟨loaded, stranded, files.trans ?_, loaded', free, totals.1⟩
  rw [reported, List.map_singleton, List.singleton_append, kept]

end CommandLine

end ScopeFrames
