import ScopeFrames.Proofs.WriteOnce

namespace ScopeFrames

def Entry.unlaid (e : Entry) : Entry := { e with offset := none, frameSize := none }

namespace Scope

variable {s : Scope} {α : Type} {f : Entry → α} {size : Int64} {owner : Option String}
  {name : String} {offsets : List Int64} {es : List Entry}

theorem map_sized (blind : ∀ e size, f { e with frameSize := size } = f e) :
    (s.sized size owner).entries.toList.map f = s.entries.toList.map f := by
  cases owner with
  | none => rfl
  | some name =>
    simp only [sized, update, Array.toList_map, List.map_map]
    apply List.map_congr_left
    intro e _
    rw [Function.comp_apply]
    split
    · exact blind e _
    · rfl

theorem map_zipWith_withOffset (enough : offsets.length = es.length)
    (blind : ∀ e offset, f (e.withOffset offset) = f e) :
    (es.zipWith Entry.withOffset offsets).map f = es.map f := by
  induction es generalizing offsets with
  | nil => rfl
  | cons e es ih =>
    obtain ⟨offset, offsets, rfl⟩ := List.exists_cons_of_length_eq_add_one enough
    simp [blind, ih (by simpa using enough)]

theorem offsets_zipWith_withOffset (enough : offsets.length = es.length) :
    (es.zipWith Entry.withOffset offsets).map (fun e => (e.name, e.offset)) =
      ((es.map (·.name)).zip offsets).map fun (name, offset) => (name, some offset) := by
  induction es generalizing offsets with
  | nil => rfl
  | cons e es ih =>
    obtain ⟨offset, offsets, rfl⟩ := List.exists_cons_of_length_eq_add_one enough
    simp [Entry.withOffset, ih (by simpa using enough)]

theorem programEntry?_placed (enough : offsets.length = s.size) :
    (Scope.programEntry? (s.placed offsets)).map (·.name) = s.programEntry?.map (·.name) := by
  have enough : offsets.length = s.entries.toList.length := by simpa [Scope.size] using enough
  rw [Scope.programEntry?, Scope.programEntry?, ← Array.find?_toList, ← Array.find?_toList]
  exact find?_zipWith_withOffset enough (fun _ _ => rfl) fun _ _ => rfl

theorem programEntry?_sized (owned : s.programEntry?.map (·.name) = owner) :
    ∀ e ∈ Scope.programEntry? (s.sized size owner), e.frameSize = some size := by
  intro e first
  cases owner with
  | none => simp [sized, Option.map_eq_none_iff.1 owned] at first
  | some name =>
    have kind : ∀ e : Entry,
        (if e.name = name then { e with frameSize := some size } else e).category = e.category := by
      intro e
      split <;> rfl
    simp only [Option.mem_def, programEntry?, sized, update, Array.find?_map, Function.comp_def,
      kind] at first
    rw [Scope.programEntry?] at owned
    obtain ⟨e', first', rfl⟩ := Option.map_eq_some_iff.1 owned
    rw [first', Option.map_some, if_pos rfl] at first
    cases first
    rfl

end Scope

structure Scope.Concludes (program : Scope) (frame : Layout) (scope : ClosedScope) : Prop where
  id_eq : scope.id = program.id
  level_eq : scope.level = program.level
  owner_eq : scope.owner = program.programEntry?.map (·.name)
  frameSize_eq : scope.frameSize = frame.frameSize
  offsets : scope.entries.map (fun e => (e.name, e.offset)) =
    frame.offsets.map fun (name, offset) => (name, some offset)
  program_frame : ∀ e ∈ scope.entries.find? (·.category = .program),
    e.frameSize = some frame.frameSize
  entries : scope.entries.map Entry.unlaid = program.entries.toList.map Entry.unlaid

namespace Table

section

variable [Limits] {t t' : Table} {program : Scope} {scope : ClosedScope}

theorem Formed.finish_ok_iff (formed : t.Formed) (alone : t.scopes = [program]) :
    (∃ scope, t.finish.1 = .ok scope) ↔
      (∃ frame, t.preview? = some (.ok frame)) ∧
        ∀ e ∈ program.programEntry?, e.frameSize = none := by
  rw [preview?_eq alone]
  cases laid : t.policy.layout program.entries.toList with
  | error err => simp [finish_eq_error alone laid]
  | ok frame =>
    by_cases unsized : ∀ e ∈ program.programEntry?, e.frameSize = none
    · obtain ⟨offsets, stop, lays, -⟩ := Policy.layout_eq_ok.1 laid
      simpa [finish_eq_ok formed alone lays unsized] using unsized
    · simp only [unsized, and_false, iff_false]
      push Not at unsized
      obtain ⟨e, first, sized⟩ := unsized
      simp [finish_sized alone laid first (Option.isSome_iff_ne_none.2 sized)]

theorem Step.concludes (step : t.Step .finish (.closed scope) t') (alone : t.scopes = [program]) :
    ∃ frame, t.preview? = some (.ok frame) ∧ program.Concludes frame scope ∧ t'.scopes = [] := by
  cases step with
  | @finished top offsets stop scopes lays unsized =>
    obtain rfl : top = program := (List.cons.inj (scopes.symm.trans alone)).1
    have enough := lays.length_eq
    refine ⟨⟨(top.entries.toList.map (·.name)).zip offsets, stop⟩, ?_, ?_, rfl⟩
    · rw [preview?_eq alone, Policy.layout_eq_ok.2 ⟨offsets, stop, lays, rfl⟩]
    · refine ⟨Scope.sized_id, Scope.sized_level, rfl, rfl, ?_, fun e first => ?_, ?_⟩
      · refine (Scope.map_sized fun _ _ => rfl).trans ?_
        simpa [Scope.placed] using Scope.offsets_zipWith_withOffset enough
      · refine Scope.programEntry?_sized (Scope.programEntry?_placed (Scope.lays_length lays)) e ?_
        simpa [ClosedScope.ofScope, Scope.programEntry?] using first
      · refine (Scope.map_sized fun _ _ => rfl).trans ?_
        simpa [Scope.placed] using Scope.map_zipWith_withOffset enough fun _ _ => rfl

theorem WritesOnce.sized_iff {e : Entry} {deeds : List Deed} (formed : t.Formed)
    (writes : t.WritesOnce ⟨program.id, e.name⟩ deeds) (alone : t.scopes = [program])
    (member : e ∈ program.entries) : e.frameSize ≠ none ↔
      (∃ scope, .closed scope ∈ deeds) ∨ ∃ brought, .declared brought ∈ deeds ∧
        brought.frameSize ≠ none := by
  have nested := formed.nested
  rw [alone] at nested
  have found := (Scope.find?_eq_some nested.1.room.distinct).2 ⟨member, rfl⟩
  have history := writes.live program (by simp [alone]) rfl
  rw [found, Option.map_some, Entry.frame] at history
  exact history.sized_iff

/-- After any run that leaves only the program's scope: it can be closed exactly if it can be laid
out and its first program has no frame size yet, and then takes its places from that layout. -/
theorem finish_after (policy : Policy) (ops : List Operation)
    (alone : (({ policy } : Table).after ops).scopes = [program]) :
    let start : Table := { policy }
    let t := start.after ops
    ((∃ scope, t.finish.1 = .ok scope) ↔
        (∃ frame, t.preview? = some (.ok frame)) ∧
          ∀ e ∈ program.programEntry?, e.frameSize = none) ∧
      (∀ scope, t.finish.1 = .ok scope → ∃ frame, t.preview? = some (.ok frame) ∧
        program.Concludes frame scope ∧ t.finish.2.isEmpty = true) ∧
      ∀ e ∈ program.programEntry?, e.frameSize ≠ none ↔
        (∃ scope, .closed scope ∈ start.deeds ⟨program.id, e.name⟩ ops) ∨
          ∃ brought, .declared brought ∈ start.deeds ⟨program.id, e.name⟩ ops ∧
            brought.frameSize ≠ none := by
  intro start t
  have formed : t.Formed := formed_after policy ops
  refine ⟨formed.finish_ok_iff alone, fun scope done => ?_, fun e first => ?_⟩
  · have step : t.Step .finish (.closed scope) t.finish.2 := formed.step_finish (Prod.ext done rfl)
    obtain ⟨frame, preview, concludes, empty⟩ := step.concludes alone
    exact ⟨frame, preview, concludes, by simpa [isEmpty] using empty⟩
  · have ledger := (formed_empty policy).ledger_after
      (ledger_empty policy ⟨program.id, e.name⟩) ops
    rw [List.nil_append] at ledger
    exact (formed.writesOnce ledger).sized_iff formed alone (Array.mem_of_find?_eq_some first)

end

def droppedThenClosed : List Operation :=
  [ .enter, .declare (.simple "x" .int), .declare (.program "m"), .declare (.procedure "p"),
    .enterProcedure "p", .declare (.array "a" .char none), .exit, .abandon, .enterProcedure "p",
    .declare (.simple "m" .boolean), .finish, .exit ]

theorem droppedThenClosed_finish :
    let t := ({ policy := {} } : Table).after droppedThenClosed
    ∃ program scope, t.scopes = [program] ∧ t.finish.1 = .ok scope ∧
      ∃ frame, t.preview? = some (.ok frame) ∧ program.Concludes frame scope := by
  intro t
  have one : t.scopes.length = 1 := by decide +kernel
  have unsized : ∀ s ∈ t.scopes, ∀ e ∈ s.programEntry?, e.frameSize = none := by decide +kernel
  have preview : t.preview? = some (.ok ⟨[("x", 0), ("m", 1), ("p", 1)], 1⟩) := by decide +kernel
  obtain ⟨program, alone⟩ := List.length_eq_one_iff.1 one
  obtain ⟨closes, closed, -⟩ := finish_after {} droppedThenClosed alone
  obtain ⟨scope, done⟩ := closes.2 ⟨⟨_, preview⟩, unsized program (by simp [alone])⟩
  obtain ⟨frame, laid, concludes, -⟩ := closed scope done
  exact ⟨program, scope, alone, done, frame, laid, concludes⟩

def claimed : List Operation :=
  [.enter, .declare (.program "m"), .enterProcedure "m", .exit]

/-- The program's scope can be laid out and cannot be closed. -/
theorem not_finish_claimed :
    let t := ({ policy := {} } : Table).after claimed
    t.depth = 1 ∧ (∃ frame, t.preview? = some (.ok frame)) ∧ ¬ ∃ scope, t.finish.1 = .ok scope := by
  intro t
  have preview : t.preview? = some (.ok ⟨[("m", 0)], 0⟩) := by decide +kernel
  have refused : t.finish.1 =
      .error (.invalidScopeOwner "m" "owner entry cannot take a frame size") := by
    decide +kernel
  refine ⟨by decide +kernel, ⟨_, preview⟩, ?_⟩
  rintro ⟨scope, done⟩
  cases refused.symm.trans done

end Table

end ScopeFrames
