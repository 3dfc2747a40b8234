import ScopeFrames.Proofs.Operation

namespace ScopeFrames

namespace Scope

variable {s : Scope} {owner : Option String} {size : Int64}

@[simp] theorem sized_id : (s.sized size owner).id = s.id := by cases owner <;> rfl
@[simp] theorem sized_level : (s.sized size owner).level = s.level := by cases owner <;> rfl
@[simp] theorem sized_owner : (s.sized size owner).owner = s.owner := by cases owner <;> rfl

theorem setOwnerFrame_eq_ok (distinct : s.names.Nodup) (awaits : ∀ name ∈ owner, s.Awaits name) :
    s.setOwnerFrame size owner = .ok (s.sized size owner) := by
  cases owner with
  | none => rfl
  | some name =>
    obtain ⟨e, member, same, owns, unsized⟩ := awaits name rfl
    exact setFrameSize_eq_ok distinct ((find?_eq_some distinct).2 ⟨member, same⟩) owns unsized size

theorem lays_length {p : Policy} {start stop : Int64} {offsets : List Int64}
    (lays : p.Lays start s.entries.toList offsets stop) : offsets.length = s.size := by
  simpa [Scope.size] using lays.length_eq

theorem setOffsets_layout {p : Policy} {frame : Layout} (distinct : s.names.Nodup)
    (laid : p.layout s.entries.toList = .ok frame) :
    ∃ offsets, p.Lays p.baseOffset s.entries.toList offsets frame.frameSize ∧
      s.setOffsets frame.offsets = .ok (s.placed offsets) := by
  obtain ⟨offsets, stop, lays, rfl⟩ := Policy.layout_eq_ok.1 laid
  exact ⟨offsets, lays, setOffsets_eq_ok distinct (lays_length lays)⟩

theorem frameRefusal?_eq_none (distinct : s.names.Nodup) (awaits : ∀ name ∈ owner, s.Awaits name) :
    s.frameRefusal? owner = none := by
  cases owner with
  | none => rfl
  | some name =>
    obtain ⟨e, member, same, -, unsized⟩ := awaits name rfl
    simp [frameRefusal?, (find?_eq_some distinct).2 ⟨member, same⟩, unsized]

theorem placed_awaits {offsets : List Int64} {e : Entry} (enough : offsets.length = s.size)
    (member : e ∈ s.entries) (owns : e.category.ownsFrame = true) (unsized : e.frameSize = none) :
    (s.placed offsets).Awaits e.name := by
  obtain ⟨i, bound, rfl⟩ := Array.mem_iff_getElem.1 member
  have inside : i < offsets.length := by rw [enough]; exact bound
  refine ⟨s.entries[i].withOffset offsets[i], ?_, rfl, owns, unsized⟩
  simp only [Scope.placed, List.mem_toArray, List.mem_iff_getElem]
  exact ⟨i, by simpa using Nat.lt_min.2 ⟨bound, inside⟩, by simp⟩

theorem program_awaits {offsets : List Int64} (enough : offsets.length = s.size)
    (ready : s.programEntry?.filter (·.frameSize.isSome) = none) :
    ∀ name ∈ s.programEntry?.map (·.name), (s.placed offsets).Awaits name := by
  intro name named
  obtain ⟨e, first, rfl⟩ := Option.map_eq_some_iff.1 named
  have program : e.category = .program := by simpa using Array.find?_some first
  refine placed_awaits enough (Array.mem_of_find?_eq_some first) (by rw [program]; rfl) ?_
  simpa [first] using ready

end Scope

variable [Limits]

structure Scope.Formed (s : Scope) (level : Nat) : Prop where
  level_eq : s.level = level
  room : Room s.names
  levelled : ∀ e ∈ s.entries, e.level = some level
  labelled : ∀ e ∈ s.entries, e.category.ownsFrame = true → e.label.isSome = true

namespace Scope

variable {s : Scope} {level : Nat} {owner : Option String} {e : Entry} {size : Int64}

theorem formed_empty (id : ScopeId) (owner : Option String) (level : Nat) :
    Formed { id, level, owner } level where
  level_eq := rfl
  room := room_nil
  levelled := by simp
  labelled := by simp

theorem Formed.extended (formed : s.Formed level) (room : Room (s.names ++ [e.name]))
    (levelled : e.level = some level)
    (labelled : e.category.ownsFrame = true → e.label.isSome = true) :
    (s.extended [e]).Formed level where
  level_eq := formed.level_eq
  room := by simpa using room
  levelled := by
    intro a member
    rcases mem_extended.1 member with old | new
    · exact formed.levelled a old
    · rwa [List.mem_singleton.1 new]
  labelled := by
    intro a member
    rcases mem_extended.1 member with old | new
    · exact formed.labelled a old
    · rwa [List.mem_singleton.1 new]

theorem Formed.update {name : String} {f : Entry → Entry} (formed : s.Formed level)
    (keeps : ∀ e, (f e).name = e.name ∧ (f e).level = e.level ∧ (f e).category = e.category ∧
      (f e).label = e.label) : (s.update name f).Formed level where
  level_eq := formed.level_eq
  room := by rw [update_names fun e => (keeps e).1]; exact formed.room
  levelled := by
    intro e member
    obtain ⟨a, ha, rfl⟩ := mem_update.1 member
    split
    · rw [(keeps a).2.1, formed.levelled a ha]
    · exact formed.levelled a ha
  labelled := by
    intro e member
    obtain ⟨a, ha, rfl⟩ := mem_update.1 member
    split
    · rw [(keeps a).2.2.1, (keeps a).2.2.2]
      exact formed.labelled a ha
    · exact formed.labelled a ha

theorem Formed.sized (formed : s.Formed level) : (s.sized size owner).Formed level := by
  cases owner with
  | none => exact formed
  | some name => exact formed.update fun _ => ⟨rfl, rfl, rfl, rfl⟩

end Scope

namespace Table

/-- Innermost first: each scope is formed at its level, and the next one awaits its frame. -/
def Nested : List Scope → Prop
  | [] => True
  | s :: outer =>
    s.Formed outer.length ∧ (∀ name ∈ s.owner, ∃ below ∈ outer.head?, below.Awaits name) ∧
      Nested outer

structure Formed (t : Table) : Prop where
  depth_le : t.depth ≤ Limits.scopeDepth
  nested : Nested t.scopes
  descending : (t.scopes.map (·.id.number)).Pairwise (· > ·)
  issued : ∀ s ∈ t.scopes, s.id.number < t.nextId
  counter_le : t.nextLabel ≤ Limits.maxLabel

variable {t : Table} {top outer : Scope} {rest : List Scope} {frame : Layout}

theorem formed_empty (policy : Policy) : Formed { policy } where
  depth_le := Nat.zero_le _
  nested := trivial
  descending := .nil
  issued := by simp
  counter_le := Limits.firstLabel_le

theorem Formed.replace {top' : Scope} {next : Nat} (formed : t.Formed)
    (scopes : t.scopes = top :: rest) (formed' : top'.Formed rest.length)
    (id : top'.id = top.id) (owner : top'.owner = top.owner)
    (counter : next ≤ Limits.maxLabel) :
    Formed { t with scopes := top' :: rest, nextLabel := next } := by
  obtain ⟨depth_le, nested, descending, issued, -⟩ := formed
  rw [depth, scopes] at depth_le
  rw [scopes] at nested descending issued
  refine ⟨depth_le, ⟨formed', owner ▸ nested.2.1, nested.2.2⟩, ?_, ?_, counter⟩
  · simpa [id] using descending
  · simpa [id] using issued

theorem Formed.tail (formed : t.Formed) (scopes : t.scopes = top :: rest) :
    Formed { t with scopes := rest } := by
  obtain ⟨depth_le, nested, descending, issued, counter⟩ := formed
  rw [depth, scopes] at depth_le
  rw [scopes] at nested descending issued
  refine ⟨Nat.le_of_succ_le depth_le, nested.2.2, ?_, ?_, counter⟩
  · exact (List.pairwise_cons.1 descending).2
  · exact fun s member => issued s (List.mem_cons_of_mem _ member)

theorem Formed.pushed {owner : Option String} (formed : t.Formed)
    (room : t.depth < Limits.scopeDepth)
    (awaits : ∀ name ∈ owner, ∃ below ∈ t.scopes.head?, below.Awaits name) :
    (t.pushed owner).Formed where
  depth_le := room
  nested := ⟨Scope.formed_empty _ _ _, awaits, formed.nested⟩
  descending := by
    refine List.pairwise_cons.2 ⟨?_, formed.descending⟩
    intro number member
    obtain ⟨s, live, rfl⟩ := List.mem_map.1 member
    exact formed.issued s live
  issued := by
    intro s member
    rcases List.mem_cons.1 member with rfl | live
    · exact Nat.lt_succ_self _
    · exact Nat.lt_succ_of_lt (formed.issued s live)
  counter_le := formed.counter_le

theorem Formed.opens_extended {e : Entry} (formed : t.Formed)
    (scopes : t.scopes = top.extended [e] :: rest) (owns : e.category.ownsFrame = true)
    (unsized : e.frameSize = none) : t.Opens e.name := by
  have nested := formed.nested
  rw [scopes] at nested
  have found : (top.extended [e]).find? e.name = some e :=
    (Scope.find?_eq_some nested.1.room.distinct).2 ⟨by simp [Scope.extended], rfl⟩
  exact ⟨_, by simp [scopes], e, found, owns, unsized⟩

theorem preview?_eq (scopes : t.scopes = top :: rest) :
    t.preview? = some (t.policy.layout top.entries.toList) := by
  simp [preview?, current?, scopes]

theorem exit_eq_error {err : TableError} (scopes : t.scopes = top :: outer :: rest)
    (unlaid : t.policy.layout top.entries.toList = .error err) : t.exit = (.error err, t) := by
  simp [exit, scopes, unlaid]

theorem exit_eq_ok {offsets : List Int64} {stop : Int64} (formed : t.Formed)
    (scopes : t.scopes = top :: outer :: rest)
    (lays : t.policy.Lays t.policy.baseOffset top.entries.toList offsets stop) :
    t.exit = (.ok (.ofScope (top.placed offsets) top.owner stop),
      { t with scopes := outer.sized stop top.owner :: rest }) := by
  have nested := formed.nested
  rw [scopes] at nested
  obtain ⟨inner, owned, below, -⟩ := nested
  have awaits : ∀ name ∈ top.owner, outer.Awaits name := by simpa using owned
  have laid := Policy.layout_eq_ok.2 ⟨offsets, stop, lays, rfl⟩
  have placed := Scope.setOffsets_eq_ok inner.room.distinct (Scope.lays_length lays)
  rw [Scope.names] at placed
  simp only [exit, scopes, laid, Scope.frameRefusal?_eq_none below.room.distinct awaits, placed,
    Scope.setOwnerFrame_eq_ok below.room.distinct awaits]

theorem finish_eq_error {err : TableError} (scopes : t.scopes = [top])
    (unlaid : t.policy.layout top.entries.toList = .error err) : t.finish = (.error err, t) := by
  simp [finish, scopes, unlaid]

theorem finish_sized {e : Entry} (scopes : t.scopes = [top])
    (laid : t.policy.layout top.entries.toList = .ok frame)
    (first : top.programEntry? = some e) (sized : e.frameSize.isSome = true) :
    t.finish =
      (.error (.invalidScopeOwner e.name "owner entry cannot take a frame size"), t) := by
  have blocked : top.programEntry?.filter (·.frameSize.isSome) = some e := by
    rw [first, Option.filter_some, if_pos sized]
  simp only [finish, scopes, laid, blocked]

theorem finish_eq_ok {offsets : List Int64} {stop : Int64} (formed : t.Formed)
    (scopes : t.scopes = [top])
    (lays : t.policy.Lays t.policy.baseOffset top.entries.toList offsets stop)
    (unsized : ∀ e ∈ top.programEntry?, e.frameSize = none) :
    t.finish = (.ok (.ofScope ((top.placed offsets).sized stop (top.programEntry?.map (·.name)))
      (top.programEntry?.map (·.name)) stop), { t with scopes := [] }) := by
  have nested := formed.nested
  rw [scopes] at nested
  have distinct := nested.1.room.distinct
  have enough := Scope.lays_length lays
  have laid := Policy.layout_eq_ok.2 ⟨offsets, stop, lays, rfl⟩
  have placed := Scope.setOffsets_eq_ok distinct enough
  rw [Scope.names] at placed
  have ready : top.programEntry?.filter (·.frameSize.isSome) = none := by
    cases first : top.programEntry? with
    | none => rfl
    | some e => simp [unsized e first]
  have distinct' : (top.placed offsets).names.Nodup := by rwa [Scope.placed_names enough]
  simp only [finish, scopes, laid, ready, placed,
    Scope.setOwnerFrame_eq_ok distinct' (Scope.program_awaits enough ready)]

theorem Formed.step (formed : t.Formed) (op : Operation) :
    t.Step op (t.apply op).1 (t.apply op).2 := by
  cases op with
  | enter =>
    simp only [apply, enter, push_eq]
    split
    · next room => exact .entered room
    · exact .refused
  | enterProcedure owner =>
    simp only [apply]
    by_cases opens : t.Opens owner
    · rw [enterProcedure_eq opens, push_eq]
      split
      · next room => exact .enteredProcedure opens room
      · exact .refused
    · obtain ⟨err, refused⟩ := enterProcedure_refused opens
      rw [refused]
      exact .refused
  | exit =>
    simp only [apply]
    match scopes : t.scopes with
    | [] | [_] =>
      simp only [exit, scopes]
      exact .refused
    | top :: outer :: rest =>
      cases laid : t.policy.layout top.entries.toList with
      | error err =>
        rw [exit_eq_error scopes laid]
        exact .refused
      | ok frame =>
        obtain ⟨offsets, stop, lays, -⟩ := Policy.layout_eq_ok.1 laid
        rw [exit_eq_ok formed scopes lays]
        exact .exited scopes lays
  | finish =>
    simp only [apply]
    match scopes : t.scopes with
    | [] | _ :: _ :: _ =>
      simp only [finish, scopes]
      exact .refused
    | [program] =>
      cases laid : t.policy.layout program.entries.toList with
      | error err =>
        rw [finish_eq_error scopes laid]
        exact .refused
      | ok frame =>
        by_cases unsized : ∀ e ∈ program.programEntry?, e.frameSize = none
        · obtain ⟨offsets, stop, lays, -⟩ := Policy.layout_eq_ok.1 laid
          rw [finish_eq_ok formed scopes lays unsized]
          exact .finished scopes lays unsized
        · push Not at unsized
          obtain ⟨e, first, sized⟩ := unsized
          rw [finish_sized scopes laid first (Option.isSome_iff_ne_none.2 sized)]
          exact .refused
  | abandon =>
    simp only [apply, abandon]
    split
    · next scopes => exact .abandoned scopes
    · exact .refused
  | declare e =>
    simp only [apply]
    rcases done : t.declare e with ⟨err | ⟨⟩, t'⟩
    · rw [declare_refused done]
      exact .refused
    · obtain ⟨top, outer, stored, next, scopes, short, fresh, few, labelled, rfl⟩ :=
        declare_eq_ok.1 done
      exact .declared scopes short fresh few labelled

theorem Formed.step_of_apply {op : Operation} {o : Outcome} {t' : Table} (formed : t.Formed)
    (applied : t.apply op = (o, t')) :
    t.Step op o t' := by
  have step := formed.step op
  rwa [applied] at step

theorem Formed.step_enter {id : ScopeId} {t' : Table} (formed : t.Formed)
    (done : t.enter = (.ok id, t')) : t.Step .enter (.entered id) t' :=
  formed.step_of_apply (by simp [apply, done, Outcome.of])

theorem Formed.step_declare {e : Entry} {t' : Table} (formed : t.Formed)
    (done : t.declare e = (.ok (), t')) : t.Step (.declare e) .declared t' :=
  formed.step_of_apply (by simp [Table.apply, done, Outcome.of])

theorem Formed.step_exit {scope : ClosedScope} {t' : Table} (formed : t.Formed)
    (done : t.exit = (.ok scope, t')) : t.Step .exit (.closed scope) t' :=
  formed.step_of_apply (by simp [Table.apply, done, Outcome.of])

theorem Formed.step_finish {scope : ClosedScope} {t' : Table} (formed : t.Formed)
    (done : t.finish = (.ok scope, t')) : t.Step .finish (.closed scope) t' :=
  formed.step_of_apply (by simp [Table.apply, done, Outcome.of])

theorem Formed.step_abandon {scope : Scope} {t' : Table} (formed : t.Formed)
    (done : t.abandon = (.ok scope, t')) : t.Step .abandon (.abandoned scope) t' :=
  formed.step_of_apply (by simp [Table.apply, done, Outcome.of])

theorem Step.formed {op : Operation} {o : Outcome} {t' : Table} (step : t.Step op o t')
    (formed : t.Formed) : t'.Formed := by
  cases step with
  | refused => exact formed
  | entered room => exact formed.pushed room (by simp)
  | enteredProcedure opens room =>
    refine formed.pushed room ?_
    rintro _ ⟨⟩
    obtain ⟨top, first, e, found, owns, unsized⟩ := opens
    obtain ⟨member, same⟩ := Scope.mem_of_find? found
    exact ⟨top, first, e, member, same, owns, unsized⟩
  | exited scopes lays =>
    have nested := formed.nested
    rw [scopes] at nested
    exact (formed.tail scopes).replace rfl nested.2.2.1.sized Scope.sized_id Scope.sized_owner
      formed.counter_le
  | finished => exact ⟨Nat.zero_le _, trivial, .nil, by simp, formed.counter_le⟩
  | abandoned scopes => exact formed.tail scopes
  | @declared e top outer stored next scopes short fresh few labelled =>
    have nested := formed.nested
    rw [scopes] at nested
    have room := room_concat.2 ⟨nested.1.room, short, fresh, by simpa using few⟩
    rw [← labelled_name labelled] at room
    have levelled : (stored.atLevel top.level).level = some outer.length :=
      congrArg some nested.1.level_eq
    have owned : stored.category.ownsFrame = true → stored.label.isSome = true :=
      labelled_isSome labelled
    exact formed.replace scopes (nested.1.extended room levelled owned) rfl rfl
      (labelled_le labelled formed.counter_le)

theorem Formed.apply (formed : t.Formed) (op : Operation) : (t.apply op).2.Formed :=
  (formed.step op).formed formed

theorem formed_after (policy : Policy) (ops : List Operation) :
    (({ policy } : Table).after ops).Formed :=
  after_induction (formed_empty policy) fun _ op _ formed => formed.apply op

end Table

end ScopeFrames
