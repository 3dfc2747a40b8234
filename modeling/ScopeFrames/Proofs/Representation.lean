import ScopeFrames.Proofs.Formed

namespace ScopeFrames

inductive Entry.Built : Entry → Prop
  | simple (name : String) (category : Category) : Built (.simple name category)
  | array (name : String) (base : Category) (bounds : Option Bounds) :
    Built (.array name base bounds)
  | procedure (name : String) : Built (.procedure name)
  | program (name : String) : Built (.program name)
  | withLabel {e : Entry} (label : Label) : Built e → Built (e.withLabel label)

theorem Entry.Built.unplaced {e : Entry} (built : e.Built) :
    e.offset = none ∧ e.frameSize = none := by
  induction built with
  | simple | array | procedure | program => exact ⟨rfl, rfl⟩
  | withLabel _ _ ih => exact ih

def Entry.Live (e : Entry) : Prop :=
  e.offset = none ∧ (e.frameSize.isSome = true → e.category.ownsFrame = true)

namespace Table

section

variable [Limits]

structure Sound (t : Table) : Prop where
  depth_le : t.outermostFirst.length ≤ Limits.scopeDepth
  level_eq : ∀ i (s : Scope), t.outermostFirst[i]? = some s → s.level = i
  bottom_owner : ∀ s : Scope, t.outermostFirst[0]? = some s → s.owner = none
  ascending : t.outermostFirst.Pairwise fun below above => below.id.number < above.id.number
  few : ∀ s ∈ t.outermostFirst, s.size ≤ Limits.entriesPerScope
  distinct : ∀ s ∈ t.outermostFirst, s.names.Nodup
  short : ∀ s ∈ t.outermostFirst, ∀ name ∈ s.names, name.utf8ByteSize ≤ Limits.identifierBytes
  entry_level : ∀ i (s : Scope), t.outermostFirst[i]? = some s →
    ∀ e ∈ s.entries, e.level = some i
  entry_offset : ∀ s ∈ t.outermostFirst, ∀ e ∈ s.entries, e.offset = none
  entry_label : ∀ s ∈ t.outermostFirst, ∀ e ∈ s.entries,
    e.category.ownsFrame = true → e.label.isSome = true
  entry_frame : ∀ s ∈ t.outermostFirst, ∀ e ∈ s.entries,
    e.frameSize.isSome = true → e.category.ownsFrame = true
  owner_below : ∀ i (s : Scope) name, t.outermostFirst[i + 1]? = some s → s.owner = some name →
    ∃ (below : Scope) (e : Entry), t.outermostFirst[i]? = some below ∧ e ∈ below.entries ∧
      e.name = name ∧ e.category.ownsFrame = true ∧ e.frameSize = none

variable {t : Table} {scopes : List Scope} {s : Scope} {i : Nat}

theorem Nested.getElem? (nested : Nested scopes) (at_ : scopes.reverse[i]? = some s) :
    s.Formed i ∧ ∀ name ∈ s.owner, ∃ j below, i = j + 1 ∧ scopes.reverse[j]? = some below ∧
      below.Awaits name := by
  induction scopes with
  | nil => simp at at_
  | cons top outer ih =>
    obtain ⟨formed, owned, nested⟩ := nested
    rw [List.reverse_cons, List.getElem?_append] at at_
    split at at_
    · next inside =>
      obtain ⟨formed, owned⟩ := ih nested at_
      refine ⟨formed, fun name named => ?_⟩
      obtain ⟨j, below, rfl, at_', awaits⟩ := owned name named
      refine ⟨j, below, rfl, ?_, awaits⟩
      rw [List.reverse_cons, List.getElem?_append_left (by omega), at_']
    · next outside =>
      obtain ⟨last, rfl⟩ := List.getElem?_eq_some_iff.1 at_
      have last' : i = outer.length := by simp at last outside; omega
      subst last'
      simp only [List.getElem_singleton]
      refine ⟨formed, fun name named => ?_⟩
      obtain ⟨below, first, awaits⟩ := owned name named
      obtain ⟨rest, rfl⟩ := List.head?_eq_some_iff.1 first
      exact ⟨rest.length, below, by simp, by simp, awaits⟩

def Live (t : Table) : Prop := ∀ s ∈ t.scopes, ∀ e ∈ s.entries, e.Live

theorem Formed.sound (formed : t.Formed) (live : t.Live) : t.Sound := by
  have at_ : ∀ {s}, s ∈ t.outermostFirst → ∃ i, s.Formed i := by
    intro s member
    obtain ⟨i, h⟩ := List.mem_iff_getElem?.1 member
    exact ⟨i, (formed.nested.getElem? h).1⟩
  have live' : ∀ s ∈ t.outermostFirst, ∀ e ∈ s.entries, e.Live :=
    fun s member => live s (List.mem_reverse.1 member)
  exact {
    depth_le := by simpa [outermostFirst, depth] using formed.depth_le
    level_eq := fun i s h => (formed.nested.getElem? h).1.level_eq
    bottom_owner := by
      intro s h
      have owned := (formed.nested.getElem? h).2
      cases owner : s.owner with
      | none => rfl
      | some name => obtain ⟨j, _, impossible, _⟩ := owned name owner; omega
    ascending := by
      have := formed.descending
      rw [List.pairwise_map] at this
      exact List.pairwise_reverse.2 this
    few := fun s member => (at_ member).elim fun _ h => by simpa using h.room.few
    distinct := fun s member => (at_ member).elim fun _ h => h.room.distinct
    short := fun s member => (at_ member).elim fun _ h => h.room.short
    entry_level := fun i s h => (formed.nested.getElem? h).1.levelled
    entry_offset := fun s member e inside => (live' s member e inside).1
    entry_label := fun s member => (at_ member).elim fun _ h => h.labelled
    entry_frame := fun s member e inside => (live' s member e inside).2
    owner_below := by
      intro i s name h owner
      obtain ⟨j, below, succ, at_', e, member, same, owns, unsized⟩ :=
        (formed.nested.getElem? h).2 name owner
      cases Nat.succ.inj succ
      exact ⟨below, e, at_', member, same, owns, unsized⟩ }

theorem Live.pushed (live : t.Live) (owner : Option String) : (t.pushed owner).Live := by
  intro s member
  rcases List.mem_cons.1 member with rfl | old
  · simp
  · exact live s old

theorem Live.exited {top outer : Scope} {rest : List Scope} {size : Int64} (live : t.Live)
    (formed : t.Formed) (scopes : t.scopes = top :: outer :: rest) :
    Live { t with scopes := outer.sized size top.owner :: rest } := by
  have nested := formed.nested
  rw [scopes] at nested
  have below : ∀ e ∈ outer.entries, e.Live := live outer (by simp [scopes])
  intro s member
  rcases List.mem_cons.1 member with rfl | old
  · cases owner : top.owner with
    | none => exact below
    | some name =>
      obtain ⟨_, ⟨⟩, a, ha, same, owns, _⟩ := nested.2.1 name owner
      intro e inside
      obtain ⟨b, hb, rfl⟩ := Scope.mem_update.1 inside
      split
      · next named =>
        have same' := Scope.eq_of_name_eq nested.2.2.1.room.distinct hb ha (named.trans same.symm)
        exact ⟨(below b hb).1, fun _ => same' ▸ owns⟩
      · exact below b hb
  · exact live s (by simp [scopes, old])

theorem Live.declared {e stored : Entry} {top : Scope} {outer : List Scope} {next : Nat}
    (live : t.Live) (built : e.Built) (scopes : t.scopes = top :: outer)
    (labelled : labelled e t.nextLabel = .ok (stored, next)) :
    Live { t with
      scopes := top.extended [stored.atLevel top.level] :: outer, nextLabel := next } := by
  obtain ⟨unplaced, unsized⟩ := labelled_unplaced labelled built.unplaced
  intro s member a inside
  rcases List.mem_cons.1 member with rfl | old
  · rcases Scope.mem_extended.1 inside with earlier | new
    · exact live top (by simp [scopes]) a earlier
    · rw [List.mem_singleton.1 new]
      refine ⟨unplaced, fun sized => ?_⟩
      rw [Entry.atLevel, unsized] at sized
      cases sized
  · exact live s (by simp [scopes, old]) a inside

theorem Step.live {op : Operation} {o : Outcome} {t' : Table} (step : t.Step op o t')
    (formed : t.Formed) (built : ∀ e, op = .declare e → e.Built) (live : t.Live) : t'.Live := by
  cases step with
  | refused => exact live
  | entered => exact live.pushed none
  | enteredProcedure => exact live.pushed _
  | exited scopes lays => exact live.exited formed scopes
  | finished => simp [Live]
  | abandoned scopes => exact fun s member => live s (by simp_all)
  | declared scopes short fresh few labelled => exact live.declared (built _ rfl) scopes labelled

theorem Step.nextId {op : Operation} {o : Outcome} {t' : Table} (step : t.Step op o t') :
    o.entered?.toList = (List.range' t.nextId (t'.nextId - t.nextId)).map ScopeId.mk ∧
      t.nextId ≤ t'.nextId := by
  cases step with
  | entered | enteredProcedure => simp [Outcome.entered?, pushed]
  | refused | exited | finished | abandoned | declared => simp [Outcome.entered?]

theorem Formed.entered_outcomes (formed : t.Formed) (ops : List Operation) :
    (t.outcomes ops).filterMap Outcome.entered?
        = (List.range' t.nextId ((t.after ops).nextId - t.nextId)).map ScopeId.mk ∧
      t.nextId ≤ (t.after ops).nextId := by
  induction ops generalizing t with
  | nil => simp [outcomes]
  | cons op ops ih =>
    obtain ⟨later, le'⟩ := ih (formed.apply op)
    obtain ⟨now, le⟩ := (formed.step op).nextId
    refine ⟨?_, Nat.le_trans le le'⟩
    have split : (t.after (op :: ops)).nextId - t.nextId =
        ((t.apply op).2.nextId - t.nextId) +
          (((t.apply op).2.after ops).nextId - (t.apply op).2.nextId) := by
      rw [after_cons]
      omega
    rw [split, ← List.range'_append_1, List.map_append, ← now, Nat.add_sub_cancel' le, ← later]
    cases entered : (t.apply op).1.entered? <;> simp [outcomes, entered]

/-- Whatever operations run, in any order and refused or not, the table they leave is sound, and
the ids given out count up from zero. -/
theorem sound_after (policy : Policy) (ops : List Operation)
    (built : ∀ e, .declare e ∈ ops → e.Built) :
    (({ policy } : Table).after ops).Sound ∧
      (({ policy } : Table).outcomes ops).filterMap Outcome.entered?
        = (List.range (({ policy } : Table).after ops).nextId).map ScopeId.mk := by
  have kept : (({ policy } : Table).after ops).Formed ∧ (({ policy } : Table).after ops).Live := by
    refine after_induction (motive := fun t => t.Formed ∧ t.Live)
      ⟨formed_empty policy, by simp [Live]⟩ ?_
    rintro t op member ⟨formed, live⟩
    have step := formed.step op
    exact ⟨step.formed formed, step.live formed (fun e same => built e (same ▸ member)) live⟩
  refine ⟨kept.1.sound kept.2, ?_⟩
  rw [((formed_empty policy).entered_outcomes ops).1, List.range_eq_range', Nat.sub_zero]

end

def reentry : List Operation :=
  [ .enter, .declare (.program "m"), .exit, .declare ((Entry.procedure "p").withLabel ⟨7⟩),
    .enterProcedure "p", .declare (.array "a" .char none), .exit, .abandon,
    .enterProcedure "p", .enterProcedure "q" ]

theorem reentry_built {e : Entry} (member : .declare e ∈ reentry) : e.Built := by
  simp only [reentry, List.mem_cons, Operation.declare.injEq, reduceCtorEq, false_or,
    List.not_mem_nil, or_false] at member
  rcases member with rfl | rfl | rfl
  · exact .program "m"
  · exact .withLabel ⟨7⟩ (.procedure "p")
  · exact .array "a" .char none

theorem reentry_sound :
    (∀ e, .declare e ∈ reentry → e.Built) ∧ (({ policy := {} } : Table).after reentry).Sound ∧
      (({ policy := {} } : Table).outcomes reentry).filterMap Outcome.entered?
        = [⟨0⟩, ⟨1⟩, ⟨2⟩] := by
  obtain ⟨sound, ids⟩ := sound_after {} reentry fun _ => reentry_built
  exact ⟨fun _ => reentry_built, sound, ids.trans (by decide +kernel)⟩

end Table

end ScopeFrames
