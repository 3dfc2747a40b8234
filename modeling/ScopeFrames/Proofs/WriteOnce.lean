import ScopeFrames.Proofs.Lookup
import ScopeFrames.Proofs.Representation

/-!
The life of one entry in a run.  It is declared; it may come to own scopes, one after the other as
they are dropped; and the first of them that is closed gives it its frame size, for good.
-/

namespace ScopeFrames

@[ext] structure Place where
  scope : ScopeId
  name : String
  deriving DecidableEq

inductive Deed : Type
  | declared (e : Entry)
  | closed (scope : ClosedScope)
  deriving DecidableEq

def Deed.at (p : Place) : Option (Place × Deed) → List Deed
  | some (q, deed) => if q = p then [deed] else []
  | none => []

theorem Deed.at_owner (p : Place) (id : ScopeId) (owner : Option String) (deed : Deed) :
    Deed.at p (owner.map fun name => (⟨id, name⟩, deed)) =
      if owner = some p.name ∧ id = p.scope then [deed] else [] := by
  obtain ⟨scope, name⟩ := p
  cases owner with
  | none => rfl
  | some owner => simp [Deed.at, and_comm]

/-- What happens to an entry from first to last, and the kind and frame size it has then. -/
inductive History : List Deed → Option (Category × Option Int64) → Prop
  | nil : History [] none
  | declared {e} : History [.declared e] (some (e.category, e.frameSize))
  | closed {e scope} : e.category.ownsFrame = true → e.frameSize = none →
      History [.declared e, .closed scope] (some (e.category, some scope.frameSize))

namespace Entry

def frame (e : Entry) : Category × Option Int64 := (e.category, e.frameSize)

end Entry

namespace History

variable {deeds : List Deed} {frame : Option (Category × Option Int64)} {category : Category}
  {size : Option Int64} {e : Entry} {scope : ClosedScope}

theorem eq_nil (history : History deeds none) : deeds = [] := by
  cases history
  rfl

theorem ne_nil (history : History deeds (some (category, size))) : deeds ≠ [] := by
  cases history <;> simp

theorem not_declared {frame' : Option (Category × Option Int64)}
    (history : History deeds (some (category, size))) :
    ¬ History (deeds ++ [.declared e]) frame' := by
  intro again
  generalize whole : deeds ++ [.declared e] = both at again
  cases again with
  | nil => simp at whole
  | declared =>
    have empty : deeds = [] := by simpa using congrArg List.length whole
    exact history.ne_nil empty
  | closed =>
    have last := congrArg List.getLast? whole
    simp at last

theorem unique {frame' : Option (Category × Option Int64)} (history : History deeds frame)
    (history' : History deeds frame') : frame = frame' := by
  cases history <;> cases history' <;> rfl

theorem sized_iff (history : History deeds (some (category, size))) : size ≠ none ↔
    (∃ scope, .closed scope ∈ deeds) ∨
      ∃ brought, .declared brought ∈ deeds ∧ brought.frameSize ≠ none := by
  cases history <;> simp

theorem settle (history : History deeds (some (category, none)))
    (owns : category.ownsFrame = true) (scope : ClosedScope) :
    History (deeds ++ [.closed scope]) (some (category, some scope.frameSize)) := by
  generalize unsized : some (category, (none : Option Int64)) = frame at history
  cases history with
  | nil | closed => simp at unsized
  | @declared e =>
    obtain ⟨rfl, bare⟩ := Prod.mk.inj (Option.some.inj unsized)
    exact .closed owns bare.symm

end History

namespace Scope

variable {s : Scope} {name : String} {offsets : List Int64} {size : Int64}

@[simp] theorem placed_id : (s.placed offsets).id = s.id := rfl

theorem frame_sized {category : Category} {unsized : Option Int64}
    (frame : (s.find? name).map Entry.frame = some (category, unsized)) (size : Int64) :
    ((s.sized size (some name)).find? name).map Entry.frame = some (category, some size) := by
  obtain ⟨e, found, same⟩ := Option.map_eq_some_iff.1 frame
  obtain ⟨rfl, -⟩ := Prod.mk.inj same
  rw [find?_sized_some, found, Option.map_some, if_pos (mem_of_find? found).2]
  rfl

theorem awaits_program (unsized : ∀ e ∈ s.programEntry?, e.frameSize = none)
    (owner : s.programEntry?.map (·.name) = some name) : s.Awaits name := by
  obtain ⟨e, first, rfl⟩ := Option.map_eq_some_iff.1 owner
  have program : e.category = .program := by simpa using Array.find?_some first
  exact ⟨e, Array.mem_of_find?_eq_some first, rfl, by rw [program]; rfl, unsized e first⟩

theorem find?_zipWith_withOffset {α : Type} {p : Entry → Bool} {f : Entry → α} {es : List Entry}
    (enough : offsets.length = es.length) (blind : ∀ e offset, p (e.withOffset offset) = p e)
    (same : ∀ e offset, f (e.withOffset offset) = f e) :
    ((es.zipWith Entry.withOffset offsets).find? p).map f = (es.find? p).map f := by
  induction es generalizing offsets with
  | nil => rfl
  | cons e es ih =>
    obtain ⟨offset, offsets, rfl⟩ := List.exists_cons_of_length_eq_add_one enough
    simp only [List.zipWith_cons_cons, List.find?_cons, blind]
    cases p e with
    | true => exact congrArg some (same e offset)
    | false => exact ih (by simpa using enough)

theorem frame_placed (enough : offsets.length = s.size) :
    ((s.placed offsets).find? name).map Entry.frame = (s.find? name).map Entry.frame := by
  have enough : offsets.length = s.entries.toList.length := by simpa [Scope.size] using enough
  rw [find?_eq, find?_eq]
  exact find?_zipWith_withOffset enough (fun _ _ => rfl) fun _ _ => rfl

end Scope

namespace Table

section

variable [Limits]

/-- Which entry an operation is done for.  The owner of a nested scope stands in the scope around
it, and that of the program's scope within. -/
def deed? (t : Table) : Operation → Outcome → Option (Place × Deed)
  | .declare e, .declared => t.current?.map fun top => (⟨top.id, e.name⟩, .declared e)
  | .exit, .closed scope => t.outside.current?.bind fun around =>
      scope.owner.map fun name => (⟨around.id, name⟩, .closed scope)
  | .finish, .closed scope => scope.owner.map fun name => (⟨scope.id, name⟩, .closed scope)
  | _, _ => none

def deedsBy (t : Table) (op : Operation) (p : Place) : List Deed :=
  Deed.at p (t.deed? op (t.apply op).1)

def deeds (t : Table) (p : Place) : List Operation → List Deed
  | [] => []
  | op :: ops => t.deedsBy op p ++ (t.apply op).2.deeds p ops

def Owned (t : Table) (p : Place) (depth : Nat) : Prop :=
  ∃ s around, t.outermostFirst[depth + 1]? = some s ∧ s.owner = some p.name ∧
    t.outermostFirst[depth]? = some around ∧ around.id = p.scope

/-- The frame size of the entry at a place, once all that was done for it is `deeds`, is written at
most once and by nothing but these deeds. -/
structure WritesOnce (t : Table) (p : Place) (deeds : List Deed) : Prop where
  owned_once : ∀ depth depth', t.Owned p depth → t.Owned p depth' → depth = depth'
  history : ∃ frame, History deeds frame
  live : ∀ s ∈ t.scopes, s.id = p.scope → History deeds ((s.find? p.name).map Entry.frame)
  closed : ∀ op (scope : ClosedScope), (t.apply op).1 = .closed scope → scope.id = p.scope →
    History (deeds ++ t.deedsBy op p)
      ((scope.entries.find? (·.name == p.name)).map Entry.frame)
  kept : ∀ op, (∀ scope, .closed scope ∉ t.deedsBy op p) →
    ∀ s ∈ t.scopes, s.id = p.scope → ∀ s' ∈ (t.apply op).2.scopes, s'.id = p.scope →
      ∀ e, s.find? p.name = some e → ∃ e', s'.find? p.name = some e' ∧ e'.frameSize = e.frameSize

structure Ledger (t : Table) (p : Place) (deeds : List Deed) : Prop where
  history : ∃ frame, History deeds frame
  issued : deeds ≠ [] → p.scope.number < t.nextId
  live : ∀ s ∈ t.scopes, s.id = p.scope → History deeds ((s.find? p.name).map Entry.frame)

variable {t t' : Table} {p : Place} {deeds : List Deed} {op : Operation} {o : Outcome}
  {top around program : Scope} {rest : List Scope} {e : Entry} {owner : Option String}
  {size : Int64}

theorem Formed.id_ne (formed : t.Formed) (scopes : t.scopes = top :: rest) {s : Scope}
    (member : s ∈ rest) : s.id ≠ top.id := by
  have descending := formed.descending
  rw [scopes, List.map_cons, List.pairwise_cons] at descending
  intro same
  have below := descending.1 s.id.number (List.mem_map.2 ⟨s, member, rfl⟩)
  rw [same] at below
  exact Nat.lt_irrefl _ below

theorem ledger_empty (policy : Policy) (p : Place) : Ledger { policy } p [] where
  history := ⟨none, .nil⟩
  issued nonempty := absurd rfl nonempty
  live := by simp

theorem Ledger.kept (ledger : t.Ledger p deeds) (le : t.nextId ≤ t'.nextId)
    (kept : ∀ s' ∈ t'.scopes, s'.id = p.scope → ∃ s ∈ t.scopes, s.id = p.scope ∧
      (s'.find? p.name).map Entry.frame = (s.find? p.name).map Entry.frame) :
    t'.Ledger p deeds where
  history := ledger.history
  issued nonempty := Nat.lt_of_lt_of_le (ledger.issued nonempty) le
  live := by
    intro s' member here
    obtain ⟨s, member, here, same⟩ := kept s' member here
    exact same ▸ ledger.live s member here

theorem Ledger.pushed (ledger : t.Ledger p deeds) (owner : Option String) :
    (t.pushed owner).Ledger p deeds where
  history := ledger.history
  issued nonempty := Nat.lt_succ_of_lt (ledger.issued nonempty)
  live := by
    intro s member here
    rcases List.mem_cons.1 member with rfl | old
    · have empty : deeds = [] := by
        by_contra nonempty
        have issued := ledger.issued nonempty
        rw [← here] at issued
        exact Nat.lt_irrefl _ issued
      rw [Scope.find?_empty, empty]
      exact .nil
    · exact ledger.live s old here

theorem Ledger.settle {s : Scope} (ledger : t.Ledger p deeds) (distinct : s.names.Nodup)
    (member : s ∈ t.scopes) (here : s.id = p.scope) (awaits : s.Awaits p.name)
    (scope : ClosedScope) : ∃ category, (s.find? p.name).map Entry.frame = some (category, none) ∧
      History (deeds ++ [.closed scope]) (some (category, some scope.frameSize)) := by
  obtain ⟨e, inside, named, owns, unsized⟩ := awaits
  have found := (Scope.find?_eq_some distinct).2 ⟨inside, named⟩
  have frame : (s.find? p.name).map Entry.frame = some (e.category, none) := by
    rw [found, Option.map_some, Entry.frame, unsized]
  exact ⟨e.category, frame, (frame ▸ ledger.live s member here).settle owns scope⟩

theorem Ledger.exited {inner : Scope} (ledger : t.Ledger p deeds) (formed : t.Formed)
    (scopes : t.scopes = inner :: around :: rest) (scope : ClosedScope)
    (owner : scope.owner = inner.owner) :
    Ledger { t with scopes := around.sized scope.frameSize inner.owner :: rest } p
      (deeds ++ Deed.at p (scope.owner.map fun name => (⟨around.id, name⟩, .closed scope))) := by
  have nested := formed.nested
  rw [scopes] at nested
  have live : around ∈ t.scopes := by simp [scopes]
  rw [Deed.at_owner, owner]
  by_cases owned : inner.owner = some p.name ∧ around.id = p.scope
  · rw [if_pos owned]
    obtain ⟨named, here⟩ := owned
    have awaits : around.Awaits p.name := by simpa using nested.2.1 p.name named
    obtain ⟨category, frame, history⟩ :=
      ledger.settle nested.2.2.1.room.distinct live here awaits scope
    rw [named]
    refine ⟨⟨_, history⟩, fun _ => here ▸ formed.issued around live, ?_⟩
    intro s member here'
    rcases List.mem_cons.1 member with rfl | old
    · rw [Scope.frame_sized frame]
      exact history
    · exact absurd (here'.trans here.symm) ((formed.tail scopes).id_ne rfl old)
  · rw [if_neg owned, List.append_nil]
    refine ledger.kept (Nat.le_refl _) fun s' member here => ?_
    rcases List.mem_cons.1 member with rfl | old
    · rw [Scope.sized_id] at here
      refine ⟨around, live, here, ?_⟩
      rw [Scope.find?_sized_of_ne fun named => owned ⟨named, here⟩]
    · exact ⟨s', by simp [scopes, old], here, rfl⟩

theorem Ledger.history_finished {offsets : List Int64} (ledger : t.Ledger p deeds)
    (formed : t.Formed) (scopes : t.scopes = [program]) (enough : offsets.length = program.size)
    (unsized : ∀ e ∈ program.programEntry?, e.frameSize = none) (scope : ClosedScope)
    (owner : scope.owner = program.programEntry?.map (·.name)) (here : program.id = p.scope) :
    History (deeds ++ Deed.at p (scope.owner.map fun name => (⟨program.id, name⟩, .closed scope)))
      ((((program.placed offsets).sized scope.frameSize scope.owner).find? p.name).map
        Entry.frame) := by
  have nested := formed.nested
  rw [scopes] at nested
  have live : program ∈ t.scopes := by simp [scopes]
  rw [Deed.at_owner]
  by_cases owned : scope.owner = some p.name
  · have awaits := Scope.awaits_program unsized (owner.symm.trans owned)
    obtain ⟨category, frame, history⟩ :=
      ledger.settle nested.1.room.distinct live here awaits scope
    rw [← Scope.frame_placed enough] at frame
    rw [if_pos ⟨owned, here⟩, owned, Scope.frame_sized frame]
    exact history
  · rw [if_neg fun both => owned both.1, List.append_nil, Scope.find?_sized_of_ne owned,
      Scope.frame_placed enough]
    exact ledger.live program live here

theorem Ledger.finished {offsets : List Int64} (ledger : t.Ledger p deeds) (formed : t.Formed)
    (scopes : t.scopes = [program]) (enough : offsets.length = program.size)
    (unsized : ∀ e ∈ program.programEntry?, e.frameSize = none) (scope : ClosedScope)
    (owner : scope.owner = program.programEntry?.map (·.name)) :
    Ledger { t with scopes := [] } p
      (deeds ++ Deed.at p (scope.owner.map fun name => (⟨program.id, name⟩, .closed scope))) := by
  by_cases here : program.id = p.scope
  · exact ⟨⟨_, ledger.history_finished formed scopes enough unsized scope owner here⟩,
      fun _ => here ▸ formed.issued program (by simp [scopes]), by simp⟩
  · rw [Deed.at_owner, if_neg fun both => here both.2, List.append_nil]
    exact ledger.kept (Nat.le_refl _) (by simp)

theorem Ledger.declared {x : Entry} {next : Nat} (ledger : t.Ledger p deeds) (formed : t.Formed)
    (scopes : t.scopes = top :: rest) (fresh : e.name ∉ top.names) (named : x.name = e.name)
    (frame : x.frame = e.frame) :
    Ledger { t with scopes := top.extended [x] :: rest, nextLabel := next } p
      (deeds ++ Deed.at p (some (⟨top.id, e.name⟩, .declared e))) := by
  have live : top ∈ t.scopes := by simp [scopes]
  by_cases here : (⟨top.id, e.name⟩ : Place) = p
  · subst here
    have absent : top.find? e.name = none := Scope.find?_eq_none.2 fresh
    have empty : deeds = [] := by
      have history := ledger.live top live rfl
      rw [absent] at history
      exact history.eq_nil
    rw [empty, Deed.at, if_pos rfl]
    refine ⟨⟨_, .declared⟩, fun _ => formed.issued top live, fun s member here => ?_⟩
    rcases List.mem_cons.1 member with rfl | old
    · have found : (top.extended [x]).find? e.name = some x := by
        simp [Scope.find?_extended, absent, named]
      rw [found, Option.map_some, frame]
      exact .declared
    · exact absurd here (formed.id_ne scopes old)
  · rw [Deed.at, if_neg here, List.append_nil]
    refine ledger.kept (Nat.le_refl _) fun s' member at_ => ?_
    rcases List.mem_cons.1 member with rfl | old
    · have other : x.name ≠ p.name := fun same => here (by
        obtain ⟨scope, name⟩ := p
        exact Place.mk.injEq .. ▸ ⟨at_, named.symm.trans same⟩)
      refine ⟨top, live, at_, ?_⟩
      simp [Scope.find?_extended, other]
    · exact ⟨s', by simp [scopes, old], at_, rfl⟩

theorem Step.ledger (step : t.Step op o t') (formed : t.Formed) (ledger : t.Ledger p deeds) :
    t'.Ledger p (deeds ++ Deed.at p (t.deed? op o)) := by
  cases step with
  | @refused op =>
    have idle : ∀ err, t.deed? op (.refused err) = none := by cases op <;> intro _ <;> rfl
    simpa [idle, Deed.at] using ledger
  | entered => simpa [deed?, Deed.at] using ledger.pushed none
  | enteredProcedure => simpa [deed?, Deed.at] using ledger.pushed _
  | @exited inner around rest offsets stop scopes =>
    have first : t.outside.current? = some around := by simp [outside, current?, scopes]
    simp only [deed?, first]
    exact ledger.exited formed scopes (.ofScope (inner.placed offsets) inner.owner stop) rfl
  | @finished program offsets stop scopes lays unsized =>
    have enough := Scope.lays_length lays
    have id : (ClosedScope.ofScope ((program.placed offsets).sized stop
        (program.programEntry?.map (·.name))) (program.programEntry?.map (·.name)) stop).id
          = program.id := by
      simp [ClosedScope.ofScope]
    simp only [deed?, id]
    exact ledger.finished formed scopes enough unsized (.ofScope _ _ stop) rfl
  | abandoned scopes =>
    simp only [deed?, Deed.at, List.append_nil]
    exact ledger.kept (Nat.le_refl _) fun s member here =>
      ⟨s, by rw [scopes]; exact List.mem_cons_of_mem _ member, here, rfl⟩
  | @declared e top rest stored next scopes _ fresh _ labelled =>
    have first : t.current? = some top := by simp [current?, scopes]
    obtain ⟨label, rfl⟩ := labelled_kept labelled
    simp only [deed?, first]
    exact ledger.declared formed scopes fresh rfl rfl

theorem Formed.ledger_apply (formed : t.Formed) (ledger : t.Ledger p deeds) (op : Operation) :
    (t.apply op).2.Ledger p (deeds ++ t.deedsBy op p) :=
  (formed.step op).ledger formed ledger

theorem Formed.ledger_after (formed : t.Formed) (ledger : t.Ledger p deeds)
    (ops : List Operation) : (t.after ops).Ledger p (deeds ++ t.deeds p ops) := by
  induction ops generalizing t deeds with
  | nil => simpa [Table.deeds] using ledger
  | cons op ops ih =>
    rw [Table.deeds, ← List.append_assoc]
    exact ih (formed.apply op) (formed.ledger_apply ledger op)

theorem Step.history_closed {scope : ClosedScope} (step : t.Step op (.closed scope) t')
    (formed : t.Formed) (ledger : t.Ledger p deeds) (here : scope.id = p.scope) :
    History (deeds ++ Deed.at p (t.deed? op (.closed scope)))
      ((scope.entries.find? (·.name == p.name)).map Entry.frame) := by
  have nested := formed.nested
  cases step with
  | @exited inner around rest offsets stop scopes lays =>
    have first : t.outside.current? = some around := by simp [outside, current?, scopes]
    have other : around.id ≠ p.scope := by
      rw [← here]
      exact formed.id_ne scopes List.mem_cons_self
    have history := ledger.live inner (by simp [scopes]) here
    rw [← Scope.frame_placed (Scope.lays_length lays), Scope.find?_eq] at history
    simpa [deed?, first, Deed.at_owner, other, ClosedScope.ofScope] using history
  | @finished program offsets stop scopes lays unsized =>
    have enough := Scope.lays_length lays
    simp only [ClosedScope.ofScope, Scope.sized_id, Scope.placed_id] at here
    have history := ledger.history_finished formed scopes enough unsized
      (.ofScope ((program.placed offsets).sized stop (program.programEntry?.map (·.name)))
        (program.programEntry?.map (·.name)) stop) rfl here
    simpa [deed?, ClosedScope.ofScope, Scope.find?_eq] using history

theorem Formed.owned_once (formed : t.Formed) {depth depth' : Nat} (owned : t.Owned p depth)
    (owned' : t.Owned p depth') : depth = depth' := by
  obtain ⟨-, around, -, -, at_, here⟩ := owned
  obtain ⟨-, around', -, -, at_', here'⟩ := owned'
  have distinct : (t.outermostFirst.map (·.id.number)).Nodup := by
    rw [outermostFirst, List.map_reverse, List.nodup_reverse]
    exact formed.descending.imp fun above => Nat.ne_of_gt above
  have inside := (List.getElem?_eq_some_iff.1 at_).1
  refine (List.getElem?_inj (by simpa using inside) distinct).1 ?_
  simp [at_, at_', here, here']

theorem mem_deedsBy {deed : Deed} : deed ∈ t.deedsBy op p ↔
    t.deed? op (t.apply op).1 = some (p, deed) := by
  unfold deedsBy
  cases t.deed? op (t.apply op).1 with
  | none => simp [Deed.at]
  | some done =>
    obtain ⟨q, done⟩ := done
    by_cases same : q = p
    · simp [Deed.at, same, eq_comm]
    · simp [Deed.at, same]

theorem deedsBy_eq {deed : Deed} (done : deed ∈ t.deedsBy op p) : t.deedsBy op p = [deed] := by
  rw [deedsBy, mem_deedsBy.1 done, Deed.at, if_pos rfl]

theorem eq_declare {o : Outcome} (declared : t.deed? op o = some (p, .declared e)) :
    op = .declare e := by
  unfold deed? at declared
  split at declared
  · obtain ⟨top, -, same⟩ := Option.map_eq_some_iff.1 declared
    cases same
    rfl
  · obtain ⟨around, -, owned⟩ := Option.bind_eq_some_iff.1 declared
    obtain ⟨name, -, same⟩ := Option.map_eq_some_iff.1 owned
    cases same
  · obtain ⟨name, -, same⟩ := Option.map_eq_some_iff.1 declared
    cases same
  · cases declared

theorem Formed.writesOnce (formed : t.Formed) (ledger : t.Ledger p deeds) :
    t.WritesOnce p deeds where
  owned_once _ _ := formed.owned_once
  history := ledger.history
  live := ledger.live
  closed := by
    intro op scope closed here
    have step := formed.step op
    rw [closed] at step
    rw [deedsBy, closed]
    exact step.history_closed formed ledger here
  kept := by
    intro op unclosed s member here s' member' here' e found
    have before := ledger.live s member here
    rw [found, Option.map_some, Entry.frame] at before
    have after := (formed.ledger_apply ledger op).live s' member' here'
    have idle : t.deedsBy op p = [] := by
      refine List.eq_nil_iff_forall_not_mem.2 fun deed done => ?_
      cases deed with
      | declared e =>
        rw [deedsBy_eq done] at after
        exact before.not_declared after
      | closed scope => exact unclosed scope done
    rw [idle, List.append_nil] at after
    obtain ⟨e', found', same⟩ := Option.map_eq_some_iff.1 (after.unique before)
    exact ⟨e', found', congrArg Prod.snd same⟩

theorem declared_mem_deeds {e : Entry} {ops : List Operation}
    (declared : .declared e ∈ t.deeds p ops) : .declare e ∈ ops := by
  induction ops generalizing t with
  | nil => simp [Table.deeds] at declared
  | cons op ops ih =>
    rcases List.mem_append.1 declared with now | later
    · rw [eq_declare (mem_deedsBy.1 now)]
      exact List.mem_cons_self
    · exact List.mem_cons_of_mem _ (ih later)

/-- Over any run and for every entry: one scope at most is closed on its behalf, and from then on,
and not before, it has the frame size of that scope, also in the closed scope it ends in. -/
theorem frames_after (policy : Policy) (ops : List Operation) (p : Place) :
    let start : Table := { policy }
    (start.after ops).WritesOnce p (start.deeds p ops) ∧
      ∀ e, .declared e ∈ start.deeds p ops → .declare e ∈ ops ∧ (e.Built → e.frameSize = none) := by
  intro start
  have ledger := (formed_empty policy).ledger_after (ledger_empty policy p) ops
  rw [List.nil_append] at ledger
  exact ⟨(formed_after policy ops).writesOnce ledger,
    fun e declared => ⟨declared_mem_deeds declared, fun built => built.unplaced.2⟩⟩

end

example : Table.deeds {} ⟨⟨0⟩, "p"⟩
    [ .enter, .declare (.procedure "p"), .enterProcedure "p", .declare (.simple "p" .char),
      .abandon, .enterProcedure "p", .exit ] =
    [.declared (.procedure "p"), .closed ⟨⟨2⟩, 1, some "p", [], 0⟩] := by
  decide +kernel

end Table

end ScopeFrames
