import ScopeFrames.Proofs.Excursion

namespace ScopeFrames

namespace Scope

variable {s : Scope} {name : String} {e : Entry} {es : List Entry}

theorem find?_extended :
    (s.extended es).find? name = (s.find? name).or (es.find? (·.name == name)) := by
  simp [find?_eq, extended, List.find?_append]

@[simp] theorem find?_empty (id : ScopeId) (level : Nat) (owner : Option String) :
    Scope.find? { id, level, owner } name = none := by
  simp [find?]

end Scope

namespace Table

theorem exists_labelled_iff {e : Entry} {next : Nat} :
    (∃ stored next', labelled e next = .ok (stored, next')) ↔
    (e.category.ownsFrame = true → e.label = none → next < Limits.maxLabel) := by
  simp only [labelled_eq_ok]
  split
  · next needs => simp [needs]
  · next kept => simpa using fun owns bare => absurd ⟨owns, bare⟩ kept

variable [Limits]

def outside (t : Table) : Table := { t with scopes := t.scopes.tail }

def stored (t : Table) (e : Entry) (level : Nat) : Entry :=
  { e with
    level := some level
    label := if e.category.ownsFrame = true ∧ e.label = none then some ⟨t.nextLabel⟩ else e.label }

structure Admits (t : Table) (e : Entry) : Prop where
  short : e.name.utf8ByteSize ≤ Limits.identifierBytes
  room : ∃ top ∈ t.current?, e.name ∉ top.names ∧ top.size < Limits.entriesPerScope
  counter : e.category.ownsFrame = true → e.label = none → t.nextLabel < Limits.maxLabel

structure Gains (t : Table) (e : Entry) (t' : Table) : Prop where
  appended : ∃ top top', t.current? = some top ∧ t'.current? = some top' ∧
    top'.id = top.id ∧ top'.level = top.level ∧ top'.owner = top.owner ∧
      top'.entries = top.entries.push (t.stored e top.level)
  outside : t'.scopes.tail = t.scopes.tail
  found : ∃ depth, t'.level? = some depth ∧
    t'.lookup? e.name = some (t.stored e depth, depth)
  others : ∀ name, name ≠ e.name → t'.lookup? name = t.lookup? name

def Finds (t : Table) (name : String) (e : Entry) (depth : Nat) : Prop :=
  ∃ above s outer, t.scopes = above ++ s :: outer ∧ outer.length = depth ∧
    e ∈ s.entries ∧ e.name = name ∧ ∀ inner ∈ above, name ∉ inner.names

structure Resolves (t : Table) : Prop where
  declare_iff : ∀ e, (∃ t', t.declare e = (.ok (), t')) ↔ t.Admits e
  declared : ∀ e t', t.declare e = (.ok (), t') → t.Gains e t'
  lookup_iff : ∀ name e depth, t.lookup? name = some (e, depth) ↔ t.Finds name e depth
  lookup_level : ∀ name e depth, t.lookup? name = some (e, depth) → e.level = some depth
  unknown_iff : ∀ name, t.lookup? name = none ↔ ∀ s ∈ t.scopes, name ∉ s.names
  entered : ∀ id t', t.enter = (.ok id, t') → ∀ name, t'.lookup? name = t.lookup? name
  enteredProcedure : ∀ owner id t', t.enterProcedure owner = (.ok id, t') →
    ∀ name, t'.lookup? name = t.lookup? name
  exited : ∀ closed t', t.exit = (.ok closed, t') → ∀ name,
    t'.lookup? name = (t.outside.lookup? name).map fun (e, depth) =>
      (if closed.owner = some name then { e with frameSize := some closed.frameSize } else e, depth)
  abandoned : ∀ s t', t.abandon = (.ok s, t') → ∀ name,
    t'.lookup? name = t.outside.lookup? name

variable {t t' : Table} {e stored : Entry} {top s : Scope} {outer scopes : List Scope}
  {name : String} {depth next : Nat} {op : Operation} {id : ScopeId} {closed : ClosedScope}

theorem lookup?_cons (scopes : t.scopes = s :: outer) : t.lookup? name =
    ((s.find? name).map (·, s.level)).or (t.outside.lookup? name) := by
  simp only [lookup?, outside, scopes, List.findSome?_cons, List.tail_cons]
  cases s.find? name <;> rfl

theorem lookup?_eq_none : t.lookup? name = none ↔ ∀ s ∈ t.scopes, name ∉ s.names := by
  simp [lookup?, Scope.find?_eq_none]

theorem labelled_eq_stored (done : labelled e t.nextLabel = .ok (stored, next)) (level : Nat) :
    stored.atLevel level = t.stored e level := by
  rw [labelled_eq_ok] at done
  split at done
  · next needs => simp [done.2.1, Table.stored, needs, Entry.withLabel, Entry.atLevel]
  · next kept => simp [done.1, Table.stored, kept, Entry.atLevel]

theorem exists_declare_iff : (∃ t', t.declare e = (.ok (), t')) ↔ t.Admits e := by
  simp only [declare_eq_ok]
  constructor
  · rintro ⟨_, top, outer, stored, next, scopes, short, fresh, few, labelled, rfl⟩
    exact ⟨short, ⟨top, by simp [current?, scopes], fresh, few⟩,
      exists_labelled_iff.1 ⟨stored, next, labelled⟩⟩
  · rintro ⟨short, ⟨top, first, fresh, few⟩, counter⟩
    obtain ⟨outer, scopes⟩ := List.head?_eq_some_iff.1 first
    obtain ⟨stored, next, labelled⟩ := exists_labelled_iff.2 counter
    exact ⟨_, top, outer, stored, next, scopes, short, fresh, few, labelled, rfl⟩

theorem lookup?_extended (x : Entry) (scopes : t.scopes = top :: outer)
    (scopes' : t'.scopes = top.extended [x] :: outer) (fresh : x.name ∉ top.names) :
    t'.lookup? name = if name = x.name then some (x, top.level) else t.lookup? name := by
  have outside : t'.outside.lookup? name = t.outside.lookup? name :=
    lookup?_eq_of_scopes (by simp [Table.outside, scopes, scopes']) name
  rw [lookup?_cons scopes, lookup?_cons scopes', Scope.find?_extended, outside]
  by_cases same : name = x.name
  · simp [same, Scope.find?_eq_none.2 fresh]
  · have other : (x.name == name) = false := by simpa using Ne.symm same
    simp [same, other]

theorem Nested.formed_at {above : List Scope} (nested : Nested (above ++ s :: outer)) :
    s.Formed outer.length := by
  induction above with
  | nil => exact nested.1
  | cons _ above ih => exact ih nested.2.2

theorem Formed.gains (formed : t.Formed) (done : t.declare e = (.ok (), t')) : t.Gains e t' := by
  obtain ⟨top, outer, stored, next, scopes, short, fresh, few, labelled, rfl⟩ :=
    declare_eq_ok.1 done
  rw [labelled_eq_stored labelled]
  have nested := formed.nested
  rw [scopes] at nested
  have law : ∀ name, lookup? { t with
      scopes := top.extended [t.stored e top.level] :: outer, nextLabel := next } name =
        if name = e.name then some (t.stored e top.level, top.level) else t.lookup? name :=
    fun _ => lookup?_extended (t.stored e top.level) scopes rfl fresh
  refine ⟨⟨top, _, by simp [current?, scopes], rfl, rfl, rfl, rfl, ?_⟩, by simp [scopes],
    ⟨outer.length, rfl, ?_⟩, fun name other => (law name).trans (if_neg other)⟩
  · rw [← Scope.push_eq_extended]
  · rw [law e.name, if_pos rfl, nested.1.level_eq]

theorem Formed.finds_iff (formed : t.Formed) :
    t.lookup? name = some (e, depth) ↔ t.Finds name e depth := by
  have formed_at : ∀ {above s outer}, t.scopes = above ++ s :: outer → s.Formed outer.length :=
    fun split => (split ▸ formed.nested).formed_at
  simp only [lookup?, List.findSome?_eq_some_iff, Option.map_eq_some_iff, Prod.mk.injEq,
    Option.map_eq_none_iff, Scope.find?_eq_none]
  constructor
  · rintro ⟨above, s, outer, split, ⟨e, found, rfl, level⟩, hidden⟩
    obtain ⟨member, named⟩ := Scope.mem_of_find? found
    exact ⟨above, s, outer, split, (formed_at split).level_eq.symm.trans level, member, named,
      hidden⟩
  · rintro ⟨above, s, outer, split, depth, member, named, hidden⟩
    have found := (Scope.find?_eq_some (formed_at split).room.distinct).2 ⟨member, named⟩
    exact ⟨above, s, outer, split, ⟨e, found, rfl, (formed_at split).level_eq.trans depth⟩, hidden⟩

theorem Formed.level_of_lookup (formed : t.Formed) (found : t.lookup? name = some (e, depth)) :
    e.level = some depth := by
  obtain ⟨above, s, outer, split, rfl, member, -, -⟩ := formed.finds_iff.1 found
  exact (split ▸ formed.nested).formed_at.levelled e member

theorem lookup?_pushed (t : Table) (owner : Option String) (name : String) :
    (t.pushed owner).lookup? name = t.lookup? name := by
  have scopes : (t.pushed owner).scopes = _ :: t.scopes := rfl
  rw [lookup?_cons scopes, Scope.find?_empty]
  rfl

theorem lookup?_sized {size : Int64} {owner : Option String} (scopes : t.scopes = top :: outer)
    (scopes' : t'.scopes = top.sized size owner :: outer)
    (awaits : ∀ name ∈ owner, top.Awaits name) :
    t'.lookup? name = (t.lookup? name).map fun (e, depth) =>
      (if owner = some name then { e with frameSize := some size } else e, depth) := by
  by_cases owned : owner = some name
  · subst owned
    obtain ⟨e, member, named, -⟩ := awaits name rfl
    have declared : name ∈ top.names := List.mem_map.2 ⟨e, by simpa using member, named⟩
    obtain ⟨found, here⟩ : ∃ found, top.find? name = some found :=
      Option.ne_none_iff_exists'.1 (mt Scope.find?_eq_none.1 (not_not_intro declared))
    have same : found.name = name := (Scope.mem_of_find? here).2
    rw [lookup?_cons scopes, lookup?_cons scopes', Scope.find?_sized_some, here]
    simp [same, Scope.sized, Scope.update]
  · have same : t'.lookup? name = t.lookup? name := by
      cases owner with
      | none => exact lookup?_eq_of_scopes (by rw [scopes, scopes']; rfl) name
      | some owner =>
        exact lookup?_sized_of_ne scopes scopes' fun same => owned (congrArg some same)
    simp [same, owned]

theorem Formed.lookup?_exited (formed : t.Formed) (done : t.exit = (.ok closed, t')) :
    t'.lookup? name = (t.outside.lookup? name).map fun (e, depth) =>
      (if closed.owner = some name then { e with frameSize := some closed.frameSize } else e,
        depth) := by
  cases formed.step_exit done with
  | @exited inner top rest _ stop scopes =>
    have nested := formed.nested
    rw [scopes] at nested
    have awaits : ∀ name ∈ inner.owner, top.Awaits name := by simpa using nested.2.1
    exact lookup?_sized (t := t.outside) (by simp [outside, scopes]) rfl awaits

theorem lookup?_abandoned (done : t.abandon = (.ok s, t')) :
    t'.lookup? name = t.outside.lookup? name := by
  unfold abandon at done
  split at done
  · next scopes =>
    cases done
    exact lookup?_eq_of_scopes (by simp [outside, scopes]) name
  · cases done

theorem Formed.resolves (formed : t.Formed) : t.Resolves where
  declare_iff _ := exists_declare_iff
  declared _ _ := formed.gains
  lookup_iff _ _ _ := formed.finds_iff
  lookup_level _ _ _ := formed.level_of_lookup
  unknown_iff _ := lookup?_eq_none
  entered id t' done name := by
    rw [(push_eq_ok.1 done).2.2, lookup?_pushed]
  enteredProcedure owner id t' done name := by
    by_cases opens : t.Opens owner
    · rw [enterProcedure_eq opens] at done
      rw [(push_eq_ok.1 done).2.2, lookup?_pushed]
    · obtain ⟨err, refused⟩ := enterProcedure_refused opens
      cases refused.symm.trans done
  exited _ _ done _ := formed.lookup?_exited done
  abandoned _ _ done _ := lookup?_abandoned done

/-- After any run, declaring and looking up obey their laws. -/
theorem resolves_after (policy : Policy) (ops : List Operation) :
    (({ policy } : Table).after ops).Resolves :=
  (formed_after policy ops).resolves

end Table

end ScopeFrames
