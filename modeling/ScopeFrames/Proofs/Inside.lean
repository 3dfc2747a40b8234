import ScopeFrames.Proofs.Formed
import ScopeFrames.Proofs.Program

namespace ScopeFrames

namespace Table

def levelOf? (scopes : List Scope) (name : String) : Option Nat :=
  scopes.findSome? fun s => if name ∈ s.names then some s.level else none

variable {top : Scope} {outer : List Scope} {reach : List (String × Nat)} {e : Entry}

theorem reaches_extended {name : String} (named : e.name = name)
    (reaches : ∀ name, levelOf? (top :: outer) name = reach.lookup name) (sought : String) :
    levelOf? (top.extended [e] :: outer) sought = ((name, top.level) :: reach).lookup sought := by
  rw [List.lookup_cons, ← reaches]
  by_cases same : sought = name
  · simp [levelOf?, same, named]
  · have other : (sought == name) = false := by simpa using same
    simp [levelOf?, List.findSome?_cons, same, other, named]

theorem reaches_entered {id level : Nat} {owner : Option String}
    (reaches : ∀ name, levelOf? (top :: outer) name = reach.lookup name) (name : String) :
    levelOf? ({ id := ⟨id⟩, level, owner } :: top :: outer) name = reach.lookup name := by
  rw [← reaches]
  simp [levelOf?, Scope.names]

end Table

variable [Limits]

theorem Scope.sized_extended {s : Scope} {e : Entry} (room : Room (s.names ++ [e.name]))
    (size : Int64) :
    (s.extended [e]).sized size (some e.name) = s.extended [{ e with frameSize := some size }] := by
  apply Scope.update_append rfl
  simpa [names] using room.distinct

namespace Table

variable {t t' : Table} {top inner : Scope} {outer : List Scope} {e : Entry} {scope : ClosedScope}

theorem Formed.declare_iff (formed : t.Formed) (scopes : t.scopes = top :: outer) :
    t.declare e = (.ok (), t') ↔ Room (top.names ++ [e.name]) ∧
      ∃ stored next, Table.labelled e t.nextLabel = .ok (stored, next) ∧
        t' = { t with
          scopes := top.extended [stored.atLevel top.level] :: outer, nextLabel := next } := by
  have nested := formed.nested
  rw [scopes] at nested
  rw [declare_eq_ok, room_concat, Scope.length_names]
  constructor
  · rintro ⟨_, _, stored, next, scopes', short, fresh, few, labelled, rfl⟩
    cases scopes.symm.trans scopes'
    exact ⟨⟨nested.1.room, short, fresh, few⟩, stored, next, labelled, rfl⟩
  · rintro ⟨⟨-, short, fresh, few⟩, stored, next, labelled, rfl⟩
    exact ⟨top, outer, stored, next, scopes, short, fresh, few, labelled, rfl⟩

def promising (t : Table) (top : Scope) (outer : List Scope) (e : Entry) : Table :=
  { t with
    scopes := top.extended [e.labelled top.level t.nextLabel] :: outer
    nextLabel := t.nextLabel + 1 }

theorem Formed.declare_owner (formed : t.Formed) (scopes : t.scopes = top :: outer)
    (owns : e.category.ownsFrame = true) (bare : e.label = none) :
    t.declare e = (.ok (), t') ↔ Room (top.names ++ [e.name]) ∧ t.nextLabel < Limits.maxLabel ∧
      t' = t.promising top outer e := by
  rw [formed.declare_iff scopes]
  simp only [labelled_eq_ok, owns, bare, and_self, if_true]
  constructor
  · rintro ⟨room, _, _, ⟨counter, rfl, rfl⟩, rfl⟩
    exact ⟨room, counter, rfl⟩
  · rintro ⟨room, counter, rfl⟩
    exact ⟨room, _, _, ⟨counter, rfl, rfl⟩, rfl⟩

theorem Formed.declare_plain (formed : t.Formed) (scopes : t.scopes = top :: outer)
    (plain : e.category.ownsFrame = false) :
    t.declare e = (.ok (), t') ↔ Room (top.names ++ [e.name]) ∧
      t' = { t with scopes := top.extended [e.atLevel top.level] :: outer } := by
  rw [formed.declare_iff scopes]
  simp only [labelled_eq_ok, plain, Bool.false_eq_true, false_and, if_false]
  constructor
  · rintro ⟨room, _, _, ⟨rfl, rfl⟩, rfl⟩
    exact ⟨room, rfl⟩
  · rintro ⟨room, rfl⟩
    exact ⟨room, _, _, ⟨rfl, rfl⟩, rfl⟩

theorem Formed.exit_iff (formed : t.Formed) (scopes : t.scopes = inner :: top :: outer) :
    t.exit = (.ok scope, t') ↔ t.policy.Laid inner.entries.toList ∧
      scope = t.policy.close inner.id.number inner.level inner.owner inner.entries.toList ∧
      t' = { t with
        scopes := top.sized (t.policy.frameSize inner.entries.toList) inner.owner :: outer } := by
  rw [Policy.laid_iff]
  cases laid : t.policy.layout inner.entries.toList with
  | error err => simp [Table.exit_eq_error scopes laid]
  | ok frame =>
    obtain ⟨offsets, stop, lays, -⟩ := Policy.layout_eq_ok.1 laid
    rw [exit_eq_ok formed scopes lays]
    simp [ClosedScope.ofScope, Policy.close, Scope.placed, lays.placed_eq, lays.frameSize_eq,
      eq_comm]

theorem Formed.finish_iff {es : List Entry} (formed : t.Formed) (scopes : t.scopes = [top])
    (entries : top.entries.toList = e :: es) (program : e.category = .program)
    (unsized : e.frameSize = none) :
    t.finish = (.ok scope, t') ↔ t.policy.Laid (e :: es) ∧
      scope = t.policy.close top.id.number top.level (some e.name)
        ({ e with frameSize := some (t.policy.frameSize (e :: es)) } :: es) ∧
      t' = { t with scopes := [] } := by
  have nested := formed.nested
  rw [scopes] at nested
  have distinct := nested.1.room.distinct
  have first : top.programEntry? = some e := by
    rw [Scope.programEntry?, ← Array.find?_toList, entries]
    simp [program]
  rw [Scope.names, entries] at distinct
  rw [← entries, Policy.laid_iff]
  cases laid : t.policy.layout top.entries.toList with
  | error err => simp [Table.finish_eq_error scopes laid]
  | ok frame =>
    obtain ⟨offsets, stop, lays, -⟩ := Policy.layout_eq_ok.1 laid
    rw [finish_eq_ok formed scopes lays (by simpa [first] using unsized), first]
    have names : ((t.policy.placed t.policy.baseOffset.toInt (e :: es)).map (·.name)).Nodup := by
      rwa [Policy.placed_names]
    have sized : (top.placed offsets).sized stop (some e.name) = { top with
        entries := (t.policy.placed t.policy.baseOffset.toInt
          ({ e with frameSize := some stop } :: es)).toArray } := by
      rw [Scope.placed, lays.placed_eq, entries]
      exact Scope.update_head names
    have size : t.policy.frameSize ({ e with frameSize := some stop } :: es) = stop :=
      (congrArg t.policy.frameSize entries).symm.trans lays.frameSize_eq
    simp [sized, size, ClosedScope.ofScope, Policy.close, lays.frameSize_eq, eq_comm]

theorem Formed.of_apply (formed : t.Formed) (op : Operation) (applied : (t.apply op).2 = t') :
    t'.Formed := applied ▸ formed.apply op

theorem Formed.declared (formed : t.Formed) (done : t.declare e = (.ok (), t')) : t'.Formed :=
  formed.of_apply (.declare e) (by simp [Table.apply, done])

theorem Formed.enterProcedure_extended (formed : t.Formed)
    (scopes : t.scopes = top.extended [e] :: outer) (owns : e.category.ownsFrame = true)
    (unsized : e.frameSize = none) : t.enterProcedure e.name = t.push (some e.name) :=
  enterProcedure_eq (formed.opens_extended scopes owns unsized)

theorem lookup?_level (t : Table) (name : String) :
    (t.lookup? name).map (·.2) = levelOf? t.scopes name := by
  simp only [lookup?, levelOf?, List.map_findSome?]
  congr 1
  funext s
  by_cases declared : name ∈ s.names
  · obtain ⟨e, found⟩ :=
      Option.ne_none_iff_exists'.1 (mt Scope.find?_eq_none.1 (not_not_intro declared))
    simp [declared, found]
  · simp [declared, Scope.find?_eq_none.2 declared]

/-- A formed table with an open scope, where `reach` holds the names in reach and their levels. -/
structure Inside (t : Table) (top : Scope) (outer : List Scope) (reach : List (String × Nat)) :
    Prop where
  formed : t.Formed
  scopes : t.scopes = top :: outer
  reaches : ∀ name, levelOf? (top :: outer) name = reach.lookup name

variable {reach : List (String × Nat)}

theorem Inside.level_eq (inside : t.Inside top outer reach) : top.level = outer.length := by
  have nested := inside.formed.nested
  rw [inside.scopes] at nested
  exact nested.1.level_eq

end Table

namespace View

open Table

variable {v w x y : View} {s : Step} {steps front back : List Step} {top : Scope}
  {outer : List Scope} {reach : List (String × Nat)}

theorem Takes.formed (takes : v.Takes s w) (formed : v.table.Formed) : w.table.Formed := by
  unfold Takes at takes
  split at takes
  · obtain ⟨id, t, t', -, entered, declared, rfl⟩ := takes
    have formed : t.Formed := formed.of_apply .enter (by simp [apply, entered])
    exact formed.of_apply (.declare (.program s.name)) (by simp [apply, declared])
  · obtain ⟨id, t, t', declared, entered, rfl⟩ := takes
    have formed : t.Formed :=
      formed.of_apply (.declare (.procedure s.name)) (by simp [apply, declared])
    exact formed.of_apply (.enterProcedure s.name) (by simp [apply, entered])
  · obtain ⟨id, t, entered, rfl⟩ := takes
    exact formed.of_apply .enter (by simp [apply, entered])
  · unfold Closes at takes
    split at takes
    · obtain ⟨scope, t, finished, rfl⟩ := takes
      exact formed.of_apply .finish (by simp [apply, finished])
    · rw [takes]
      exact formed
    · obtain ⟨scope, t, exited, rfl⟩ := takes
      exact formed.of_apply .exit (by simp [apply, exited])
    · obtain ⟨scope, t, exited, rfl⟩ := takes
      exact formed.of_apply .exit (by simp [apply, exited])
    · obtain ⟨scope, t, exited, rfl⟩ := takes
      exact formed.of_apply .exit (by simp [apply, exited])
  · split at takes
    · rw [takes]
      exact formed
    · obtain ⟨e, t, -, declared, rfl⟩ := takes
      exact formed.of_apply (.declare e) (by simp [apply, declared])
  · obtain ⟨found, -, rfl⟩ := takes
    exact formed

theorem Path.formed (path : v.Path steps w) (formed : v.table.Formed) : w.table.Formed := by
  induction steps generalizing v with
  | nil =>
    cases path
    exact formed
  | cons s steps ih =>
    obtain ⟨u, takes, path⟩ := path
    exact ih path (takes.formed formed)

/-- Under a condition, and only then, some steps lead from a view to a next one. -/
def Leads (v : View) (steps : List Step) (condition : Prop) (x : View) : Prop :=
  ∀ w, v.Path steps w ↔ condition ∧ w = x

namespace Leads

variable {condition condition' : Prop}

theorem step (takes : ∀ w, v.Takes s w ↔ condition ∧ w = x) : v.Leads [s] condition x := by
  intro w
  simp [takes, and_assoc]

theorem append (first : v.Leads front condition x)
    (second : condition → x.Leads back condition' y) :
    v.Leads (front ++ back) (condition ∧ condition') y := by
  intro w
  simp only [path_append, first _, and_assoc, exists_and_left, exists_eq_left]
  exact and_congr_right fun holds => second holds w

theorem cons (first : v.Leads [s] condition x) (second : condition → x.Leads steps condition' y) :
    v.Leads (s :: steps) (condition ∧ condition') y :=
  first.append second

theorem congr (leads : v.Leads steps condition x) (same : condition ↔ condition') (next : x = y) :
    v.Leads steps condition' y := by
  intro w
  rw [← same, ← next]
  exact leads w

theorem formed (leads : v.Leads steps condition x) (holds : condition)
    (formed : v.table.Formed) : x.table.Formed :=
  Path.formed ((leads x).2 ⟨holds, rfl⟩) formed

end Leads

def declaring (v : View) (top : Scope) (outer : List Scope) (reach : List (String × Nat))
    (d : Declaration) (span : Span) : View :=
  { v with
    table := { v.table with scopes := top.extended [d.plain.atLevel top.level] :: outer }
    declared := v.declared + 1
    diagnostics := v.diagnostics
      ++ v.preferences.hides (reach.lookup d.name) d.name span (some top.level) }

def entering (v : View) (top : Scope) (outer : List Scope) (name : String) : View :=
  { v with
    table := (v.table.promising top outer (.procedure name)).pushed (some name)
    opened := .procedure name :: v.opened
    declared := v.declared + 1 }

def starting (v : View) (name : String) : View :=
  { v with
    table := (v.table.pushed none).promising { id := ⟨v.table.nextId⟩, level := 0 } []
      (.program name)
    opened := [.program]
    declared := v.declared + 1 }

theorem leads_declare {d : Declaration} (inside : v.table.Inside top outer reach)
    (kind : s.kind = .declare) (given : s.declaration? = some d)
    (plain : d.plain.category.ownsFrame = false) :
    v.Leads [s] (d.Ordered ∧ Room (top.names ++ [d.name]))
      (v.declaring top outer reach d s.span) := by
  have declares (t : Table) : v.table.declare d.plain = (.ok (), t) ↔ _ :=
    inside.formed.declare_plain inside.scopes plain
  simp only [d.plain_name] at declares
  refine .step fun w => ?_
  simp only [Takes, kind, given, lookup?_level, inside.scopes, inside.reaches,
    Declaration.entry_eq_ok]
  constructor
  · rintro ⟨_, _, ⟨ordered, rfl⟩, declared, rfl⟩
    obtain ⟨room, rfl⟩ := (declares _).1 declared
    exact ⟨⟨ordered, room⟩, by simp [declaring, level?, inside.level_eq]⟩
  · rintro ⟨⟨ordered, room⟩, rfl⟩
    refine ⟨_, _, ⟨ordered, rfl⟩, (declares _).2 ⟨room, rfl⟩, ?_⟩
    simp [declaring, level?, inside.level_eq]

theorem leads_resolve (inside : v.table.Inside top outer reach) (kind : s.kind = .resolve) :
    v.Leads [s] (s.name ∈ reach.map (·.1)) { v with resolved := v.resolved + 1 } := by
  have known : (∃ found, v.table.lookup? s.name = some found) ↔ s.name ∈ reach.map (·.1) := by
    have level := v.table.lookup?_level s.name
    rw [inside.scopes, inside.reaches] at level
    rw [← Option.isSome_iff_exists, ← Option.isSome_map, level]
    simp
  refine .step fun w => ?_
  simp only [Takes, kind, ← known, exists_and_right]

theorem leads_block (inside : v.table.Inside top outer reach) (kind : s.kind = .block) :
    v.Leads [s] (outer.length + 1 < Limits.scopeDepth)
      { v with table := v.table.pushed none, opened := .block :: v.opened } := by
  refine .step fun w => ?_
  simp only [Takes, kind, enter, push_eq_ok, depth, inside.scopes]
  constructor
  · rintro ⟨_, _, ⟨room, -, rfl⟩, rfl⟩
    exact ⟨room, rfl⟩
  · rintro ⟨room, rfl⟩
    exact ⟨_, _, ⟨room, rfl, rfl⟩, rfl⟩

theorem leads_procedure (inside : v.table.Inside top outer reach) (kind : s.kind = .procedure) :
    v.Leads [s] (Room (top.names ++ [s.name]) ∧ v.table.nextLabel < Limits.maxLabel ∧
      outer.length + 1 < Limits.scopeDepth) (v.entering top outer s.name) := by
  have declares (t : Table) : v.table.declare (.procedure s.name) = (.ok (), t) ↔ _ :=
    inside.formed.declare_owner inside.scopes rfl rfl
  have enters (formed : (v.table.promising top outer (.procedure s.name)).Formed) :
      (v.table.promising top outer (.procedure s.name)).enterProcedure s.name
        = (v.table.promising top outer (.procedure s.name)).push (some s.name) :=
    formed.enterProcedure_extended rfl rfl rfl
  refine .step fun w => ?_
  simp only [Takes, kind]
  constructor
  · rintro ⟨_, _, _, declared, entered, rfl⟩
    have formed := inside.formed.declared declared
    obtain ⟨room, counter, rfl⟩ := (declares _).1 declared
    obtain ⟨shallow, -, rfl⟩ := push_eq_ok.1 ((enters formed).symm.trans entered)
    exact ⟨⟨room, counter, shallow⟩, rfl⟩
  · rintro ⟨⟨room, counter, shallow⟩, rfl⟩
    have declared := (declares _).2 ⟨room, counter, rfl⟩
    have entered := enters (inside.formed.declared declared)
    exact ⟨_, _, _, declared, entered.trans (push_eq_ok.2 ⟨shallow, rfl, rfl⟩), rfl⟩

theorem leads_program (formed : v.table.Formed) (scopes : v.table.scopes = [])
    (opened : v.opened = []) (kind : s.kind = .program) :
    v.Leads [s] (Room [s.name] ∧ v.table.nextLabel < Limits.maxLabel) (v.starting s.name) := by
  have room : v.table.depth < Limits.scopeDepth := by
    rw [depth, scopes]
    exact Limits.scopeDepth_pos
  have enters : v.table.enter = (.ok ⟨v.table.nextId⟩, v.table.pushed none) :=
    push_eq_ok.2 ⟨room, rfl, rfl⟩
  have pushed : (v.table.pushed none).scopes = [{ id := ⟨v.table.nextId⟩, level := 0 }] := by
    simp [Table.pushed, depth, scopes]
  have declares (t : Table) :
      (v.table.pushed none).declare (.program s.name) = (.ok (), t) ↔ _ :=
    (formed.pushed room (by simp)).declare_owner pushed rfl rfl
  refine .step fun w => ?_
  simp only [Takes, kind, opened, enters]
  constructor
  · rintro ⟨_, _, _, -, ⟨⟩, declared, rfl⟩
    obtain ⟨room, counter, rfl⟩ := (declares _).1 declared
    exact ⟨⟨room, counter⟩, rfl⟩
  · rintro ⟨⟨room, counter⟩, rfl⟩
    exact ⟨_, _, _, trivial, rfl, (declares _).2 ⟨room, counter, rfl⟩, rfl⟩

theorem leads_close {inner : Scope} {o : Opened} {opened : List Opened} (formed : v.table.Formed)
    (scopes : v.table.scopes = inner :: top :: outer) (kind : s.kind = .close)
    (opens : v.opened = o :: opened) (nested : o ≠ .program) (real : o ≠ .placeholder) :
    v.Leads [s] (v.table.policy.Laid inner.entries.toList) { v with
      table := { v.table with
        scopes := top.sized (v.table.policy.frameSize inner.entries.toList) inner.owner :: outer }
      opened := opened
      closed := v.closed ++ [v.table.policy.close inner.id.number inner.level inner.owner
        inner.entries.toList] } := by
  have closes (w : View) : v.Closes w ↔ ∃ scope t, v.table.exit = (.ok scope, t) ∧
      w = { v with table := t, opened := opened, closed := v.closed ++ [scope] } := by
    cases o with
    | program => exact absurd rfl nested
    | placeholder => exact absurd rfl real
    | procedure _ | block => simp only [Closes, opens]
  refine .step fun w => ?_
  simp only [Takes, kind, closes, formed.exit_iff scopes]
  constructor
  · rintro ⟨_, _, ⟨laid, rfl, rfl⟩, rfl⟩
    exact ⟨laid, rfl⟩
  · rintro ⟨laid, rfl⟩
    exact ⟨_, _, ⟨laid, rfl, rfl⟩, rfl⟩

theorem leads_finish {e : Entry} {es : List Entry} (formed : v.table.Formed)
    (scopes : v.table.scopes = [top]) (entries : top.entries.toList = e :: es)
    (program : e.category = .program) (unsized : e.frameSize = none) (kind : s.kind = .close)
    (opened : v.opened = [.program]) :
    v.Leads [s] (v.table.policy.Laid (e :: es)) { v with
      table := { v.table with scopes := [] }
      opened := []
      closed := v.closed ++ [v.table.policy.close top.id.number top.level (some e.name)
        ({ e with frameSize := some (v.table.policy.frameSize (e :: es)) } :: es)] } := by
  refine .step fun w => ?_
  simp only [Takes, kind, Closes, opened, formed.finish_iff scopes entries program unsized]
  constructor
  · rintro ⟨_, _, ⟨laid, rfl, rfl⟩, rfl⟩
    exact ⟨laid, rfl⟩
  · rintro ⟨laid, rfl⟩
    exact ⟨_, _, ⟨laid, rfl, rfl⟩, rfl⟩

end View

end ScopeFrames
