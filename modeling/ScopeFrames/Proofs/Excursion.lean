import Mathlib.Data.List.Infix
import ScopeFrames.Proofs.Formed

/-!
Excursions: a scope is opened and, whatever happens until it is closed or dropped, the scopes below
stay as they are, but for the frame size that its owner takes.
-/

namespace ScopeFrames

def Entry.unsized (e : Entry) : Entry := { e with frameSize := none }

namespace Scope

variable {s later last : Scope} {owner : Option String} {name named : String} {size : Int64}
  {f : Entry → Entry} {es : List Entry} {e : Entry}

structure Grows (s later : Scope) : Prop where
  id_eq : later.id = s.id
  level_eq : later.level = s.level
  owner_eq : later.owner = s.owner
  entries : s.entries.toList.map Entry.unsized <+: later.entries.toList.map Entry.unsized

theorem Grows.refl (s : Scope) : s.Grows s := ⟨rfl, rfl, rfl, List.prefix_rfl⟩

theorem Grows.trans (first : s.Grows later) (second : later.Grows last) : s.Grows last where
  id_eq := second.id_eq.trans first.id_eq
  level_eq := second.level_eq.trans first.level_eq
  owner_eq := second.owner_eq.trans first.owner_eq
  entries := first.entries.trans second.entries

theorem grows_extended (s : Scope) (es : List Entry) : s.Grows (s.extended es) where
  id_eq := rfl
  level_eq := rfl
  owner_eq := rfl
  entries := by simp [extended]

theorem grows_sized (s : Scope) (size : Int64) (owner : Option String) :
    s.Grows (s.sized size owner) := by
  cases owner with
  | none => exact .refl s
  | some owner =>
    have same : (s.sized size (some owner)).entries.toList.map Entry.unsized
        = s.entries.toList.map Entry.unsized := by
      simp only [sized, update, Array.toList_map, List.map_map]
      refine List.map_congr_left fun e _ => ?_
      by_cases named : e.name = owner <;> simp [named, Entry.unsized]
    exact ⟨rfl, rfl, rfl, same ▸ List.prefix_rfl⟩

theorem find?_update (keeps : ∀ e, (f e).name = e.name) : (s.update named f).find? name =
    (s.find? name).map fun e => if e.name = named then f e else e := by
  rw [find?_eq, find?_eq, update, Array.toList_map, List.find?_map]
  congr 2
  funext e
  by_cases same : e.name = named <;> simp [same, keeps]

theorem find?_sized_some : (s.sized size (some named)).find? name = (s.find? name).map fun e =>
    if e.name = named then { e with frameSize := some size } else e :=
  find?_update fun _ => rfl

@[simp] theorem sized_names : (s.sized size owner).names = s.names := by
  cases owner with
  | none => rfl
  | some owner => exact update_names fun _ => rfl

theorem find?_unsized (s : Scope) (name : String) : (s.find? name).map Entry.unsized =
    (s.entries.toList.map Entry.unsized).find? (·.name == name) := by
  rw [find?_eq, List.find?_map]
  rfl

theorem Grows.find? (grows : s.Grows later) (old : name ∈ later.names → name ∈ s.names) :
    (later.find? name).map Entry.unsized = (s.find? name).map Entry.unsized := by
  cases found : s.find? name with
  | none => rw [find?_eq_none.2 (mt old (find?_eq_none.1 found))]
  | some e =>
    obtain ⟨gained, split⟩ := grows.entries
    have found' := congrArg (Option.map Entry.unsized) found
    rw [find?_unsized] at found'
    rw [find?_unsized, ← split, List.find?_append, found']
    rfl

theorem find?_sized_of_ne (other : owner ≠ some name) :
    (s.sized size owner).find? name = s.find? name := by
  cases owner with
  | none => rfl
  | some owner =>
    rw [find?_sized_some]
    cases found : s.find? name with
    | none => rfl
    | some e =>
      have elsewhere : e.name ≠ owner := by
        rintro rfl
        exact other (congrArg some (mem_of_find? found).2)
      simp [elsewhere]

theorem sized_split (distinct : s.names.Nodup) (awaits : s.Awaits name) (size : Int64) :
    ∃ front e back, s.entries.toList = front ++ e :: back ∧ e.name = name ∧
      s.sized size (some name) =
        { s with entries := (front ++ { e with frameSize := some size } :: back).toArray } := by
  obtain ⟨e, member, same, -⟩ := awaits
  obtain ⟨front, back, split⟩ := List.mem_iff_append.1 (Array.mem_toList_iff.2 member)
  refine ⟨front, e, back, split, same, ?_⟩
  have whole : s = { s with entries := (front ++ e :: back).toArray } := by
    rw [← split]
  rw [names, split] at distinct
  rw [sized, whole]
  exact update_append same distinct

end Scope

namespace Table

section

variable [Limits] {t t' : Table} {s : Scope} {below : List Scope} {op first last : Operation}
  {o : Outcome} {ops body : List Operation} {owner name : String}

/-- The scope `s` is still open, grown perhaps, and right below it are the scopes `below`. -/
def Over (t : Table) (s : Scope) (below : List Scope) : Prop :=
  ∃ above later, t.scopes = above ++ later :: below ∧ s.Grows later

theorem over_top (scopes : t.scopes = s :: below) : t.Over s below := ⟨[], s, scopes, .refl s⟩

theorem Over.eq_cons (isOver : t.Over s below) (level : t.depth = below.length + 1) :
    ∃ later, t.scopes = later :: below ∧ s.Grows later := by
  obtain ⟨above, later, scopes, grows⟩ := isOver
  have none_above : above = [] := by
    rw [depth, scopes, List.length_append, List.length_cons] at level
    exact List.length_eq_zero_iff.1 (by omega)
  subst none_above
  exact ⟨later, scopes, grows⟩

theorem Step.over (step : t.Step op o t') (isOver : t.Over s below)
    (deep : below.length < t'.depth) : t'.Over s below := by
  obtain ⟨above, later, scopes', grows⟩ := isOver
  cases step with
  | refused => exact ⟨above, later, scopes', grows⟩
  | entered | enteredProcedure => exact ⟨_ :: above, later, congrArg (_ :: ·) scopes', grows⟩
  | @exited top outer rest _ stop scopes _ =>
    rw [scopes] at scopes'
    rcases above with _ | ⟨_, _ | ⟨inner, above⟩⟩
    · obtain ⟨-, rfl⟩ := List.cons.inj scopes'
      simp [depth] at deep
    · obtain ⟨-, scopes'⟩ := List.cons.inj scopes'
      obtain ⟨rfl, rfl⟩ := List.cons.inj scopes'
      exact ⟨[], _, rfl, grows.trans (Scope.grows_sized _ _ _)⟩
    · obtain ⟨-, scopes'⟩ := List.cons.inj scopes'
      obtain ⟨rfl, rfl⟩ := List.cons.inj scopes'
      exact ⟨_ :: above, later, rfl, grows⟩
  | finished => simp [depth] at deep
  | @abandoned top outer rest scopes =>
    rw [scopes] at scopes'
    cases above with
    | nil =>
      obtain ⟨-, rfl⟩ := List.cons.inj scopes'
      simp [depth] at deep
    | cons _ above =>
      obtain ⟨-, scopes'⟩ := List.cons.inj scopes'
      exact ⟨above, later, scopes', grows⟩
  | @declared e top outer stored next scopes _ _ _ _ =>
    rw [scopes] at scopes'
    cases above with
    | nil =>
      obtain ⟨rfl, rfl⟩ := List.cons.inj scopes'
      exact ⟨[], _, rfl, grows.trans (Scope.grows_extended _ _)⟩
    | cons _ above =>
      obtain ⟨rfl, rfl⟩ := List.cons.inj scopes'
      exact ⟨_ :: above, later, rfl, grows⟩

theorem Formed.over_after (formed : t.Formed) (isOver : t.Over s below)
    (deep : ∀ front, front <+: ops → below.length < (t.after front).depth) :
    (t.after ops).Over s below := by
  induction ops generalizing t with
  | nil => exact isOver
  | cons op ops ih =>
    have reached : below.length < (t.apply op).2.depth := deep [op] (by simp)
    refine ih (formed.apply op) ((formed.step op).over isOver reached) fun front early => ?_
    exact deep (op :: front) (by simpa using early)

/-- A run that opens a scope, stays above the scopes there were until its last operation, and comes
back to them by closing or dropping a scope. -/
structure Excursion (t : Table) (first : Operation) (body : List Operation) (last : Operation) :
    Prop where
  opens : first = .enter ∨ ∃ owner, first = .enterProcedure owner
  opened : ∃ id, (t.apply first).1 = .entered id
  stays : ∀ front, front <+: body → t.depth < (t.after (first :: front)).depth
  ends : last = .exit ∨ last = .abandon
  ended : ∀ err, ((t.after (first :: body)).apply last).1 ≠ .refused err
  back : ((t.after (first :: body)).apply last).2.depth = t.depth

def Settles (t : Table) (owner : String) (size : Int64) (t' : Table) : Prop :=
  ∃ top below front e back, t.scopes = top :: below ∧ top.entries.toList = front ++ e :: back ∧
    e.name = owner ∧ t'.scopes =
      { top with entries := (front ++ { e with frameSize := some size } :: back).toArray } :: below

def Operation.owner? : Operation → Option String
  | .enterProcedure owner => some owner
  | _ => none

theorem Step.opened {id : ScopeId} (step : t.Step op (.entered id) t') :
    t' = t.pushed op.owner? ∧ ∀ owner ∈ op.owner?, t.Opens owner := by
  cases step with
  | entered => exact ⟨rfl, by simp [Operation.owner?]⟩
  | enteredProcedure opens =>
    refine ⟨rfl, ?_⟩
    rintro _ ⟨⟩
    exact opens

theorem Opens.awaits {top : Scope} {rest : List Scope} (opens : t.Opens owner)
    (scopes : t.scopes = top :: rest) : top.Awaits owner := by
  obtain ⟨top', first, e, found, owns, unsized⟩ := opens
  rw [scopes, List.head?_cons] at first
  cases first
  obtain ⟨member, same⟩ := Scope.mem_of_find? found
  exact ⟨e, member, same, owns, unsized⟩

theorem Step.closed_over {closed : ClosedScope} (step : t.Step .exit (.closed closed) t')
    (isOver : t.Over s below) (level : t'.depth = below.length) : ∃ top rest, below = top :: rest ∧
      closed.owner = s.owner ∧ t'.scopes = top.sized closed.frameSize s.owner :: rest := by
  cases step with
  | @exited top outer rest _ stop scopes _ =>
    have level' : t.depth = below.length + 1 := by
      rw [← level]
      simp [depth, scopes]
    obtain ⟨later, scopes', grows⟩ := isOver.eq_cons level'
    obtain ⟨rfl, rfl⟩ := List.cons.inj (scopes.symm.trans scopes')
    rw [← grows.owner_eq]
    exact ⟨outer, rest, rfl, rfl, rfl⟩

theorem Step.abandoned_over {dropped : Scope} (step : t.Step .abandon (.abandoned dropped) t')
    (isOver : t.Over s below) (level : t'.depth = below.length) : t'.scopes = below := by
  cases step with
  | @abandoned top outer rest scopes =>
    have level' : t.depth = below.length + 1 := by
      rw [← level]
      simp [depth, scopes]
    obtain ⟨later, scopes', -⟩ := isOver.eq_cons level'
    exact (List.cons.inj (scopes.symm.trans scopes')).2

theorem after_concat (t : Table) (ops : List Operation) (op : Operation) :
    t.after (ops ++ [op]) = ((t.after ops).apply op).2 := by
  simp [after]

theorem Excursion.over (excursion : t.Excursion first body last) (formed : t.Formed) :
    ∃ s, s.owner = first.owner? ∧ (t.after (first :: body)).Over s t.scopes := by
  obtain ⟨id, opened⟩ := excursion.opened
  have step := formed.step first
  rw [opened] at step
  have pushed := step.opened.1
  have stays := excursion.stays
  simp only [after_cons, pushed] at stays
  refine ⟨{ id := ⟨t.nextId⟩, level := t.depth, owner := first.owner? }, rfl, ?_⟩
  rw [after_cons, pushed]
  exact (pushed ▸ formed.apply first).over_after (over_top rfl) stays

theorem Excursion.scopes (excursion : t.Excursion first body last) (formed : t.Formed) :
    ((first = .enter ∨ last = .abandon) ∧
        ((t.after (first :: body)).apply last).2.scopes = t.scopes) ∨
      ∃ owner closed top rest, first = .enterProcedure owner ∧ last = .exit ∧
        ((t.after (first :: body)).apply last).1 = .closed closed ∧ closed.owner = some owner ∧
        t.scopes = top :: rest ∧ ((t.after (first :: body)).apply last).2.scopes
          = top.sized closed.frameSize (some owner) :: rest := by
  obtain ⟨s, owned, isOver⟩ := excursion.over formed
  have reached : (t.after (first :: body)).Formed :=
    after_induction formed fun _ op _ formed => formed.apply op
  have step := reached.step last
  have level := excursion.back
  have ended := excursion.ended
  rcases excursion.ends with rfl | rfl
  · cases outcome : ((t.after (first :: body)).apply .exit).1 with
    | closed closed =>
      rw [outcome] at step
      obtain ⟨top, rest, below, owner, scopes⟩ := step.closed_over isOver level
      rw [owned] at owner scopes
      rcases excursion.opens with rfl | ⟨name, rfl⟩
      · exact .inl ⟨.inl rfl, scopes.trans below.symm⟩
      · exact .inr ⟨name, closed, top, rest, rfl, rfl, rfl, owner, below, scopes⟩
    | refused err => exact absurd outcome (ended err)
    | entered | abandoned | declared => rw [outcome] at step; cases step
  · cases outcome : ((t.after (first :: body)).apply .abandon).1 with
    | abandoned dropped =>
      rw [outcome] at step
      exact .inl ⟨.inr rfl, step.abandoned_over isOver level⟩
    | refused err => exact absurd outcome (ended err)
    | entered | closed | declared => rw [outcome] at step; cases step

theorem Excursion.opens_owner (excursion : t.Excursion (.enterProcedure owner) body last)
    (formed : t.Formed) : t.Opens owner := by
  obtain ⟨id, opened⟩ := excursion.opened
  have step := formed.step (.enterProcedure owner)
  rw [opened] at step
  exact step.opened.2 owner rfl

theorem Formed.settles {top : Scope} {rest : List Scope} {size : Int64} (formed : t.Formed)
    (opens : t.Opens owner) (scopes : t.scopes = top :: rest)
    (scopes' : t'.scopes = top.sized size (some owner) :: rest) : t.Settles owner size t' := by
  have nested := formed.nested
  rw [scopes] at nested
  obtain ⟨front, e, back, split, same, sized⟩ :=
    Scope.sized_split nested.1.room.distinct (opens.awaits scopes) size
  exact ⟨top, rest, front, e, back, scopes, split, same, scopes'.trans (by rw [sized])⟩

theorem lookup?_eq_of_scopes (scopes : t'.scopes = t.scopes) (name : String) :
    t'.lookup? name = t.lookup? name := by
  simp only [lookup?, scopes]

theorem lookup?_sized_of_ne {top : Scope} {rest : List Scope} {size : Int64}
    (scopes : t.scopes = top :: rest)
    (scopes' : t'.scopes = top.sized size (some owner) :: rest) (other : owner ≠ name) :
    t'.lookup? name = t.lookup? name := by
  have found : (top.sized size (some owner)).find? name = top.find? name :=
    Scope.find?_sized_of_ne fun same => other (Option.some.inj same)
  have level : (top.sized size (some owner)).level = top.level := rfl
  simp only [lookup?, scopes, scopes', List.findSome?_cons, found, level]

theorem lookup?_grows {later : Scope} (scopes : t.scopes = s :: below)
    (scopes' : t'.scopes = later :: below) (grows : s.Grows later)
    (old : name ∈ later.names → name ∈ s.names) :
    (t'.lookup? name).map (Prod.map Entry.unsized id) =
      (t.lookup? name).map (Prod.map Entry.unsized id) := by
  have found := grows.find? old
  simp only [lookup?, scopes, scopes', List.findSome?_cons, grows.level_eq]
  cases before : s.find? name with
  | none =>
    rw [before, Option.map_none, Option.map_eq_none_iff] at found
    simp [found]
  | some e =>
    rw [before, Option.map_some, Option.map_eq_some_iff] at found
    obtain ⟨e', after, same⟩ := found
    simp [after, same]

/-- After any run, an excursion from there leaves the scopes and what is found in them as they were,
but for the frame size of a procedure whose scope was closed. -/
theorem excursion_scopes (policy : Policy) (ops : List Operation)
    (excursion : (({ policy } : Table).after ops).Excursion first body last) :
    let t := ({ policy } : Table).after ops
    let t' := t.after (first :: body ++ [last])
    ((first = .enter ∨ last = .abandon) → t'.scopes = t.scopes) ∧
      (∀ owner, first = .enterProcedure owner → last = .exit → ∃ closed,
        ((t.after (first :: body)).apply last).1 = .closed closed ∧ closed.owner = some owner ∧
          t.Settles owner closed.frameSize t') ∧
      (∀ name, first ≠ .enterProcedure name → t'.lookup? name = t.lookup? name) ∧
      ∀ name, (t'.lookup? name).map (Prod.map Entry.unsized id) =
        (t.lookup? name).map (Prod.map Entry.unsized id) := by
  intro t t'
  have formed : t.Formed := formed_after policy ops
  have whole : t' = ((t.after (first :: body)).apply last).2 := after_concat t _ last
  rw [whole]
  rcases excursion.scopes formed with ⟨anonymous, same⟩ | ⟨owner, closed, top, rest, rfl, rfl,
    outcome, owned, scopes, scopes'⟩
  · refine ⟨fun _ => same, ?_, fun name _ => lookup?_eq_of_scopes same name, fun name => ?_⟩
    · rintro owner rfl rfl
      rcases anonymous with impossible | impossible <;> cases impossible
    · rw [lookup?_eq_of_scopes same name]
  · have settles : t.Settles owner closed.frameSize
        ((t.after (.enterProcedure owner :: body)).apply .exit).2 :=
      formed.settles (excursion.opens_owner formed) scopes scopes'
    refine ⟨?_, ?_, ?_, fun name =>
      lookup?_grows scopes scopes' (Scope.grows_sized _ _ _) (by simp)⟩
    · rintro (impossible | impossible) <;> cases impossible
    · rintro _ ⟨⟩ -
      exact ⟨closed, outcome, owned, settles⟩
    · intro name other
      refine lookup?_sized_of_ne scopes scopes' ?_
      rintro rfl
      exact other rfl

end

def premises : List Operation :=
  [.enter, .declare (.program "m"), .declare (.procedure "p"), .declare (.simple "x" .int)]

def innerDeclarations : List Operation :=
  [ .declare (.simple "x" .boolean), .enter, .declare (.array "a" .char none), .exit, .finish,
    .abandon, .enterProcedure "p", .declare (.procedure "p"), .enterProcedure "p", .exit ]

theorem innerDeclarations_excursion :
    (({ policy := {} } : Table).after premises).Excursion
      (.enterProcedure "p") innerDeclarations .exit where
  opens := .inr ⟨"p", rfl⟩
  opened := ⟨⟨1⟩, by decide +kernel⟩
  stays := by
    have stays : ∀ front ∈ innerDeclarations.inits,
        (({ policy := {} } : Table).after premises).depth <
        ((({ policy := {} } : Table).after premises).after
          (.enterProcedure "p" :: front)).depth := by
      decide +kernel
    exact fun front early => stays front ((List.mem_inits front innerDeclarations).2 early)
  ends := .inl rfl
  ended := by
    have closes : ((((({ policy := {} } : Table).after premises).after
        (.enterProcedure "p" :: innerDeclarations)).apply .exit).1 matches .refused _) = false := by
      decide +kernel
    intro err refused
    rw [refused] at closes
    cases closes
  back := by decide +kernel

theorem innerDeclarations_scopes :
    let t := ({ policy := {} } : Table).after premises
    let t' := t.after (.enterProcedure "p" :: innerDeclarations ++ [.exit])
    t.Excursion (.enterProcedure "p") innerDeclarations .exit ∧
      (∃ closed : ClosedScope, closed.owner = some "p" ∧ t.Settles "p" closed.frameSize t') ∧
      t'.lookup? "x" = t.lookup? "x" := by
  obtain ⟨-, settles, others, -⟩ := excursion_scopes {} premises innerDeclarations_excursion
  obtain ⟨closed, -, owned, settles⟩ := settles "p" rfl rfl
  exact ⟨innerDeclarations_excursion, ⟨closed, owned, settles⟩, others "x" (by simp)⟩

end Table

end ScopeFrames
