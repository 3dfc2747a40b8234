import ScopeFrames.Proofs.Operation

namespace ScopeFrames

variable {r : String → String} {α : Type}

def Entry.rename (r : String → String) (e : Entry) : Entry := { e with name := r e.name }

def Layout.renameAt (r : String → String) (place : String × Int64) : String × Int64 :=
  (r place.1, place.2)

def Layout.rename (r : String → String) (l : Layout) : Layout :=
  { l with offsets := l.offsets.map (renameAt r) }

def Scope.rename (r : String → String) (s : Scope) : Scope :=
  { s with
    owner := s.owner.map r
    entries := s.entries.map (Entry.rename r) }

def ClosedScope.rename (r : String → String) (s : ClosedScope) : ClosedScope :=
  { s with
    owner := s.owner.map r
    entries := s.entries.map (Entry.rename r) }

inductive Echoes (f : α → α) : Except TableError α → Except TableError α → Prop
  | ok {a} : Echoes f (.ok a) (.ok (f a))
  | error {e e'} : e'.code = e.code → Echoes f (.error e) (.error e')

namespace Entry

theorem withFrameSize_rename (e : Entry) (size : Int64) :
    Echoes (rename r) (e.withFrameSize size) ((e.rename r).withFrameSize size) := by
  unfold withFrameSize
  by_cases owns : e.category.ownsFrame
  · by_cases sized : e.frameSize.isSome
    · simpa [rename, owns, sized] using .error rfl
    · simpa [rename, owns, sized] using .ok
  · simpa [rename, owns] using .error rfl

end Entry

namespace Scope

variable {s : Scope}

@[simp] theorem rename_level : (s.rename r).level = s.level := rfl

@[simp] theorem rename_owner : (s.rename r).owner = s.owner.map r := rfl

@[simp] theorem rename_size : (s.rename r).size = s.size := by simp [rename, size]

theorem toList_rename : (s.rename r).entries.toList = s.entries.toList.map (Entry.rename r) := by
  simp [rename]

theorem programEntry?_rename :
    programEntry? (s.rename r) = s.programEntry?.map (Entry.rename r) := by
  unfold programEntry?
  simp only [rename, Array.find?_map, Function.comp_def]
  rfl

theorem map_modify {xs : Array Entry} {g h : Entry → Entry} (i : Nat)
    (commutes : ∀ e, (g e).rename r = h (e.rename r)) :
    (xs.map (Entry.rename r)).modify i h = (xs.modify i g).map (Entry.rename r) := by
  apply Array.ext
  · simp
  · intro j _ _
    simp only [Array.getElem_modify, Array.getElem_map]
    split <;> simp [commutes]

end Scope

theorem ofScope_rename (s : Scope) (owner : Option String) (frameSize : Int64) :
    (ClosedScope.ofScope s owner frameSize).rename r =
      .ofScope (s.rename r) (owner.map r) frameSize := by
  simp [ClosedScope.rename, ClosedScope.ofScope, Scope.rename]

namespace Policy

variable {p : Policy}

theorem size_rename (e : Entry) : Echoes id (p.size e) (p.size (e.rename r)) := by
  unfold size
  simp only [Entry.rename]
  cases e.category with
  | int | boolean | char =>
    simp only
    split
    · exact .ok
    · exact .error rfl
  | procedure | program | notApplicable => exact .ok
  | undefined => exact .error rfl
  | array =>
    simp only
    split
    · exact .error rfl
    · split
      · exact .error rfl
      · split
        · exact .error rfl
        · exact .ok

theorem layoutFrom_rename (cursor : Int64) (placed : List (String × Int64)) (es : List Entry) :
    Echoes (Layout.rename r) (p.layoutFrom cursor placed es)
      (p.layoutFrom cursor (placed.map (Layout.renameAt r)) (es.map (Entry.rename r))) := by
  induction es generalizing cursor placed with
  | nil =>
    rw [layoutFrom, List.map_nil, layoutFrom, ← List.map_reverse]
    exact .ok
  | cons e es ih =>
    simp only [layoutFrom, List.map_cons]
    refine (size_rename e).casesOn (fun {size} => ?_) .error
    simp only [id]
    cases Word.add? cursor size with
    | none => exact .error rfl
    | some next => exact ih next _

theorem layout_rename (es : List Entry) : Echoes (Layout.rename r) (p.layout es)
    (p.layout (es.map (Entry.rename r))) :=
  layoutFrom_rename p.baseOffset [] es

end Policy

theorem Table.labelled_rename (e : Entry) (next : Nat) :
    Echoes (Prod.map (Entry.rename r) id) (Table.labelled e next)
      (Table.labelled (e.rename r) next) := by
  unfold Table.labelled
  have owns : (e.rename r).category.ownsFrame = e.category.ownsFrame := rfl
  have bare : (e.rename r).label.isNone = e.label.isNone := rfl
  rw [owns, bare]
  split
  · split
    · exact .ok
    · exact .error rfl
  · exact .ok

variable [Limits]

/-- Other names, distinct where the old ones were, and too long where they were. -/
structure Renaming (r : String → String) : Prop where
  injective : Function.Injective r
  empty : r "" = ""
  long : ∀ name, Limits.identifierBytes < (r name).utf8ByteSize ↔
    Limits.identifierBytes < name.utf8ByteSize

def Table.rename (r : String → String) (t : Table) : Table :=
  { t with scopes := t.scopes.map (Scope.rename r) }

inductive Mirrors (r : String → String) (f : α → α) :
    Except TableError α × Table → Except TableError α × Table → Prop
  | ok {a t} : Mirrors r f (.ok a, t) (.ok (f a), t.rename r)
  | error {e e' t} : e'.code = e.code → Mirrors r f (.error e, t) (.error e', t.rename r)

theorem Renaming.beq (names : Renaming r) (a b : String) : (r a == r b) = (a == b) := by
  rw [Bool.eq_iff_iff, beq_iff_eq, beq_iff_eq, names.injective.eq_iff]

theorem Renaming.swap {n m : String} (named : n ≠ "") (named' : m ≠ "")
    (short : n.utf8ByteSize ≤ Limits.identifierBytes)
    (short' : m.utf8ByteSize ≤ Limits.identifierBytes) : Renaming (Equiv.swap n m) where
  injective := Equiv.injective _
  empty := Equiv.swap_apply_of_ne_of_ne named.symm named'.symm
  long name := by
    by_cases first : name = n
    · rw [first, Equiv.swap_apply_left]
      omega
    · by_cases second : name = m
      · rw [second, Equiv.swap_apply_right]
        omega
      · rw [Equiv.swap_apply_of_ne_of_ne first second]

namespace Scope

variable {s : Scope} {e : Entry}

theorem find?_rename (names : Renaming r) (name : String) :
    (s.rename r).find? (r name) = (s.find? name).map (Entry.rename r) := by
  simp only [find?, rename, Array.find?_map, Function.comp_def, Entry.rename, names.beq]

theorem index?_rename (names : Renaming r) (name : String) :
    (s.rename r).index? (r name) = s.index? name := by
  simp only [index?, rename, Array.findIdx?_map, Function.comp_def, Entry.rename, names.beq]

theorem declares_rename (names : Renaming r) (name : String) :
    (s.rename r).declares (r name) = s.declares name := by
  simp only [declares, rename, Array.any_map, Function.comp_def, Entry.rename, names.beq]

theorem add_rename (names : Renaming r) (e : Entry) :
    Echoes (rename r) (s.add e) ((s.rename r).add (e.rename r)) := by
  unfold add
  rw [show (e.rename r).name = r e.name from rfl, declares_rename names]
  split
  · exact .error rfl
  · have pushed : ({ s.rename r with
        entries := (s.rename r).entries.push ((e.rename r).atLevel s.level) } : Scope) =
        rename r { s with entries := s.entries.push (e.atLevel s.level) } := by
      simp [rename, Entry.rename, Entry.atLevel]
    exact pushed ▸ .ok

theorem setOffset_rename (names : Renaming r) (name : String) (offset : Int64) :
    Echoes (rename r) (s.setOffset name offset) ((s.rename r).setOffset (r name) offset) := by
  unfold setOffset
  rw [index?_rename names]
  cases s.index? name with
  | none => exact .error rfl
  | some i =>
    have modified : (s.rename r).entries.modify i (·.withOffset offset) =
        (s.entries.modify i (·.withOffset offset)).map (Entry.rename r) :=
      map_modify i fun _ => rfl
    simp only [modified]
    exact .ok

theorem setOffsets_rename (names : Renaming r) (offsets : List (String × Int64)) :
    Echoes (rename r) (s.setOffsets offsets)
      ((s.rename r).setOffsets (offsets.map (Layout.renameAt r))) := by
  unfold setOffsets
  induction offsets generalizing s with
  | nil => exact .ok
  | cons place offsets ih =>
    simp only [List.map_cons, List.foldlM_cons, Layout.renameAt]
    exact (setOffset_rename names place.1 place.2).casesOn ih .error

theorem setFrameSize_rename (names : Renaming r) (name : String) (size : Int64) :
    Echoes (rename r) (s.setFrameSize name size) ((s.rename r).setFrameSize (r name) size) := by
  unfold setFrameSize
  rw [index?_rename names, find?_rename names]
  cases s.index? name with
  | none => exact .ok
  | some i =>
    cases s.find? name with
    | none => exact .ok
    | some e =>
      simp only [Option.map_some]
      refine (Entry.withFrameSize_rename e size).casesOn (fun {sized} => ?_) .error
      have modified : (s.rename r).entries.modify i (fun _ => sized.rename r) =
          (s.entries.modify i fun _ => sized).map (Entry.rename r) :=
        map_modify i fun _ => rfl
      simp only [modified]
      exact .ok

theorem setOwnerFrame_rename (names : Renaming r) (size : Int64) (owner : Option String) :
    Echoes (rename r) (s.setOwnerFrame size owner)
      ((s.rename r).setOwnerFrame size (owner.map r)) := by
  cases owner with
  | none => exact .ok
  | some owner => exact setFrameSize_rename names owner size

theorem frameRefusal?_rename (names : Renaming r) (owner : Option String) :
    ((s.rename r).frameRefusal? (owner.map r)).map (·.code) =
      (s.frameRefusal? owner).map (·.code) := by
  cases owner with
  | none => rfl
  | some owner =>
    have takes : ((s.find? owner).map (Entry.rename r)).any (·.frameSize.isNone) =
        (s.find? owner).any (·.frameSize.isNone) := by
      cases s.find? owner <;> rfl
    simp only [frameRefusal?, Option.map_some, find?_rename names, takes]
    split <;> rfl

end Scope

namespace Table

variable {t : Table}

@[simp] theorem scopes_rename : (t.rename r).scopes = t.scopes.map (Scope.rename r) := rfl

@[simp] theorem nextLabel_rename : (t.rename r).nextLabel = t.nextLabel := rfl

@[simp] theorem policy_rename : (t.rename r).policy = t.policy := rfl

@[simp] theorem rename_depth : (t.rename r).depth = t.depth := by simp [depth, rename]

@[simp] theorem rename_level? : (t.rename r).level? = t.level? := by
  unfold level? rename
  cases t.scopes <;> simp

theorem push_rename (owner : Option String) :
    Mirrors r id (t.push owner) ((t.rename r).push (owner.map r)) := by
  rw [push_eq, push_eq, rename_depth]
  split
  · have pushed : (t.rename r).pushed (owner.map r) = (t.pushed owner).rename r := by
      simp [Table.pushed, rename, depth, Scope.rename]
    rw [pushed]
    exact .ok
  · exact .error rfl

theorem enter_rename : Mirrors r id t.enter (t.rename r).enter := push_rename none

theorem enterProcedure_rename (names : Renaming r) (owner : String) :
    Mirrors r id (t.enterProcedure owner) ((t.rename r).enterProcedure (r owner)) := by
  unfold enterProcedure
  cases scopes : t.scopes with
  | nil =>
    simp only [scopes_rename, scopes, List.map_nil]
    exact .error rfl
  | cons top outer =>
    simp only [scopes_rename, scopes, List.map_cons, Scope.find?_rename names]
    cases top.find? owner with
    | none => exact .error rfl
    | some e =>
      simp only [Option.map_some, Entry.rename]
      split
      · exact .error rfl
      · split
        · exact .error rfl
        · exact push_rename (some owner)

theorem exit_rename (names : Renaming r) :
    Mirrors r (ClosedScope.rename r) t.exit (t.rename r).exit := by
  unfold exit
  rw [scopes_rename, rename_depth]
  rcases t.scopes with _ | ⟨top, _ | ⟨outer, rest⟩⟩
  · exact .error rfl
  · exact .error rfl
  · simp only [List.map_cons, Scope.toList_rename, policy_rename, Scope.rename_owner]
    refine (Policy.layout_rename top.entries.toList).casesOn (fun {frame} => ?_) .error
    simp only [Layout.rename]
    have refusal := Scope.frameRefusal?_rename (s := outer) names top.owner
    generalize outer.frameRefusal? top.owner = u,
      (outer.rename r).frameRefusal? (top.owner.map r) = v at refusal
    match u, v, refusal with
    | some e, some e', same => exact .error (Option.some.inj same)
    | none, none, _ =>
      refine (Scope.setOffsets_rename names frame.offsets).casesOn (fun {placed} => ?_) .error
      refine (Scope.setOwnerFrame_rename names frame.frameSize top.owner).casesOn ?_ .error
      intro sized
      simp only [← ofScope_rename]
      exact .ok

theorem finish_rename (names : Renaming r) :
    Mirrors r (ClosedScope.rename r) t.finish (t.rename r).finish := by
  unfold finish
  rw [scopes_rename, rename_depth]
  rcases t.scopes with _ | ⟨program, _ | ⟨outer, rest⟩⟩
  · exact .error rfl
  · simp only [List.map_cons, List.map_nil, Scope.toList_rename, policy_rename,
      Scope.programEntry?_rename]
    refine (Policy.layout_rename program.entries.toList).casesOn (fun {frame} => ?_) .error
    have unsized : (program.programEntry?.map (Entry.rename r)).filter (·.frameSize.isSome) =
        (program.programEntry?.filter (·.frameSize.isSome)).map (Entry.rename r) := by
      rw [Option.filter_map]; rfl
    have owned : (program.programEntry?.map (Entry.rename r)).map (·.name) =
        (program.programEntry?.map (·.name)).map r := by
      rw [Option.map_map, Option.map_map]; rfl
    simp only [unsized, owned, Layout.rename]
    cases program.programEntry?.filter (·.frameSize.isSome) with
    | some e => exact .error rfl
    | none =>
      generalize program.programEntry?.map (·.name) = owner
      refine (Scope.setOffsets_rename names frame.offsets).casesOn (fun {placed} => ?_) .error
      simp only [Option.map_none]
      refine (Scope.setOwnerFrame_rename names frame.frameSize owner).casesOn ?_ .error
      intro sized
      simp only [← ofScope_rename]
      exact .ok
  · exact .error rfl

theorem abandon_rename : Mirrors r (Scope.rename r) t.abandon (t.rename r).abandon := by
  unfold abandon
  rw [scopes_rename, rename_depth]
  rcases t.scopes with _ | ⟨top, _ | ⟨outer, rest⟩⟩
  · exact .error rfl
  · exact .error rfl
  · exact .ok

theorem declare_rename (names : Renaming r) (e : Entry) :
    Mirrors r id (t.declare e) ((t.rename r).declare (e.rename r)) := by
  unfold declare
  have long : (e.rename r).name.utf8ByteSize > Limits.identifierBytes ↔
      e.name.utf8ByteSize > Limits.identifierBytes := names.long e.name
  simp only [long, scopes_rename]
  split
  · exact .error rfl
  · cases t.scopes with
    | nil => exact .error rfl
    | cons top outer =>
      have declares : (top.rename r).declares (e.rename r).name = top.declares e.name :=
        Scope.declares_rename names e.name
      simp only [List.map_cons, declares, Scope.rename_size, nextLabel_rename]
      split
      · exact .error rfl
      · split
        · exact .error rfl
        · refine (labelled_rename e t.nextLabel).casesOn (fun {stored} => ?_) .error
          simp only [Prod.map]
          exact (Scope.add_rename names stored.1).casesOn .ok .error

theorem lookup?_rename (names : Renaming r) (name : String) :
    (t.rename r).lookup? (r name) = (t.lookup? name).map (Prod.map (Entry.rename r) id) := by
  unfold lookup?
  rw [scopes_rename, List.findSome?_map, List.map_findSome?]
  congr 1
  funext s
  simp [Scope.find?_rename names, Function.comp_def]

end Table

end ScopeFrames
