import ScopeFrames.Proofs.Extent
import ScopeFrames.Proofs.Quiet
import ScopeFrames.Proofs.Update

/-!
Programs as trees: how steps spell them, when they are in order, and the report that is due to
them.  Nothing here knows of a stack.
-/

namespace ScopeFrames

namespace StepKind

def opens : StepKind → Bool
  | program | procedure | block => true
  | _ => false

def labels : StepKind → Bool
  | program | procedure => true
  | _ => false

def declares : StepKind → Bool
  | program | procedure | declare => true
  | _ => false

def refers : StepKind → Bool
  | resolve => true
  | _ => false

end StepKind

namespace Declaration

variable {d : Declaration}

def plain : Declaration → Entry
  | .simple name category => .simple name category
  | .array name base bounds =>
    .array name base (bounds.bind fun (start, stop) => (Bounds.between start stop).toOption)

def Ordered : Declaration → Prop
  | .array _ _ (some (start, stop)) => start ≤ stop
  | _ => True

@[simp] theorem plain_name : d.plain.name = d.name := by cases d <;> rfl

theorem entry_eq_ok {e : Entry} : d.entry = .ok e ↔ d.Ordered ∧ e = d.plain := by
  cases d with
  | simple name category => simp [entry, Ordered, plain, eq_comm]
  | array name base bounds =>
    cases bounds with
    | none => simp [entry, Ordered, plain, eq_comm]
    | some bounds =>
      by_cases ordered : bounds.1 ≤ bounds.2
      · simp [entry, Ordered, plain, Bounds.between, ordered, Except.toOption, eq_comm]
      · simp [entry, Ordered, plain, Bounds.between, ordered]

end Declaration

theorem Step.declares_of_valid {s : Step} (valid : s.fault? = none) (kind : s.kind = .declare) :
    ∃ d, s.declaration? = some d ∧ d.plain.category.ownsFrame = false := by
  simp only [fault?, kind, if_true] at valid
  split at valid
  · cases valid
  · cases category : s.category with
    | none =>
      rw [category] at valid
      cases valid
    | some c =>
      cases c with
      | procedure | program =>
        rw [category] at valid
        cases valid
      | undefined | notApplicable | int | boolean | char | array =>
        exact ⟨_, by rw [declaration?, kind, category], rfl⟩

inductive Body : Type
  | done
  | declare (d : Declaration) (span : Span) (rest : Body)
  | resolve (name : String) (rest : Body)
  | procedure (name : String) (body rest : Body)
  | block (body rest : Body)

structure Program where
  name : String
  body : Body

inductive Body.Spells : Body → List Step → Prop
  | done : Spells .done []
  | declare {s : Step} {d rest steps} : s.kind = .declare → s.declaration? = some d →
      Spells rest steps → Spells (.declare d s.span rest) (s :: steps)
  | resolve {s : Step} {rest steps} : s.kind = .resolve → Spells rest steps →
      Spells (.resolve s.name rest) (s :: steps)
  | procedure {s close : Step} {body rest inner outer} : s.kind = .procedure →
      Spells body inner → close.kind = .close → Spells rest outer →
      Spells (.procedure s.name body rest) (s :: (inner ++ close :: outer))
  | block {s close : Step} {body rest inner outer} : s.kind = .block →
      Spells body inner → close.kind = .close → Spells rest outer →
      Spells (.block body rest) (s :: (inner ++ close :: outer))

inductive Program.Spell : List Program → List Step → Prop
  | nil : Spell [] []
  | cons {s close : Step} {body programs inner outer} : s.kind = .program →
      body.Spells inner → close.kind = .close → Spell programs outer →
      Spell (⟨s.name, body⟩ :: programs) (s :: (inner ++ close :: outer))

namespace Body

def entries : Body → List Entry
  | done => []
  | declare d _ rest => d.plain :: rest.entries
  | resolve _ rest => rest.entries
  | procedure name _ rest => .procedure name :: rest.entries
  | block _ rest => rest.entries

def names (b : Body) : List String := b.entries.map (·.name)

def frames : Body → List (List Entry)
  | done => []
  | declare _ _ rest => rest.frames
  | resolve _ rest => rest.frames
  | procedure _ body rest => body.entries :: (body.frames ++ rest.frames)
  | block body rest => body.entries :: (body.frames ++ rest.frames)

def depth : Body → Nat
  | done => 0
  | declare _ _ rest => rest.depth
  | resolve _ rest => rest.depth
  | procedure _ body rest => max (body.depth + 1) rest.depth
  | block body rest => max (body.depth + 1) rest.depth

def Ordered : Body → Prop
  | done => True
  | declare d _ rest => d.Ordered ∧ rest.Ordered
  | resolve _ rest => rest.Ordered
  | procedure _ body rest => body.Ordered ∧ rest.Ordered
  | block body rest => body.Ordered ∧ rest.Ordered

def Resolves (visible : List String) : Body → Prop
  | done => True
  | declare d _ rest => rest.Resolves (d.name :: visible)
  | resolve name rest => name ∈ visible ∧ rest.Resolves visible
  | procedure name body rest => body.Resolves (name :: visible) ∧ rest.Resolves (name :: visible)
  | block body rest => body.Resolves visible ∧ rest.Resolves visible

def count (counts : StepKind → Bool) : Body → Nat
  | done => 0
  | declare _ _ rest => (counts .declare).toNat + rest.count counts
  | resolve _ rest => (counts .resolve).toNat + rest.count counts
  | procedure _ body rest => (counts .procedure).toNat + body.count counts + rest.count counts
  | block body rest => (counts .block).toNat + body.count counts + rest.count counts

end Body

namespace Policy

def close (p : Policy) (id level : Nat) (owner : Option String) (es : List Entry) :
    ClosedScope where
  id := ⟨id⟩
  level := level
  owner := owner
  entries := p.placed p.baseOffset.toInt es
  frameSize := p.frameSize es

end Policy

namespace Entry

@[simp] theorem procedure_name {name : String} : (procedure name).name = name := rfl
@[simp] theorem program_name {name : String} : (program name).name = name := rfl

def labelled (e : Entry) (level label : Nat) : Entry := (e.withLabel ⟨label⟩).atLevel level

def owning (e : Entry) (level label : Nat) (size : Int64) : Entry :=
  { e.labelled level label with frameSize := some size }

@[simp] theorem labelled_name {e : Entry} {level label : Nat} :
    (e.labelled level label).name = e.name := rfl

end Entry

namespace Body

def stored (p : Policy) (level label : Nat) : Body → List Entry
  | done => []
  | declare d _ rest => d.plain.atLevel level :: rest.stored p level label
  | resolve _ rest => rest.stored p level label
  | procedure name body rest =>
    (Entry.procedure name).owning level label (p.frameSize body.entries)
      :: rest.stored p level (label + 1 + body.count StepKind.labels)
  | block body rest => rest.stored p level (label + body.count StepKind.labels)

/-- The scopes within, each after those within it: their ids count from `id` on, and the labels of
procedures from `label` on. -/
def closed (p : Policy) (level id label : Nat) : Body → List ClosedScope
  | done => []
  | declare _ _ rest => rest.closed p level id label
  | resolve _ rest => rest.closed p level id label
  | procedure name body rest =>
    body.closed p (level + 1) (id + 1) (label + 1)
      ++ p.close id (level + 1) (some name) (body.stored p (level + 1) (label + 1))
      :: rest.closed p level (id + 1 + body.count StepKind.opens)
        (label + 1 + body.count StepKind.labels)
  | block body rest =>
    body.closed p (level + 1) (id + 1) label
      ++ p.close id (level + 1) none (body.stored p (level + 1) label)
      :: rest.closed p level (id + 1 + body.count StepKind.opens)
        (label + body.count StepKind.labels)

def warnings (preferences : Preferences) (level : Nat) (reach : List (String × Nat)) :
    Body → List Diagnostic
  | done => []
  | declare d span rest =>
    preferences.hides (reach.lookup d.name) d.name span (some level)
      ++ rest.warnings preferences level ((d.name, level) :: reach)
  | resolve _ rest => rest.warnings preferences level reach
  | procedure name body rest =>
    body.warnings preferences (level + 1) ((name, level) :: reach)
      ++ rest.warnings preferences level ((name, level) :: reach)
  | block body rest =>
    body.warnings preferences (level + 1) reach ++ rest.warnings preferences level reach

theorem stored_bare {p : Policy} {level label : Nat} {b : Body} :
    (b.stored p level label).map Entry.bare = b.entries := by
  induction b generalizing label with
  | done => rfl
  | declare d _ rest ih =>
    rw [stored, entries, List.map_cons, ih]
    cases d <;> rfl
  | resolve _ rest ih => exact ih
  | procedure name body rest _ ih =>
    rw [stored, entries, List.map_cons, ih]
    rfl
  | block body rest _ ih => exact ih

/-- The frame is the same, whether it is laid out before or after its procedures got theirs. -/
theorem frameSize_stored {p : Policy} {level label : Nat} {b : Body} :
    p.frameSize (b.stored p level label) = p.frameSize b.entries := by
  rw [← stored_bare, Policy.frameSize_bare]

theorem laid_stored {p : Policy} {level label : Nat} {b : Body} :
    p.Laid (b.stored p level label) ↔ p.Laid b.entries := by
  rw [← stored_bare, Policy.laid_bare]

end Body

namespace Program

def entries (q : Program) : List Entry := .program q.name :: q.body.entries

def frames (q : Program) : List (List Entry) := q.entries :: q.body.frames

def count (counts : StepKind → Bool) (programs : List Program) : Nat :=
  (programs.map fun q => (counts .program).toNat + q.body.count counts).sum

def stored (p : Policy) (label : Nat) (q : Program) : List Entry :=
  (Entry.program q.name).owning 0 label (p.frameSize q.entries) :: q.body.stored p 0 (label + 1)

theorem entries_bare {p : Policy} {label : Nat} {q : Program} {e : Entry}
    (bare : e.bare = .program q.name) :
    (e :: q.body.stored p 0 label).map Entry.bare = q.entries := by
  rw [List.map_cons, bare, Body.stored_bare]
  rfl

theorem laid_stored {p : Policy} {label : Nat} {q : Program} :
    p.Laid (q.stored p label) ↔ p.Laid q.entries := by
  rw [stored, ← Policy.laid_bare, entries_bare rfl]

def closed (p : Policy) (id label : Nat) : List Program → List ClosedScope
  | [] => []
  | q :: programs =>
    q.body.closed p 0 (id + 1) (label + 1) ++ p.close id 0 (some q.name) (q.stored p label)
      :: closed p (id + 1 + q.body.count StepKind.opens) (label + 1 + q.body.count StepKind.labels)
        programs

def warnings (preferences : Preferences) (programs : List Program) : List Diagnostic :=
  programs.flatMap fun q => q.body.warnings preferences 0 [(q.name, 0)]

end Program

variable [Limits]

structure Policy.Fits (p : Policy) (es : List Entry) : Prop where
  room : Room (es.map (·.name))
  laid : p.Laid es

structure Program.Sound (p : Policy) (q : Program) : Prop where
  shallow : q.body.depth + 1 ≤ Limits.scopeDepth
  fits : ∀ es ∈ q.frames, p.Fits es
  resolves : q.body.Resolves [q.name]
  ordered : q.body.Ordered

def Program.report (p : Policy) (preferences : Preferences) (programs : List Program) : Report where
  scopes := closed p 0 Limits.firstLabel programs
  diagnostics := warnings preferences programs
  declared := count StepKind.declares programs
  resolved := count StepKind.refers programs
  unresolved := 0

namespace Body

/-- The body is in order in a scope with these names already, `depth` scopes deep. -/
structure Admitted (p : Policy) (names : List String) (depth : Nat) (visible : List String)
    (label : Nat) (b : Body) : Prop where
  room : Room (names ++ b.names)
  shallow : depth + b.depth ≤ Limits.scopeDepth
  fits : ∀ es ∈ b.frames, p.Fits es
  resolves : b.Resolves visible
  ordered : b.Ordered
  labels : label + b.count StepKind.labels ≤ Limits.maxLabel

variable {p : Policy} {names visible : List String} {name : String} {depth label : Nat}
  {d : Declaration} {span : Span} {body rest : Body}

theorem admitted_done (room : Room names) (shallow : depth ≤ Limits.scopeDepth)
    (counter : label ≤ Limits.maxLabel) : Admitted p names depth visible label done where
  room := by simpa [Body.names, entries] using room
  shallow := shallow
  fits := by simp [frames]
  resolves := trivial
  ordered := trivial
  labels := counter

theorem admitted_declare : Admitted p names depth visible label (declare d span rest) ↔
    (d.Ordered ∧ Room (names ++ [d.name])) ∧
      rest.Admitted p (names ++ [d.name]) depth (d.name :: visible) label := by
  have split : names ++ (declare d span rest).names = names ++ [d.name] ++ rest.names := by
    simp [Body.names, entries]
  have counted : (declare d span rest).count StepKind.labels = rest.count StepKind.labels :=
    Nat.zero_add _
  constructor
  · rintro ⟨room, shallow, fits, resolves, ordered, labels⟩
    rw [split] at room
    rw [counted] at labels
    exact ⟨⟨ordered.1, room.left⟩, room, shallow, fits, resolves, ordered.2, labels⟩
  · rintro ⟨⟨ordered, -⟩, room, shallow, fits, resolves, ordered', labels⟩
    rw [← split] at room
    rw [← counted] at labels
    exact ⟨room, shallow, fits, resolves, ⟨ordered, ordered'⟩, labels⟩

theorem admitted_resolve : Admitted p names depth visible label (resolve name rest) ↔
    name ∈ visible ∧ rest.Admitted p names depth visible label := by
  have counted : (resolve name rest).count StepKind.labels = rest.count StepKind.labels :=
    Nat.zero_add _
  constructor
  · rintro ⟨room, shallow, fits, resolves, ordered, labels⟩
    rw [counted] at labels
    exact ⟨resolves.1, room, shallow, fits, resolves.2, ordered, labels⟩
  · rintro ⟨known, room, shallow, fits, resolves, ordered, labels⟩
    rw [← counted] at labels
    exact ⟨room, shallow, fits, ⟨known, resolves⟩, ordered, labels⟩

theorem admitted_procedure : Admitted p names depth visible label (procedure name body rest) ↔
    (Room (names ++ [name]) ∧ label < Limits.maxLabel ∧ depth < Limits.scopeDepth) ∧
      body.Admitted p [] (depth + 1) (name :: visible) (label + 1) ∧
      p.Laid body.entries ∧
      rest.Admitted p (names ++ [name]) depth (name :: visible)
        (label + 1 + body.count StepKind.labels) := by
  have split : names ++ (procedure name body rest).names = names ++ [name] ++ rest.names := by
    simp [Body.names, entries]
  constructor
  · rintro ⟨room, shallow, fits, resolves, ordered, labels⟩
    rw [split] at room
    simp only [Body.depth, count, StepKind.labels, Bool.toNat_true] at shallow labels
    simp only [frames, List.forall_mem_cons, List.forall_mem_append] at fits
    refine ⟨⟨room.left, by omega, by omega⟩, ?_, fits.1.laid, ?_⟩
    · exact ⟨fits.1.room, by omega, fits.2.1, resolves.1, ordered.1, by omega⟩
    · exact ⟨room, by omega, fits.2.2, resolves.2, ordered.2, by omega⟩
  · rintro ⟨-, inner, laid, outer⟩
    have shallow := inner.shallow
    have shallow' := outer.shallow
    have labels := outer.labels
    refine ⟨split ▸ outer.room, ?_, ?_, ⟨inner.resolves, outer.resolves⟩,
      ⟨inner.ordered, outer.ordered⟩, ?_⟩
    · simp only [Body.depth]
      omega
    · simp only [frames, List.forall_mem_cons, List.forall_mem_append]
      exact ⟨⟨inner.room, laid⟩, inner.fits, outer.fits⟩
    · simp only [count, StepKind.labels, Bool.toNat_true]
      omega

theorem admitted_block : Admitted p names depth visible label (block body rest) ↔
    depth < Limits.scopeDepth ∧ body.Admitted p [] (depth + 1) visible label ∧
      p.Laid body.entries ∧
      rest.Admitted p names depth visible (label + body.count StepKind.labels) := by
  constructor
  · rintro ⟨room, shallow, fits, resolves, ordered, labels⟩
    simp only [Body.depth, count, StepKind.labels, Bool.toNat_false] at shallow labels
    simp only [frames, List.forall_mem_cons, List.forall_mem_append] at fits
    refine ⟨by omega, ?_, fits.1.laid, ?_⟩
    · exact ⟨fits.1.room, by omega, fits.2.1, resolves.1, ordered.1, by omega⟩
    · exact ⟨room, by omega, fits.2.2, resolves.2, ordered.2, by omega⟩
  · rintro ⟨-, inner, laid, outer⟩
    have shallow := inner.shallow
    have shallow' := outer.shallow
    have labels := outer.labels
    refine ⟨outer.room, ?_, ?_, ⟨inner.resolves, outer.resolves⟩,
      ⟨inner.ordered, outer.ordered⟩, ?_⟩
    · simp only [Body.depth]
      omega
    · simp only [frames, List.forall_mem_cons, List.forall_mem_append]
      exact ⟨⟨inner.room, laid⟩, inner.fits, outer.fits⟩
    · simp only [count, StepKind.labels, Bool.toNat_false]
      omega

end Body

theorem Program.sound_cons {p : Policy} {q : Program} {programs : List Program} {label : Nat} :
    ((∀ x ∈ q :: programs, x.Sound p) ∧
      label + count StepKind.labels (q :: programs) ≤ Limits.maxLabel) ↔
      (Room [q.name] ∧ label < Limits.maxLabel) ∧
        q.body.Admitted p [q.name] 1 [q.name] (label + 1) ∧
        p.Laid q.entries ∧
        (∀ x ∈ programs, x.Sound p) ∧
        label + 1 + q.body.count StepKind.labels + count StepKind.labels programs
          ≤ Limits.maxLabel := by
  have split : count StepKind.labels (q :: programs)
      = 1 + q.body.count StepKind.labels + count StepKind.labels programs := rfl
  rw [List.forall_mem_cons, split]
  constructor
  · rintro ⟨⟨⟨shallow, fits, resolves, ordered⟩, sound⟩, labels⟩
    simp only [frames, List.forall_mem_cons] at fits
    refine ⟨⟨fits.1.room.left, by omega⟩, ?_, fits.1.laid, sound, by omega⟩
    exact ⟨fits.1.room, by omega, fits.2, resolves, ordered, by omega⟩
  · rintro ⟨-, ⟨room, shallow, fits, resolves, ordered, -⟩, laid, sound, labels⟩
    refine ⟨⟨⟨by omega, ?_, resolves, ordered⟩, sound⟩, by omega⟩
    simp only [frames, List.forall_mem_cons]
    exact ⟨⟨room, laid⟩, fits⟩

end ScopeFrames
