import ScopeFrames.Table
import ScopeFrames.Proofs.Extent
import ScopeFrames.Proofs.Update

namespace ScopeFrames

namespace Scope

def sized (s : Scope) (size : Int64) : Option String → Scope
  | none => s
  | some owner => s.update owner fun e => { e with frameSize := some size }

def Awaits (s : Scope) (name : String) : Prop :=
  ∃ e ∈ s.entries, e.name = name ∧ e.category.ownsFrame = true ∧ e.frameSize = none

end Scope

namespace Table

variable {e : Entry}

theorem labelled_eq_ok {next next' : Nat} {stored : Entry} :
    labelled e next = .ok (stored, next') ↔
      if e.category.ownsFrame = true ∧ e.label = none then
        next < Limits.maxLabel ∧ stored = e.withLabel ⟨next⟩ ∧ next' = next + 1
      else stored = e ∧ next' = next := by
  unfold labelled
  simp only [Bool.and_eq_true, Option.isNone_iff_eq_none]
  split
  · by_cases room : next < Limits.maxLabel
    · simp only [room, ↓reduceIte, Except.ok.injEq, Prod.mk.injEq, true_and, eq_comm]
    · simp only [room, ↓reduceIte, reduceCtorEq, false_and]
  · simp only [Except.ok.injEq, Prod.mk.injEq, eq_comm]

theorem labelled_kept {next next' : Nat} {stored : Entry}
    (done : labelled e next = .ok (stored, next')) : ∃ label, stored = { e with label } := by
  rw [labelled_eq_ok] at done
  split at done
  · exact ⟨_, done.2.1⟩
  · exact ⟨e.label, done.1⟩

theorem labelled_name {next next' : Nat} {stored : Entry}
    (done : labelled e next = .ok (stored, next')) : stored.name = e.name := by
  obtain ⟨_, rfl⟩ := labelled_kept done
  rfl

theorem labelled_unplaced {next next' : Nat} {stored : Entry}
    (done : labelled e next = .ok (stored, next'))
    (unplaced : e.offset = none ∧ e.frameSize = none) :
    stored.offset = none ∧ stored.frameSize = none := by
  obtain ⟨_, rfl⟩ := labelled_kept done
  exact unplaced

theorem labelled_isSome {next next' : Nat} {stored : Entry}
    (done : labelled e next = .ok (stored, next')) (owns : stored.category.ownsFrame = true) :
    stored.label.isSome = true := by
  rw [labelled_eq_ok] at done
  split at done
  · rw [done.2.1]; rfl
  · next kept =>
    rw [done.1] at owns ⊢
    exact Option.isSome_iff_ne_none.2 fun bare => kept ⟨owns, bare⟩

theorem labelled_le {next next' : Nat} {stored : Entry}
    (done : labelled e next = .ok (stored, next')) (le : next ≤ Limits.maxLabel) :
    next' ≤ Limits.maxLabel := by
  rw [labelled_eq_ok] at done
  split at done
  · rw [done.2.2]; exact done.1
  · rwa [done.2]

variable [Limits]

inductive Operation : Type
  | enter
  | enterProcedure (owner : String)
  | exit
  | finish
  | abandon
  | declare (e : Entry)
  deriving DecidableEq

inductive Outcome : Type
  | entered (id : ScopeId)
  | closed (scope : ClosedScope)
  | abandoned (scope : Scope)
  | declared
  | refused (e : TableError)
  deriving DecidableEq

namespace Outcome

def of {α : Type} (done : α → Outcome) : Except TableError α → Outcome
  | .ok a => done a
  | .error e => .refused e

def entered? : Outcome → Option ScopeId
  | .entered id => some id
  | _ => none

end Outcome

def apply (t : Table) : Operation → Outcome × Table
  | .enter => t.enter.map (.of .entered) id
  | .enterProcedure owner => (t.enterProcedure owner).map (.of .entered) id
  | .exit => t.exit.map (.of .closed) id
  | .finish => t.finish.map (.of .closed) id
  | .abandon => t.abandon.map (.of .abandoned) id
  | .declare e => (t.declare e).map (.of fun _ => .declared) id

def after (t : Table) (ops : List Operation) : Table := ops.foldl (fun t op => (t.apply op).2) t

def outcomes (t : Table) : List Operation → List Outcome
  | [] => []
  | op :: ops => (t.apply op).1 :: (t.apply op).2.outcomes ops

@[simp] theorem after_nil (t : Table) : t.after [] = t := rfl

@[simp] theorem after_cons (t : Table) (op : Operation) (ops : List Operation) :
    t.after (op :: ops) = (t.apply op).2.after ops := rfl

theorem after_append (t : Table) (ops ops' : List Operation) :
    t.after (ops ++ ops') = (t.after ops).after ops' :=
  List.foldl_append

theorem after_induction {motive : Table → Prop} {t : Table} {ops : List Operation}
    (start : motive t) (step : ∀ t, ∀ op ∈ ops, motive t → motive (t.apply op).2) :
    motive (t.after ops) := by
  induction ops generalizing t with
  | nil => exact start
  | cons op ops ih =>
    apply ih (step t op List.mem_cons_self start)
    intro t op member
    exact step t op (List.mem_cons_of_mem _ member)

def pushed (t : Table) (owner : Option String) : Table :=
  { t with
    scopes := { id := ⟨t.nextId⟩, level := t.depth, owner } :: t.scopes
    nextId := t.nextId + 1 }

def Opens (t : Table) (owner : String) : Prop :=
  ∃ top ∈ t.scopes.head?, ∃ e, top.find? owner = some e ∧
    e.category.ownsFrame = true ∧ e.frameSize = none

/-- What an operation can do to a table: refuse and leave it alone, or one thing for each kind. -/
inductive Step (t : Table) : Operation → Outcome → Table → Prop
  | refused {op err} : Step t op (.refused err) t
  | entered : t.depth < Limits.scopeDepth → Step t .enter (.entered ⟨t.nextId⟩) (t.pushed none)
  | enteredProcedure {owner} : t.Opens owner → t.depth < Limits.scopeDepth →
      Step t (.enterProcedure owner) (.entered ⟨t.nextId⟩) (t.pushed (some owner))
  | exited {top outer rest offsets stop} : t.scopes = top :: outer :: rest →
      t.policy.Lays t.policy.baseOffset top.entries.toList offsets stop →
      Step t .exit (.closed (.ofScope (top.placed offsets) top.owner stop))
        { t with scopes := outer.sized stop top.owner :: rest }
  | finished {program offsets stop} : t.scopes = [program] →
      t.policy.Lays t.policy.baseOffset program.entries.toList offsets stop →
      (∀ e ∈ program.programEntry?, e.frameSize = none) →
      Step t .finish
        (.closed (.ofScope
          ((program.placed offsets).sized stop (program.programEntry?.map (·.name)))
          (program.programEntry?.map (·.name)) stop))
        { t with scopes := [] }
  | abandoned {top outer rest} : t.scopes = top :: outer :: rest →
      Step t .abandon (.abandoned top) { t with scopes := outer :: rest }
  | declared {e top outer stored next} : t.scopes = top :: outer →
      e.name.utf8ByteSize ≤ Limits.identifierBytes → e.name ∉ top.names →
      top.size < Limits.entriesPerScope → labelled e t.nextLabel = .ok (stored, next) →
      Step t (.declare e) .declared
        { t with scopes := top.extended [stored.atLevel top.level] :: outer, nextLabel := next }

variable {t t' : Table} {owner : Option String} {id : ScopeId}

theorem push_eq (t : Table) (owner : Option String) :
    t.push owner =
      if t.depth < Limits.scopeDepth then (.ok ⟨t.nextId⟩, t.pushed owner)
      else (.error (.limitExceeded "scope depth" (t.depth + 1) Limits.scopeDepth), t) := by
  unfold push pushed
  by_cases room : t.depth < Limits.scopeDepth
  · rw [if_pos room, if_neg (by omega)]
  · rw [if_neg room, if_pos (by omega)]

theorem push_eq_ok :
    t.push owner = (.ok id, t') ↔
      t.depth < Limits.scopeDepth ∧ id = ⟨t.nextId⟩ ∧ t' = t.pushed owner := by
  rw [push_eq]
  split
  · next room => simp [room, eq_comm]
  · next full => simp [full]

theorem enterProcedure_eq {owner : String} (opens : t.Opens owner) :
    t.enterProcedure owner = t.push (some owner) := by
  obtain ⟨top, first, e, found, owns, unsized⟩ := opens
  obtain ⟨outer, scopes⟩ := List.head?_eq_some_iff.1 first
  simp [enterProcedure, scopes, found, owns, unsized]

theorem enterProcedure_refused {owner : String} (opens : ¬ t.Opens owner) :
    ∃ err, t.enterProcedure owner = (.error err, t) := by
  unfold enterProcedure
  split
  · exact ⟨_, rfl⟩
  · next top outer scopes =>
    split
    · exact ⟨_, rfl⟩
    · next e found =>
      split
      · exact ⟨_, rfl⟩
      · next owns =>
        split
        · exact ⟨_, rfl⟩
        · next unsized =>
          refine absurd ⟨top, by simp [scopes], e, found, ?_, ?_⟩ opens
          · simpa using owns
          · simpa using unsized

/-- What keeps a name out of the innermost scope, whatever is to be declared under it. -/
inductive Bars (t : Table) (name : String) : TableError → Prop
  | long : Limits.identifierBytes < name.utf8ByteSize →
      Bars t name (.limitExceeded "identifier length" name.utf8ByteSize Limits.identifierBytes)
  | unopened : name.utf8ByteSize ≤ Limits.identifierBytes → t.scopes = [] →
      Bars t name (.emptyStack "declare" 0)
  | taken {top outer} : name.utf8ByteSize ≤ Limits.identifierBytes → t.scopes = top :: outer →
      name ∈ top.names → Bars t name (.duplicateName name top.level)
  | full {top outer} : name.utf8ByteSize ≤ Limits.identifierBytes → t.scopes = top :: outer →
      name ∉ top.names → Limits.entriesPerScope ≤ top.size →
      Bars t name (.limitExceeded "entries per scope" (top.size + 1) Limits.entriesPerScope)

theorem bars_or_room (t : Table) (name : String) : (∃ err, t.Bars name err) ∨
    ∃ top outer, t.scopes = top :: outer ∧ name.utf8ByteSize ≤ Limits.identifierBytes ∧
      name ∉ top.names ∧ top.size < Limits.entriesPerScope := by
  rcases Nat.lt_or_ge Limits.identifierBytes name.utf8ByteSize with long | short
  · exact .inl ⟨_, .long long⟩
  · cases scopes : t.scopes with
    | nil => exact .inl ⟨_, .unopened short scopes⟩
    | cons top outer =>
      by_cases taken : name ∈ top.names
      · exact .inl ⟨_, .taken short scopes taken⟩
      · rcases Nat.lt_or_ge top.size Limits.entriesPerScope with few | full
        · exact .inr ⟨top, outer, rfl, short, taken, few⟩
        · exact .inl ⟨_, .full short scopes taken full⟩

variable {err : TableError} {top : Scope} {outer : List Scope}

theorem declare_barred (bars : t.Bars e.name err) : t.declare e = (.error err, t) := by
  cases bars with
  | long long => rw [declare, if_pos long]
  | unopened short scopes => simp only [declare, if_neg (Nat.not_lt.2 short), scopes]
  | taken short scopes taken =>
    simp only [declare, if_neg (Nat.not_lt.2 short), scopes,
      if_pos (Scope.declares_iff.2 taken)]
  | full short scopes fresh full =>
    simp only [declare, if_neg (Nat.not_lt.2 short), scopes,
      if_neg (mt Scope.declares_iff.1 fresh), if_pos full]

theorem declare_roomy (scopes : t.scopes = top :: outer)
    (short : e.name.utf8ByteSize ≤ Limits.identifierBytes) (fresh : e.name ∉ top.names)
    (few : top.size < Limits.entriesPerScope) :
    t.declare e = match labelled e t.nextLabel with
      | .error err => (.error err, t)
      | .ok (stored, next) => (.ok (), { t with
          scopes := top.extended [stored.atLevel top.level] :: outer, nextLabel := next }) := by
  simp only [declare, if_neg (Nat.not_lt.2 short), scopes,
    if_neg (mt Scope.declares_iff.1 fresh), if_neg (Nat.not_le.2 few)]
  cases labelled : labelled e t.nextLabel with
  | error => rfl
  | ok given =>
    have added : top.add given.1 = .ok (top.extended [given.1.atLevel top.level]) :=
      Scope.add_eq_ok.2 ⟨by rwa [labelled_name labelled], Scope.push_eq_extended.symm⟩
    simp only [added]

theorem declare_eq_ok :
    t.declare e = (.ok (), t') ↔
      ∃ top outer stored next, t.scopes = top :: outer ∧
        e.name.utf8ByteSize ≤ Limits.identifierBytes ∧ e.name ∉ top.names ∧
        top.size < Limits.entriesPerScope ∧ labelled e t.nextLabel = .ok (stored, next) ∧
        t' = { t with
          scopes := top.extended [stored.atLevel top.level] :: outer, nextLabel := next } := by
  constructor
  · intro done
    rcases t.bars_or_room e.name with ⟨err, bars⟩ | ⟨top, outer, scopes, short, fresh, few⟩
    · rw [declare_barred bars] at done
      cases done
    · rw [declare_roomy scopes short fresh few] at done
      split at done
      · cases done
      · next stored next labelled =>
        cases done
        exact ⟨top, outer, stored, next, scopes, short, fresh, few, labelled, rfl⟩
  · rintro ⟨top, outer, stored, next, scopes, short, fresh, few, labelled, rfl⟩
    rw [declare_roomy scopes short fresh few, labelled]

theorem declare_eq_error (refused : t.declare e = (.error err, t')) :
    t' = t ∧ (t.Bars e.name err ∨ labelled e t.nextLabel = .error err) := by
  rcases t.bars_or_room e.name with ⟨err', bars⟩ | ⟨top, outer, scopes, short, fresh, few⟩
  · rw [declare_barred bars] at refused
    cases refused
    exact ⟨rfl, .inl bars⟩
  · rw [declare_roomy scopes short fresh few] at refused
    split at refused
    · next unlabelled =>
      cases refused
      exact ⟨rfl, .inr unlabelled⟩
    · cases refused

theorem declare_refused (refused : t.declare e = (.error err, t')) : t' = t :=
  (declare_eq_error refused).1

end Table

end ScopeFrames
