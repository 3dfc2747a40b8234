import Mathlib.Data.List.Chain
import ScopeFrames.Proofs.Atomic

namespace ScopeFrames

def Scope.NoProgram (s : Scope) (name : String) : Prop :=
  ∀ e ∈ s.entries, e.name = name → e.category ≠ .program

namespace Table

def declareRefusals : List Code := [.duplicateName, .emptyStack, .limitExceeded]

def closeRefusals : List Code := [.emptyStack, .incompleteEntry, .layoutOverflow]

variable {err : TableError} {owner : Option String} {e : Entry}

theorem labelled_code {next : Nat} (refused : labelled e next = .error err) :
    err.code = .limitExceeded := by
  unfold labelled at refused
  split at refused
  · split at refused
    · cases refused
    · cases refused; rfl
  · cases refused

theorem refusal_code (layout : Policy.Refusal err) : err.code ∈ closeRefusals := by
  rcases layout with ⟨_, _, rfl⟩ | ⟨_, rfl⟩
  · exact .tail _ (.head _)
  · exact .tail _ (.tail _ (.head _))

theorem unsized_sized {s : Scope} {size : Int64} (spares : ∀ name ∈ owner, s.NoProgram name)
    (unsized : ∀ e ∈ s.entries, e.category = .program → e.frameSize = none) :
    ∀ e ∈ (s.sized size owner).entries, e.category = .program → e.frameSize = none := by
  cases owner with
  | none => exact unsized
  | some name =>
    intro e member program
    obtain ⟨a, ha, rfl⟩ := Scope.mem_update.1 member
    split at program
    · next named => exact absurd program (spares name rfl a ha named)
    · next other => simpa [other] using unsized a ha program

variable [Limits] {t t' : Table} {op : Operation} {o : Outcome} {top : Scope} {rest : List Scope}

theorem push_refused (refused : t.push owner = (.error err, t')) : err.code = .limitExceeded := by
  rw [push_eq] at refused
  split at refused
  · cases refused
  · cases refused; rfl

theorem Bars.code_mem {name : String} (bars : t.Bars name err) : err.code ∈ declareRefusals := by
  cases bars with
  | taken => exact .head _
  | unopened => exact .tail _ (.head _)
  | long | full => exact .tail _ (.tail _ (.head _))

theorem declare_code (refused : t.declare e = (.error err, t')) :
    err.code ∈ declareRefusals := by
  rcases (declare_eq_error refused).2 with bars | unlabelled
  · exact bars.code_mem
  · rw [labelled_code unlabelled]
    exact .tail _ (.tail _ (.head _))

theorem declare_pushed_code (refused : (t.pushed owner).declare e = (.error err, t')) :
    err.code = .limitExceeded := by
  rcases (declare_eq_error refused).2 with bars | unlabelled
  · cases bars with
    | long | full => rfl
    | unopened _ scopes => cases scopes
    | taken _ scopes taken =>
      cases scopes
      simp [Scope.names] at taken
  · exact labelled_code unlabelled

theorem Formed.exit_code (formed : t.Formed) (refused : t.exit = (.error err, t')) :
    err.code ∈ closeRefusals := by
  by_cases deep : 2 ≤ t.depth
  · exact refusal_code (formed.exit_eq_error deep (congrArg Prod.fst refused))
  · match scopes : t.scopes with
    | [] | [_] =>
      simp only [exit, scopes] at refused
      cases refused
      exact .head _
    | _ :: _ :: _ => simp [depth, scopes] at deep

theorem Formed.finish_code (formed : t.Formed) (refused : t.finish = (.error err, t')) :
    err.code ∈ closeRefusals ∨
      err.code = .invalidScopeOwner ∧
        ∃ s ∈ t.scopes, ∃ e ∈ s.programEntry?, e.frameSize ≠ none := by
  match scopes : t.scopes with
  | [] | _ :: _ :: _ =>
    simp only [finish, scopes] at refused
    cases refused
    exact .inl (.head _)
  | [program] =>
    cases laid : t.policy.layout program.entries.toList with
    | error err =>
      rw [finish_eq_error scopes laid] at refused
      cases refused
      exact .inl (refusal_code (Policy.layoutFrom_eq_error laid))
    | ok frame =>
      by_cases unsized : ∀ e ∈ program.programEntry?, e.frameSize = none
      · obtain ⟨offsets, stop, lays, -⟩ := Policy.layout_eq_ok.1 laid
        rw [finish_eq_ok formed scopes lays unsized] at refused
        cases refused
      · push Not at unsized
        obtain ⟨e, first, sized⟩ := unsized
        rw [finish_sized scopes laid first (Option.isSome_iff_ne_none.2 sized)] at refused
        cases refused
        exact .inr ⟨rfl, program, .head _, e, first, sized⟩

/-- No live scope is owned by a program, and no live program has a frame size. -/
structure Unclaimed (t : Table) : Prop where
  owners : t.scopes.IsChain fun s below => ∀ name ∈ s.owner, below.NoProgram name
  unsized : ∀ s ∈ t.scopes, ∀ e ∈ s.entries, e.category = .program → e.frameSize = none

def Operation.Spares (t : Table) : Operation → Prop
  | .enterProcedure owner => ∀ top ∈ t.scopes.head?, top.NoProgram owner
  | .declare e => e.frameSize = none
  | _ => True

theorem unclaimed_empty (policy : Policy) : Unclaimed { policy } := ⟨.nil, by simp⟩

theorem Unclaimed.tail (unclaimed : t.Unclaimed) (scopes : t.scopes = top :: rest) :
    Unclaimed { t with scopes := rest } := by
  obtain ⟨owners, unsized⟩ := unclaimed
  rw [scopes] at owners unsized
  exact ⟨owners.tail, fun s live => unsized s (List.mem_cons_of_mem _ live)⟩

theorem Unclaimed.pushed (unclaimed : t.Unclaimed)
    (spares : ∀ name ∈ owner, ∀ below ∈ t.scopes.head?, below.NoProgram name) :
    (t.pushed owner).Unclaimed := by
  refine ⟨unclaimed.owners.cons fun below first name named => spares name named below first, ?_⟩
  intro s member
  rcases List.mem_cons.1 member with rfl | live
  · simp
  · exact unclaimed.unsized s live

theorem Unclaimed.replace {top' : Scope} {next : Nat} (unclaimed : t.Unclaimed)
    (scopes : t.scopes = top :: rest) (owner : top'.owner = top.owner)
    (unsized : ∀ e ∈ top'.entries, e.category = .program → e.frameSize = none) :
    Unclaimed { t with scopes := top' :: rest, nextLabel := next } := by
  have owners := unclaimed.owners
  have others := unclaimed.unsized
  rw [scopes] at owners others
  rw [List.isChain_cons] at owners
  refine ⟨List.isChain_cons.2 ⟨owner ▸ owners.1, owners.2⟩, ?_⟩
  intro s member
  rcases List.mem_cons.1 member with rfl | live
  · exact unsized
  · exact others s (List.mem_cons_of_mem _ live)

theorem Step.unclaimed (step : t.Step op o t') (unclaimed : t.Unclaimed) (spares : op.Spares t) :
    t'.Unclaimed := by
  cases step with
  | refused => exact unclaimed
  | entered => exact unclaimed.pushed nofun
  | enteredProcedure =>
    refine unclaimed.pushed ?_
    rintro _ ⟨⟩
    exact spares
  | exited scopes =>
    have owners := unclaimed.owners
    rw [scopes, List.isChain_cons_cons] at owners
    have inner := unclaimed.tail scopes
    exact inner.replace rfl Scope.sized_owner
      (unsized_sized owners.1 (inner.unsized _ (.head _)))
  | finished => exact ⟨.nil, by simp⟩
  | abandoned scopes => exact unclaimed.tail scopes
  | @declared _ top _ stored _ scopes _ _ _ labelled =>
    obtain ⟨_, rfl⟩ := labelled_kept labelled
    refine unclaimed.replace scopes rfl fun e member program => ?_
    rcases Scope.mem_extended.1 member with old | new
    · exact unclaimed.unsized top (by simp [scopes]) e old program
    · rw [List.mem_singleton.1 new]
      exact spares

theorem Unclaimed.finish_code (unclaimed : t.Unclaimed) (formed : t.Formed)
    (refused : t.finish = (.error err, t')) : err.code ∈ closeRefusals := by
  refine (formed.finish_code refused).resolve_right ?_
  rintro ⟨-, s, live, e, first, sized⟩
  have program : e.category = .program := by simpa using Array.find?_some first
  exact sized (unclaimed.unsized s live e (Array.mem_of_find?_eq_some first) program)

theorem Step.spares_procedure {name : String}
    (step : t.Step (.declare (.procedure name)) .declared t') :
    (Operation.enterProcedure name).Spares t' := by
  cases step with
  | @declared _ top outer stored _ _ _ fresh _ labelled =>
    obtain ⟨_, rfl⟩ := labelled_kept labelled
    rintro _ ⟨⟩ e member named
    rcases Scope.mem_extended.1 member with old | new
    · exact absurd (List.mem_map.2 ⟨e, by simpa using old, named⟩) fresh
    · rw [List.mem_singleton.1 new]
      nofun

end Table

end ScopeFrames
