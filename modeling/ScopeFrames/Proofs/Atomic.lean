import ScopeFrames.Proofs.Formed

namespace ScopeFrames.Table

variable [Limits]

structure Atomic (t : Table) : Prop where
  refused : ∀ op err, (t.apply op).1 = .refused err → (t.apply op).2 = t
  exit_settles : ∀ top outer rest frame, t.scopes = top :: outer :: rest →
    t.policy.layout top.entries.toList = .ok frame →
    (∃ placed, top.setOffsets frame.offsets = .ok placed) ∧
      ∃ sized, outer.setOwnerFrame frame.frameSize top.owner = .ok sized
  finish_settles : ∀ program frame, t.scopes = [program] →
    t.policy.layout program.entries.toList = .ok frame →
    program.programEntry?.filter (·.frameSize.isSome) = none →
    ∃ placed, program.setOffsets frame.offsets = .ok placed ∧
      ∃ sized, placed.setOwnerFrame frame.frameSize (program.programEntry?.map (·.name)) = .ok sized
  exit_owner : 2 ≤ t.depth → ∀ name reason, t.exit.1 ≠ .error (.invalidScopeOwner name reason)
  exit_name : 2 ≤ t.depth → ∀ name level, t.exit.1 ≠ .error (.unknownName name level)

theorem Step.eq_of_refused {t t' : Table} {op : Operation} {err : TableError}
    (step : t.Step op (.refused err) t') : t' = t := by
  cases step
  rfl

theorem Formed.exit_eq_error {t : Table} {err : TableError} (formed : t.Formed) (deep : 2 ≤ t.depth)
    (failed : t.exit.1 = .error err) : Policy.Refusal err := by
  match scopes : t.scopes with
  | [] | [_] => simp [depth, scopes] at deep
  | top :: outer :: rest =>
    cases laid : t.policy.layout top.entries.toList with
    | error e =>
      rw [Table.exit_eq_error scopes laid] at failed
      cases failed
      exact Policy.layoutFrom_eq_error laid
    | ok frame =>
      obtain ⟨offsets, stop, lays, -⟩ := Policy.layout_eq_ok.1 laid
      rw [exit_eq_ok formed scopes lays] at failed
      cases failed

theorem Formed.atomic {t : Table} (formed : t.Formed) : t.Atomic where
  refused := by
    intro op err failed
    have step := formed.step op
    rw [failed] at step
    exact step.eq_of_refused
  exit_settles := by
    intro top outer rest frame scopes laid
    have nested := formed.nested
    rw [scopes] at nested
    obtain ⟨inner, owned, below, -⟩ := nested
    obtain ⟨offsets, -, placed⟩ := Scope.setOffsets_layout inner.room.distinct laid
    exact ⟨⟨_, placed⟩, _, Scope.setOwnerFrame_eq_ok below.room.distinct (by simpa using owned)⟩
  finish_settles := by
    intro program frame scopes laid ready
    have nested := formed.nested
    rw [scopes] at nested
    obtain ⟨offsets, lays, placed⟩ := Scope.setOffsets_layout nested.1.room.distinct laid
    have enough := Scope.lays_length lays
    refine ⟨_, placed, _, Scope.setOwnerFrame_eq_ok ?_ ?_⟩
    · rw [Scope.placed_names enough]
      exact nested.1.room.distinct
    · exact Scope.program_awaits enough ready
  exit_owner := by
    intro deep name reason failed
    rcases formed.exit_eq_error deep failed with ⟨_, _, ⟨⟩⟩ | ⟨_, ⟨⟩⟩
  exit_name := by
    intro deep name level failed
    rcases formed.exit_eq_error deep failed with ⟨_, _, ⟨⟩⟩ | ⟨_, ⟨⟩⟩

/-- After any run, a refused operation changes nothing at all. -/
theorem atomic_after (policy : Policy) (ops : List Operation) :
    (({ policy } : Table).after ops).Atomic :=
  (formed_after policy ops).atomic

end ScopeFrames.Table
