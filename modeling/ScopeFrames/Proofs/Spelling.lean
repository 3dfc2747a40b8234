import ScopeFrames.Proofs.Program

namespace ScopeFrames

section Counts

variable {counts : StepKind → Bool} {steps : List Step}

theorem countP_kind {s : Step} : (s :: steps).countP (counts ·.kind)
    = (counts s.kind).toNat + steps.countP (counts ·.kind) := by
  rw [List.countP_cons]
  cases counts s.kind <;> simp [Nat.add_comm]

theorem Body.Spells.count_eq {b : Body} (spells : b.Spells steps)
    (silent : counts .close = false) : b.count counts = steps.countP (counts ·.kind) := by
  induction spells with
  | done => rfl
  | declare kind _ _ ih | resolve kind _ ih => rw [Body.count, countP_kind, kind, ih]
  | procedure kind _ ends _ ihBody ihRest | block kind _ ends _ ihBody ihRest =>
    simp only [Body.count, countP_kind, List.countP_append, kind, ends, silent, ihBody, ihRest,
      Bool.toNat_false]
    omega

theorem Program.Spell.count_eq {programs : List Program} (spell : Program.Spell programs steps)
    (silent : counts .close = false) :
    Program.count counts programs = steps.countP (counts ·.kind) := by
  induction spell with
  | nil => rfl
  | cons kind spells ends _ ih =>
    simp only [Program.count, List.map_cons, List.sum_cons, countP_kind, List.countP_append, kind,
      ends, silent, ← ih, spells.count_eq silent, Bool.toNat_false]
    omega

end Counts

theorem Body.Spells.unique {b b' : Body} {inner inner' after after' : List Step}
    {close close' : Step} (spells : b.Spells inner) (spells' : b'.Spells inner')
    (ends : close.kind = .close) (ends' : close'.kind = .close)
    (same : inner ++ close :: after = inner' ++ close' :: after') : b = b' ∧ after = after' := by
  induction spells generalizing b' inner' close close' after after' with
  | done =>
    cases spells' with
    | done => exact ⟨rfl, (List.cons.inj same).2⟩
    | declare kind' | resolve kind' | procedure kind' | block kind' =>
      obtain ⟨rfl, -⟩ := List.cons.inj same
      cases ends.symm.trans kind'
  | declare kind given _ ih =>
    cases spells' with
    | declare kind' given' spells' =>
      obtain ⟨rfl, tails⟩ := List.cons.inj same
      obtain ⟨rfl, rfl⟩ := ih spells' ends ends' tails
      cases given.symm.trans given'
      exact ⟨rfl, rfl⟩
    | done =>
      obtain ⟨rfl, -⟩ := List.cons.inj same
      cases kind.symm.trans ends'
    | resolve kind' | procedure kind' | block kind' =>
      obtain ⟨rfl, -⟩ := List.cons.inj same
      cases kind.symm.trans kind'
  | resolve kind _ ih =>
    cases spells' with
    | resolve kind' spells' =>
      obtain ⟨rfl, tails⟩ := List.cons.inj same
      obtain ⟨rfl, rfl⟩ := ih spells' ends ends' tails
      exact ⟨rfl, rfl⟩
    | done =>
      obtain ⟨rfl, -⟩ := List.cons.inj same
      cases kind.symm.trans ends'
    | declare kind' | procedure kind' | block kind' =>
      obtain ⟨rfl, -⟩ := List.cons.inj same
      cases kind.symm.trans kind'
  | procedure kind _ closes _ ihBody ihRest =>
    cases spells' with
    | procedure kind' spells' closes' rest' =>
      simp only [List.cons_append, List.append_assoc, List.cons.injEq] at same
      obtain ⟨rfl, same⟩ := same
      obtain ⟨rfl, same⟩ := ihBody spells' closes closes' same
      obtain ⟨rfl, rfl⟩ := ihRest rest' ends ends' same
      exact ⟨rfl, rfl⟩
    | done =>
      obtain ⟨rfl, -⟩ := List.cons.inj same
      cases kind.symm.trans ends'
    | declare kind' | resolve kind' | block kind' =>
      obtain ⟨rfl, -⟩ := List.cons.inj same
      cases kind.symm.trans kind'
  | block kind _ closes _ ihBody ihRest =>
    cases spells' with
    | block kind' spells' closes' rest' =>
      simp only [List.cons_append, List.append_assoc, List.cons.injEq] at same
      obtain ⟨rfl, same⟩ := same
      obtain ⟨rfl, same⟩ := ihBody spells' closes closes' same
      obtain ⟨rfl, rfl⟩ := ihRest rest' ends ends' same
      exact ⟨rfl, rfl⟩
    | done =>
      obtain ⟨rfl, -⟩ := List.cons.inj same
      cases kind.symm.trans ends'
    | declare kind' | resolve kind' | procedure kind' =>
      obtain ⟨rfl, -⟩ := List.cons.inj same
      cases kind.symm.trans kind'

theorem Program.Spell.unique {programs programs' : List Program} {steps : List Step}
    (spell : Program.Spell programs steps) (spell' : Program.Spell programs' steps) :
    programs = programs' := by
  induction spell generalizing programs' with
  | nil =>
    cases spell'
    rfl
  | cons kind spells ends spell ih =>
    generalize same : _ :: _ = steps at spell'
    cases spell' with
    | nil => cases same
    | cons kind' spells' ends' spell' =>
      obtain ⟨rfl, tails⟩ := List.cons.inj same
      obtain ⟨rfl, rfl⟩ := spells.unique spells' ends ends' tails
      rw [ih spell']

end ScopeFrames
