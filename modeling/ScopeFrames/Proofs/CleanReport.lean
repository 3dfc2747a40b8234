import ScopeFrames.Proofs.Acceptance

namespace ScopeFrames

structure ClosedScope.Exact (p : Policy) (c : ClosedScope) : Prop where
  sized : ∀ e ∈ c.entries, ∃ size, p.size e = .ok size ∧ size.toInt = p.extent e
  offset : ∀ front e back, c.entries = front ++ e :: back →
    ∃ o, e.offset = some o ∧ o.toInt = p.baseOffset.toInt + (front.map p.extent).sum
  frame : c.frameSize.toInt = p.baseOffset.toInt + (c.entries.map p.extent).sum

namespace Policy

variable {p : Policy} {es : List Entry} {cursor stop : Int64} {offsets : List Int64}

theorem placed_extents {start : Int} : (p.placed start es).map p.extent = es.map p.extent := by
  induction es generalizing start with
  | nil => rfl
  | cons e es ih =>
    rw [placed, List.map_cons, List.map_cons, ih]
    rfl

theorem Lays.sized (lays : p.Lays cursor es offsets stop) {start : Int} :
    ∀ e ∈ p.placed start es, ∃ size, p.size e = .ok size ∧ size.toInt = p.extent e := by
  induction lays generalizing start with
  | nil => simp [placed]
  | @cons _ size _ _ e _ _ sized _ _ ih =>
    rw [placed, List.forall_mem_cons]
    refine ⟨⟨size, sized, ?_⟩, ih⟩
    show _ = p.extent e
    rw [extent, size_eq_ok.1 sized, Option.getD_some]

theorem Lays.offset (lays : p.Lays cursor es offsets stop) {front back : List Entry} {e : Entry}
    (split : p.placed cursor.toInt es = front ++ e :: back) :
    ∃ o, e.offset = some o ∧ o.toInt = cursor.toInt + (front.map p.extent).sum := by
  induction lays generalizing front with
  | nil => simp [placed] at split
  | @cons cursor _ _ _ first _ _ sized added _ ih =>
    rw [placed, ← step sized added] at split
    cases front with
    | nil =>
      obtain ⟨rfl, -⟩ := List.cons.inj split
      exact ⟨cursor, by simp [Entry.withOffset], by simp⟩
    | cons first' front =>
      obtain ⟨rfl, tails⟩ := List.cons.inj split
      obtain ⟨o, placed, exact⟩ := ih tails
      refine ⟨o, placed, ?_⟩
      have same : p.extent (first.withOffset (.ofInt cursor.toInt)) = p.extent first := rfl
      rw [exact, step sized added, List.map_cons, List.sum_cons, same, Int.add_assoc]

theorem close_exact {id level : Nat} {owner : Option String}
    (laid : p.Laid es) : (p.close id level owner es).Exact p := by
  obtain ⟨offsets, stop, lays⟩ := laid_iff_lays.1 laid
  refine ⟨lays.sized, fun front e back split => lays.offset split, ?_⟩
  rw [close, placed_extents, lays.frameSize_eq]
  exact lays.stop_eq

end Policy

section

variable [Limits] {p : Policy}

theorem Body.closed_exact {b : Body} (fits : ∀ es ∈ b.frames, p.Fits es) {level id label : Nat} :
    ∀ c ∈ b.closed p level id label, c.Exact p := by
  induction b generalizing level id label with
  | done => simp [closed]
  | declare _ _ _ ih | resolve _ _ ih => exact ih fits
  | procedure _ _ _ ihBody ihRest | block _ _ ihBody ihRest =>
    simp only [frames, List.forall_mem_cons, List.forall_mem_append] at fits
    simp only [closed, List.forall_mem_append, List.forall_mem_cons]
    refine ⟨ihBody fits.2.1, ?_, ihRest fits.2.2⟩
    exact Policy.close_exact (Body.laid_stored.2 fits.1.laid)

theorem Program.closed_exact {programs : List Program} (sound : ∀ q ∈ programs, q.Sound p)
    {id label : Nat} : ∀ c ∈ Program.closed p id label programs, c.Exact p := by
  induction programs generalizing id label with
  | nil => simp [closed]
  | cons q programs ih =>
    rw [List.forall_mem_cons] at sound
    have fits := sound.1.fits
    rw [frames, List.forall_mem_cons] at fits
    simp only [closed, List.forall_mem_append, List.forall_mem_cons]
    refine ⟨Body.closed_exact fits.2, ?_, ih sound.2⟩
    exact Policy.close_exact (Program.laid_stored.2 fits.1.laid)

namespace Trace

variable {t : Trace} {policy : Policy} {preferences : Preferences} {programs : List Program}

theorem report_of_spell (valid : t.check = .ok ()) (spell : Program.Spell programs t.steps)
    (clean : (t.replay policy preferences).isClean = true) :
    (t.replay policy preferences).report = Program.report policy preferences programs := by
  obtain ⟨v, path, -⟩ := isClean_iff_path.1 clean
  obtain ⟨-, rfl⟩ := (leads_start valid spell v).1 path
  rw [report_of_path path]
  simp [View.report, View.past, View.start, Program.report]

/-- The steps of a clean replay spell certain programs and no others, and what it reports is due to
these, to the last number. -/
theorem report_of_isClean (valid : t.check = .ok ())
    (clean : (t.replay policy preferences).isClean = true) :
    ∃ programs, Program.Spell programs t.steps ∧
      (∀ others, Program.Spell others t.steps → others = programs) ∧
      (t.replay policy preferences).report = Program.report policy preferences programs ∧
      (∀ scope ∈ (t.replay policy preferences).report.scopes, scope.Exact policy) ∧
      (t.replay policy preferences).report.declared = t.steps.countP (·.kind.declares) ∧
      (t.replay policy preferences).report.resolved = t.steps.countP (·.kind.refers) := by
  obtain ⟨programs, spell⟩ := exists_spell valid clean
  have sound := ((isClean_iff_of_spell valid spell).1 clean).1
  have reported := report_of_spell valid spell clean
  refine ⟨programs, spell, fun _ other => other.unique spell, reported, ?_, ?_, ?_⟩
  · rw [reported]
    exact Program.closed_exact sound
  · rw [reported]
    exact spell.count_eq rfl
  · rw [reported]
    exact spell.count_eq rfl

end Trace

end

namespace Trace

theorem nested_report :
    nested.check = .ok () ∧ (nested.replay {} {}).isClean = true ∧
      ∃ programs, Program.Spell programs nested.steps ∧
        (nested.replay {} {}).report = Program.report {} {} programs := by
  have valid : nested.check = .ok () := by decide
  have clean : (nested.replay {} {}).isClean = true := by decide +kernel
  obtain ⟨programs, spell, -, reported, -⟩ := report_of_isClean valid clean
  exact ⟨valid, clean, programs, spell, reported⟩

example : (nested.replay {} {}).report.scopes.map (fun c => (c.id.number, c.level, c.frameSize))
    = [(1, 1, 1), (2, 1, 3), (0, 0, 0)] := by decide +kernel

end Trace

end ScopeFrames
