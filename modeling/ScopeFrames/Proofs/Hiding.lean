import ScopeFrames.Proofs.Shadowing

namespace ScopeFrames

section

variable [Limits]

namespace Table

def Surrounds (t : Table) (name : String) : Prop := ∃ s ∈ t.scopes.tail, name ∈ s.names

instance (t : Table) (name : String) : Decidable (t.Surrounds name) :=
  inferInstanceAs (Decidable (∃ s ∈ t.scopes.tail, name ∈ s.names))

variable {t t' : Table} {e : Entry}

theorem surrounds_iff (done : t.declare e = (.ok (), t')) :
    t.Surrounds e.name ↔ ∃ hidden outer, t.lookup? e.name = some (hidden, outer) := by
  obtain ⟨top, outer, -, -, scopes, -, fresh, -⟩ := declare_eq_ok.1 done
  have known : (∃ hidden outer, t.lookup? e.name = some (hidden, outer)) ↔
      t.lookup? e.name ≠ none := by
    rw [Option.ne_none_iff_exists', Prod.exists]
  rw [known, ne_eq, lookup?_eq_none, Surrounds, scopes]
  simp [fresh]

end Table

namespace Analysis

inductive Places (a : Analysis) : Call → String → Prop
  | declared {d span} : (a.declare d span).1 = true → Places a (.declare d span) d.name
  | procedure {name span} : (a.table.declare (.procedure name)).1 = .ok () →
      Places a (.beginProcedure name span) name

def Hides (a : Analysis) (call : Call) : Prop :=
  ∃ name, a.Places call name ∧ a.table.Surrounds name

variable {a : Analysis} {call : Call} {d : Declaration} {span : Span} {policy : Policy}
  {p : Preferences}

theorem hides_declare_iff : a.Hides (.declare d span) ↔ (a.declare d span).1 = true ∧
    ∃ hidden outer, a.table.lookup? d.name = some (hidden, outer) := by
  constructor
  · rintro ⟨_, places, surrounds⟩
    cases places with
    | declared landed =>
      obtain ⟨entry, t, built, done⟩ := (a.declaring d span).done_iff.1 landed
      rw [← Declaration.entry_name built] at surrounds ⊢
      exact ⟨landed, (Table.surrounds_iff done).1 surrounds⟩
  · rintro ⟨landed, known⟩
    obtain ⟨entry, t, built, done⟩ := (a.declaring d span).done_iff.1 landed
    refine ⟨d.name, .declared landed, ?_⟩
    rw [← Declaration.entry_name built] at known ⊢
    exact (Table.surrounds_iff done).2 known

theorem preferences_apply (formed : a.table.Formed) (call : Call) :
    (a.apply call).2.preferences = a.preferences := by
  obtain ⟨ds, records⟩ := tells formed call
  exact records.preferences

theorem preferences_after (policy : Policy) (p : Preferences) (calls : List Call) :
    ((start policy p).after calls).preferences = p := by
  refine (after_induction (motive := fun a => Blameless a ∧ a.preferences = p)
    ⟨blameless_start policy p, rfl⟩ ?_).2
  rintro a call ⟨blameless, same⟩
  exact ⟨blameless.apply call, (preferences_apply blameless.formed call).trans same⟩

theorem blameless_after (policy : Policy) (p : Preferences) (calls : List Call) :
    Blameless ((start policy p).after calls) :=
  after_induction (blameless_start policy p) fun _ call blameless => blameless.apply call

theorem warnings_of_hides (asked : a.preferences.warnOnShadowing = true)
    (hides : a.Hides (.declare d span)) : ∃ hidden outer,
      a.table.lookup? d.name = some (hidden, outer) ∧
        a.warnings (.declare d span) = [.shadowed d.name outer span a.table.level?] := by
  obtain ⟨landed, hidden, outer, looked⟩ := hides_declare_iff.1 hides
  exact ⟨hidden, outer, looked, by simp [warnings, landed, looked, Preferences.hides, asked]⟩

theorem warnings_of_not_hides (hides : ¬ a.Hides call) : a.warnings call = [] := by
  cases call with
  | declare d span =>
    refine List.eq_nil_iff_forall_not_mem.2 fun x member => ?_
    obtain ⟨-, landed, hidden, outer, looked, -⟩ := mem_warnings.1 member
    exact hides (hides_declare_iff.2 ⟨landed, hidden, outer, looked⟩)
  | beginProgram | beginProcedure | beginBlock | endScope | endProgram | resolve => rfl

theorem shadowed_of_mem_warnings {x : Diagnostic} (member : x ∈ a.warnings call) :
    x.code = .shadowed := by
  cases call with
  | declare d span =>
    obtain ⟨-, -, hidden, outer, -, rfl⟩ := mem_warnings.1 member
    rfl
  | beginProgram | beginProcedure | beginBlock | endScope | endProgram | resolve => cases member

theorem Blameless.warned (blameless : Blameless a) (call : Call) :
    ∃ more, (a.apply call).2.diagnostics.toList = a.diagnostics.toList ++ more ∧
      more.filter (·.code = .shadowed) = a.warnings call := by
  refine ⟨_, (a.follows call).diagnostics.trans (List.append_assoc _ _ _), ?_⟩
  have others : (a.core.apply call).2.diagnostics.toList.filter (·.code = .shadowed) = [] :=
    List.filter_eq_nil_iff.2 fun x member =>
      mt of_decide_eq_true (blameless.core_unshadowed call x member)
  have warnings : (a.warnings call).filter (·.code = .shadowed) = a.warnings call :=
    List.filter_eq_self.2 fun x member => decide_eq_true (shadowed_of_mem_warnings member)
  rw [List.filter_append, others, warnings, List.nil_append]

/-- After any calls each declaration of a variable or an array that hides a name of an enclosing
scope is warned of once, with the level of what it hides.  No call warns otherwise, not even the
beginning of a procedure that hides such a name. -/
theorem warned_after (asked : p.warnOnShadowing = true) (policy : Policy) (calls : List Call)
    (call : Call) :
    let a := (start policy p).after calls
    ∃ more, (a.apply call).2.diagnostics.toList = a.diagnostics.toList ++ more ∧
      let warned := more.filter (·.code = .shadowed)
      (∀ d span, call = .declare d span → a.Hides call → ∃ hidden outer level,
        a.table.Finds d.name hidden outer ∧ outer < level ∧
          warned = [.shadowed d.name outer span (some level)]) ∧
      (¬ a.Hides call → warned = []) ∧
      ∀ name span, call = .beginProcedure name span → warned = [] := by
  intro a
  have blameless : Blameless a := blameless_after policy p calls
  have asks : a.preferences.warnOnShadowing = true := by
    rw [show a.preferences = p from preferences_after policy p calls, asked]
  obtain ⟨more, told, warned⟩ := blameless.warned call
  refine ⟨more, told, ?_⟩
  rw [warned]
  refine ⟨?_, warnings_of_not_hides, ?_⟩
  · rintro d span rfl hides
    obtain ⟨hidden, outer, looked, warnings⟩ := warnings_of_hides asks hides
    have finds := blameless.formed.finds_iff.1 looked
    obtain ⟨level, here, lt⟩ := lt_level_of_finds (hides_declare_iff.1 hides).1 finds
    exact ⟨hidden, outer, level, finds, lt, by rw [warnings, here]⟩
  · rintro name span rfl
    rfl

end Analysis

end

namespace Analysis

def blockInProgram : Analysis :=
  (start {} { warnOnShadowing := true }).after
    [.beginProgram "m" .dummy, .declare (.simple "x" .int) .dummy, .beginBlock .dummy]

theorem blockInProgram_warned :
    let d := Declaration.array "x" .char none
    blockInProgram.Hides (.declare d .dummy) ∧ blockInProgram.diagnostics = #[] ∧
      ∃ outer level, outer < level ∧ (blockInProgram.declare d .dummy).2.diagnostics.toList.filter
        (·.code = .shadowed) = [.shadowed "x" outer .dummy (some level)] := by
  intro d
  have hides : blockInProgram.Hides (.declare d .dummy) :=
    ⟨"x", .declared (by decide +kernel), by decide +kernel⟩
  have quiet : blockInProgram.diagnostics = #[] := by decide +kernel
  obtain ⟨more, told, once, -⟩ := warned_after (p := { warnOnShadowing := true }) rfl {}
    [.beginProgram "m" .dummy, .declare (.simple "x" .int) .dummy, .beginBlock .dummy]
    (.declare d .dummy)
  obtain ⟨hidden, outer, level, -, lt, warned⟩ := once d .dummy rfl hides
  rw [← blockInProgram, quiet] at told
  exact ⟨hides, quiet, outer, level, lt, (congrArg (List.filter _) told).trans warned⟩

def inProcedure : List Call := [.beginProgram "m" .dummy, .beginProcedure "p" .dummy]

/-- A procedure within one of the same name hides that one without a warning. -/
theorem not_warned_procedure :
    ¬ ∀ (policy : Policy) (p : Preferences) (calls : List Call) (call : Call),
      p.warnOnShadowing = true →
      let a := (start policy p).after calls
      ∃ more, (a.apply call).2.diagnostics.toList = a.diagnostics.toList ++ more ∧
        (a.Hides call → more.countP (·.code = .shadowed) = 1) ∧
        (¬ a.Hides call → more.countP (·.code = .shadowed) = 0) := by
  intro warned
  let p : Preferences := { warnOnShadowing := true }
  let a := (start {} p).after inProcedure
  let call := Call.beginProcedure "p" .dummy
  have hides : a.Hides call := ⟨"p", .procedure (by decide +kernel), by decide +kernel⟩
  have untold : (a.apply call).2.diagnostics = a.diagnostics := by decide +kernel
  obtain ⟨more, told, once, -⟩ := warned {} p inProcedure call rfl
  have nothing : more = [] := List.append_right_eq_self.1 (told.symm.trans (by rw [untold]))
  have none_told := once hides
  rw [nothing] at none_told
  cases none_told

end Analysis

end ScopeFrames
