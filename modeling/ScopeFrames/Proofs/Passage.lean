import ScopeFrames.Proofs.Inside

namespace ScopeFrames.View

variable [Limits]

open Table

def through (v : View) (top : Scope) (outer : List Scope) (reach : List (String × Nat)) (b : Body) :
    View :=
  { v with
    table := { v.table with
      scopes := top.extended (b.stored v.table.policy top.level v.table.nextLabel) :: outer
      nextLabel := v.table.nextLabel + b.count StepKind.labels
      nextId := v.table.nextId + b.count StepKind.opens }
    closed := v.closed ++ b.closed v.table.policy top.level v.table.nextId v.table.nextLabel
    diagnostics := v.diagnostics ++ b.warnings v.preferences top.level reach
    declared := v.declared + b.count StepKind.declares
    resolved := v.resolved + b.count StepKind.refers }

def closing (v : View) (below : Scope) (outer : List Scope) (opened : List Opened) (id level : Nat)
    (owner : Option String) (reach : List (String × Nat)) (b : Body) : View :=
  { v with
    table := { v.table with
      scopes := below.sized (v.table.policy.frameSize b.entries) owner :: outer
      nextLabel := v.table.nextLabel + b.count StepKind.labels
      nextId := v.table.nextId + b.count StepKind.opens }
    opened
    closed := v.closed ++ b.closed v.table.policy level v.table.nextId v.table.nextLabel
      ++ [v.table.policy.close id level owner (b.stored v.table.policy level v.table.nextLabel)]
    diagnostics := v.diagnostics ++ b.warnings v.preferences level reach
    declared := v.declared + b.count StepKind.declares
    resolved := v.resolved + b.count StepKind.refers }

def past (v : View) (programs : List Program) : View :=
  { v with
    table := { v.table with
      nextLabel := v.table.nextLabel + Program.count StepKind.labels programs
      nextId := v.table.nextId + Program.count StepKind.opens programs }
    closed := v.closed
      ++ Program.closed v.table.policy v.table.nextId v.table.nextLabel programs
    diagnostics := v.diagnostics ++ Program.warnings v.preferences programs
    declared := v.declared + Program.count StepKind.declares programs
    resolved := v.resolved + Program.count StepKind.refers programs }

variable {v : View} {steps inner : List Step} {close : Step} {top below : Scope}
  {outer : List Scope} {reach : List (String × Nat)} {body rest : Body}

theorem through_done (scopes : v.table.scopes = top :: outer) :
    v.through top outer reach .done = v := by
  simp [through, Body.stored, Body.count, Body.closed, Body.warnings, ← scopes]

theorem through_declare {d : Declaration} {span : Span} :
    (v.declaring top outer reach d span).through (top.extended [d.plain.atLevel top.level]) outer
        ((d.name, top.level) :: reach) rest
      = v.through top outer reach (.declare d span rest) := by
  simp [through, declaring, Body.stored, Body.count, Body.closed, Body.warnings, StepKind.labels,
    StepKind.opens, StepKind.declares, StepKind.refers, Nat.add_assoc]

theorem through_resolve {name : String} :
    through { v with resolved := v.resolved + 1 } top outer reach rest
      = v.through top outer reach (.resolve name rest) := by
  simp [through, Body.stored, Body.count, Body.closed, Body.warnings, StepKind.labels,
    StepKind.opens, StepKind.declares, StepKind.refers, Nat.add_assoc]

theorem through_procedure {name : String} (level : top.level = outer.length) :
    ((v.entering top outer name).closing
        (top.extended [(Entry.procedure name).labelled top.level v.table.nextLabel]) outer v.opened
        v.table.nextId (outer.length + 1) (some name) ((name, top.level) :: reach) body).through
      (top.extended [(Entry.procedure name).owning top.level v.table.nextLabel
        (v.table.policy.frameSize body.entries)]) outer ((name, top.level) :: reach) rest
      = v.through top outer reach (.procedure name body rest) := by
  simp [through, closing, entering, promising, pushed, Body.stored, Body.count, Body.closed,
    Body.warnings, StepKind.labels, StepKind.opens, StepKind.declares, StepKind.refers, level,
    Nat.add_assoc]

theorem through_block (level : top.level = outer.length) :
    (closing { v with table := v.table.pushed none, opened := .block :: v.opened } top outer
        v.opened v.table.nextId (outer.length + 1) none reach body).through top outer reach rest
      = v.through top outer reach (.block body rest) := by
  simp [through, closing, pushed, Scope.sized, Body.stored, Body.count, Body.closed, Body.warnings,
    StepKind.labels, StepKind.opens, StepKind.declares, StepKind.refers, level, Nat.add_assoc]

theorem past_nil : v.past [] = v := by
  simp [past, Program.count, Program.closed, Program.warnings]

theorem past_cons {q : Program} {programs : List Program} :
    (v.past [q]).past programs = v.past (q :: programs) := by
  simp [past, Program.count, Program.closed, Program.warnings, StepKind.labels, StepKind.opens,
    Nat.add_assoc]

/-- The end of a scope after its body, where the table held nothing in that scope before. -/
theorem leads_closing {o : Opened} {opened : List Opened} {id level : Nat} {owner : Option String}
    (formed : (v.through { id := ⟨id⟩, level, owner } (below :: outer) reach body).table.Formed)
    (kind : close.kind = .close) (opens : v.opened = o :: opened) (nested : o ≠ .program)
    (real : o ≠ .placeholder) :
    (v.through { id := ⟨id⟩, level, owner } (below :: outer) reach body).Leads [close]
      (v.table.policy.Laid body.entries)
      (v.closing below outer opened id level owner reach body) := by
  have size : v.table.policy.frameSize (body.stored v.table.policy level v.table.nextLabel)
      = v.table.policy.frameSize body.entries := Body.frameSize_stored
  refine (leads_close formed rfl kind opens nested real).congr Body.laid_stored ?_
  rw [closing, ← size]
  rfl

theorem leads_body {b : Body} (spells : b.Spells steps) (valid : ∀ s ∈ steps, s.fault? = none)
    (inside : v.table.Inside top outer reach) :
    v.Leads steps (b.Admitted v.table.policy top.names (outer.length + 1) (reach.map (·.1))
      v.table.nextLabel) (v.through top outer reach b) := by
  induction spells generalizing v top outer reach with
  | done =>
    have nested := inside.formed.nested
    have shallow := inside.formed.depth_le
    rw [depth, inside.scopes] at shallow
    rw [inside.scopes] at nested
    rw [through_done inside.scopes]
    intro w
    exact (and_iff_right
      (Body.admitted_done nested.1.room shallow inside.formed.counter_le)).symm
  | @declare s d rest steps kind given spells ih =>
    obtain ⟨d', given', plain⟩ := Step.declares_of_valid (valid s (by simp)) kind
    cases given.symm.trans given'
    have declares := leads_declare inside kind given plain
    refine (declares.cons fun allowed => ?_).congr Body.admitted_declare.symm through_declare
    have inside' : Inside _ (top.extended [d.plain.atLevel top.level]) outer _ :=
      ⟨declares.formed allowed inside.formed, rfl, reaches_extended d.plain_name inside.reaches⟩
    have names : (top.extended [d.plain.atLevel top.level]).names = top.names ++ [d.name] := by
      simp [Entry.atLevel]
    rw [← names]
    exact ih (fun s member => valid s (by simp [member])) inside'
  | @resolve s rest steps kind spells ih =>
    refine ((leads_resolve inside kind).cons fun known => ?_).congr Body.admitted_resolve.symm
      through_resolve
    exact ih (v := { v with resolved := _ }) (fun s member => valid s (by simp [member])) inside
  | @procedure s close body rest inner after kind _ ends _ ihBody ihRest =>
    have opens := leads_procedure inside kind
    refine (opens.cons fun allowed => ?_).congr Body.admitted_procedure.symm
      (through_procedure inside.level_eq)
    have entered := opens.formed allowed inside.formed
    have promised := reaches_extended (e := (Entry.procedure s.name).labelled top.level
      v.table.nextLabel) rfl inside.reaches
    have inside' : Inside _
        { id := ⟨v.table.nextId⟩, level := outer.length + 1, owner := some s.name }
        (top.extended [_] :: outer) ((s.name, top.level) :: reach) :=
      ⟨entered, rfl, reaches_entered promised⟩
    have passes := ihBody (fun s member => valid s (by simp [member])) inside'
    refine passes.append fun admitted => ?_
    have run := passes.formed admitted entered
    have closes := leads_closing run ends rfl (by simp) (by simp)
    refine closes.cons fun laid => ?_
    have sized := Scope.sized_extended (e := (Entry.procedure s.name).labelled top.level
      v.table.nextLabel) allowed.1 (v.table.policy.frameSize body.entries)
    have inside'' : Inside _ (top.extended [(Entry.procedure s.name).owning top.level
        v.table.nextLabel (v.table.policy.frameSize body.entries)]) outer
        ((s.name, top.level) :: reach) :=
      ⟨closes.formed laid run, congrArg (· :: outer) sized, reaches_extended rfl inside.reaches⟩
    have names : (top.extended [(Entry.procedure s.name).owning top.level v.table.nextLabel
        (v.table.policy.frameSize body.entries)]).names = top.names ++ [s.name] :=
      Scope.names_extended
    rw [← names]
    exact ihRest (fun s member => valid s (by simp [member])) inside''
  | @block s close body rest inner after kind _ ends _ ihBody ihRest =>
    have opens := leads_block inside kind
    refine (opens.cons fun shallow => ?_).congr Body.admitted_block.symm
      (through_block inside.level_eq)
    have entered := opens.formed shallow inside.formed
    have scopes : (v.table.pushed none).scopes
        = { id := ⟨v.table.nextId⟩, level := outer.length + 1 } :: top :: outer := by
      simp [pushed, depth, inside.scopes]
    have passes := ihBody (fun s member => valid s (by simp [member]))
      ⟨entered, scopes, reaches_entered inside.reaches⟩
    refine passes.append fun admitted => ?_
    have run := passes.formed admitted entered
    have closes := leads_closing run ends rfl (by simp) (by simp)
    refine closes.cons fun laid => ?_
    exact ihRest (fun s member => valid s (by simp [member]))
      ⟨closes.formed laid run, rfl, inside.reaches⟩

def programScope (v : View) (name : String) : Scope :=
  ({ id := ⟨v.table.nextId⟩, level := 0 } : Scope).extended
    [(Entry.program name).labelled 0 v.table.nextLabel]

theorem inside_starting {name : String} (formed : (v.starting name).table.Formed) :
    (v.starting name).table.Inside (v.programScope name) [] [(name, 0)] :=
  have empty (sought : String) : levelOf? [{ id := ⟨v.table.nextId⟩, level := 0 }] sought
      = ([] : List (String × Nat)).lookup sought := by
    simp [levelOf?, Scope.names]
  ⟨formed, rfl, reaches_extended rfl empty⟩

theorem leads_end {q : Program}
    (formed : ((v.starting q.name).through (v.programScope q.name) [] [(q.name, 0)]
      q.body).table.Formed)
    (kind : close.kind = .close) (scopes : v.table.scopes = []) (opened : v.opened = []) :
    ((v.starting q.name).through (v.programScope q.name) [] [(q.name, 0)] q.body).Leads [close]
      (v.table.policy.Laid q.entries) (v.past [q]) := by
  have leads := leads_finish formed rfl rfl rfl rfl kind rfl
  have bare : ((Entry.program q.name).labelled 0 v.table.nextLabel
      :: q.body.stored v.table.policy 0 (v.table.nextLabel + 1)).map Entry.bare = q.entries :=
    Program.entries_bare rfl
  have size : v.table.policy.frameSize ((Entry.program q.name).labelled 0 v.table.nextLabel
      :: q.body.stored v.table.policy 0 (v.table.nextLabel + 1))
        = v.table.policy.frameSize q.entries := by
    rw [← bare, Policy.frameSize_bare]
  refine leads.congr ?_ ?_
  · rw [← bare, Policy.laid_bare]
    exact Iff.rfl
  · simp [through, past, starting, programScope, promising, pushed, scopes, opened, size,
      Program.count, Program.closed, Program.warnings, Program.stored, Entry.owning,
      StepKind.labels, StepKind.opens, StepKind.declares, StepKind.refers, Nat.add_assoc]

theorem leads_programs {programs : List Program} (spell : Program.Spell programs steps)
    (valid : ∀ s ∈ steps, s.fault? = none) (formed : v.table.Formed) (scopes : v.table.scopes = [])
    (opened : v.opened = []) :
    v.Leads steps ((∀ q ∈ programs, q.Sound v.table.policy) ∧
      v.table.nextLabel + Program.count StepKind.labels programs ≤ Limits.maxLabel)
      (v.past programs) := by
  induction spell generalizing v with
  | nil =>
    rw [past_nil]
    intro w
    exact (and_iff_right ⟨by simp, formed.counter_le⟩).symm
  | @cons s close body programs inner after kind spells ends _ ih =>
    have opens := leads_program formed scopes opened kind
    refine (opens.cons fun allowed => ?_).congr
      (Program.sound_cons (q := ⟨s.name, body⟩)).symm past_cons
    have begun := opens.formed allowed formed
    have passes := leads_body spells (fun s member => valid s (by simp [member]))
      (inside_starting begun)
    refine passes.append fun admitted => ?_
    have run := passes.formed admitted begun
    have closes := leads_end (q := ⟨s.name, body⟩) run ends scopes opened
    refine closes.cons fun laid => ?_
    have ended := closes.formed laid run
    have counted : (v.past [⟨s.name, body⟩]).table.nextLabel
        = v.table.nextLabel + 1 + body.count StepKind.labels := by
      simp [past, Program.count, StepKind.labels, Nat.add_assoc]
    rw [← counted]
    exact ih (fun s member => valid s (by simp [member])) ended scopes opened

end ScopeFrames.View
