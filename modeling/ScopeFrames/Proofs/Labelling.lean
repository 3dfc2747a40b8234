import ScopeFrames.Proofs.Finish

namespace ScopeFrames

namespace Entry

def unlabelled (e : Entry) : Bool := e.category.ownsFrame && e.label.isNone

def tag (e : Entry) : String × Option Label := (e.name, e.label)

theorem unlabelled_iff {e : Entry} :
    e.unlabelled = true ↔ e.category.ownsFrame = true ∧ e.label = none := by
  simp [unlabelled]

end Entry

def Scope.tags (s : Scope) : List (String × Option Label) := s.entries.toList.map Entry.tag

/-- A declaration that was not refused: what was declared, in which scope, and the label that the
entry of that name has there. -/
structure Landing where
  entry : Entry
  scope : Option ScopeId
  label : Option Label
  deriving DecidableEq

namespace Table

def given (landings : List Landing) : Nat := landings.countP (·.entry.unlabelled)

theorem given_append (all more : List Landing) : given (all ++ more) = given all + given more :=
  List.countP_append

def Recalls (all : List Landing) (id : ScopeId) (tag : String × Option Label) : Prop :=
  ∃ l ∈ all, l.scope = some id ∧ (l.entry.name, l.label) = tag

theorem Recalls.append {all : List Landing} {id : ScopeId} {tag : String × Option Label}
    (recalls : Recalls all id tag) (more : List Landing) : Recalls (all ++ more) id tag := by
  obtain ⟨l, landed, here⟩ := recalls
  exact ⟨l, List.mem_append_left more landed, here⟩

theorem tags_sized (s : Scope) (size : Int64) (owner : Option String) :
    (s.sized size owner).tags = s.tags :=
  Scope.map_sized fun _ _ => rfl

theorem tags_placed {s : Scope} {offsets : List Int64} (enough : offsets.length = s.size) :
    (s.placed offsets).tags = s.tags := by
  have enough : offsets.length = s.entries.toList.length := by simpa [Scope.size] using enough
  simpa [Scope.placed, Scope.tags] using
    Scope.map_zipWith_withOffset enough (f := Entry.tag) fun _ _ => rfl

theorem labelled_withLabel (e : Entry) (label : Label) (next : Nat) :
    labelled (e.withLabel label) next = .ok (e.withLabel label, next) := by
  simp [labelled, Entry.withLabel]

section

variable [Limits]

def landing? (t : Table) : Operation → Option Landing
  | .declare e =>
    match t.declare e with
    | (.ok (), t') => some ⟨e, t'.current?.map (·.id), (t'.lookupCurrent? e.name).bind (·.label)⟩
    | (.error _, _) => none
  | _ => none

def landings (t : Table) : List Operation → List Landing
  | [] => []
  | op :: ops => (t.landing? op).toList ++ (t.apply op).2.landings ops

inductive Shows (t : Table) (ops : List Operation) (id : ScopeId) (e : Entry) : Prop
  | live {s} : s ∈ (t.after ops).scopes → s.id = id → e ∈ s.entries → Shows t ops id e
  | closed {scope} : .closed scope ∈ t.outcomes ops → scope.id = id → e ∈ scope.entries →
      Shows t ops id e
  | abandoned {s} : .abandoned s ∈ t.outcomes ops → s.id = id → e ∈ s.entries → Shows t ops id e

def Exhausted (t : Table) : Prop := t.nextLabel = Limits.maxLabel

def exhaustedCode (t : Table) (name : String) : Code :=
  if name.utf8ByteSize > Limits.identifierBytes then .limitExceeded
  else
    match t.current? with
    | none => .emptyStack
    | some top => if name ∈ top.names then .duplicateName else .limitExceeded

/-- The declaration is refused for want of a label, unless it would be refused with a label of its
own as well. -/
def Unlabelable (t : Table) (e : Entry) : Prop :=
  ∃ err, t.declare e = (.error err, t) ∧ err.code = t.exhaustedCode e.name ∧
    ∀ label, (t.declare (e.withLabel label)).1 = .error err ∨
      (t.declare (e.withLabel label)).1 = .ok () ∧
        err = .limitExceeded "label" Limits.maxLabel Limits.maxLabel

structure Labels (t : Table) (landings : List Landing) : Prop where
  automatic : (landings.filter (·.entry.unlabelled)).map (·.label) =
    (List.range (given landings)).map fun k => some ⟨Limits.firstLabel + k⟩
  distinct : ((landings.filter (·.entry.unlabelled)).map (·.label)).Nodup
  explicit : ∀ l ∈ landings, ∀ label, l.entry.label = some label → l.label = some label
  counter : t.nextLabel = Limits.firstLabel + given landings
  counter_le : t.nextLabel ≤ Limits.maxLabel
  moves : ∀ op, (t.apply op).2.nextLabel =
    if (t.landing? op).any (·.entry.unlabelled) then t.nextLabel + 1 else t.nextLabel
  exhausted : t.Exhausted → (∀ ops, (t.after ops).Exhausted) ∧
    ∀ e, e.unlabelled = true → t.Unlabelable e

variable {t t' : Table} {e : Entry} {l : Landing} {op : Operation} {ops : List Operation}
  {all : List Landing} {o : Outcome}

structure Counts (t : Table) (op : Operation) : Prop where
  label : ∀ l ∈ t.landing? op,
    l.label = if l.entry.unlabelled then some ⟨t.nextLabel⟩ else l.entry.label
  moves : (t.apply op).2.nextLabel =
    if (t.landing? op).any (·.entry.unlabelled) then t.nextLabel + 1 else t.nextLabel

theorem landing?_declare {top : Scope} {outer : List Scope} {stored : Entry} {next : Nat}
    (fresh : e.name ∉ top.names)
    (labelled : labelled e t.nextLabel = .ok (stored, next))
    (done : t.declare e = (.ok (), { t with
      scopes := top.extended [stored.atLevel top.level] :: outer, nextLabel := next })) :
    t.landing? (.declare e) = some ⟨e, some top.id, stored.label⟩ := by
  have found : (top.extended [stored.atLevel top.level]).find? e.name =
      some (stored.atLevel top.level) := by
    simp [Scope.find?_extended, Scope.find?_eq_none.2 fresh, Entry.atLevel, labelled_name labelled]
  simp only [landing?, done, current?, lookupCurrent?, List.head?_cons, Option.map_some,
    Option.bind_some, found]
  rfl

theorem counts_declare (done : t.declare e = (.ok (), t')) : t.Counts (.declare e) := by
  obtain ⟨top, outer, stored, next, scopes, -, fresh, -, labelled, rfl⟩ := declare_eq_ok.1 done
  have landing := landing?_declare fresh labelled done
  have counted := labelled_eq_ok.1 labelled
  refine ⟨fun l landed => ?_, ?_⟩
  · rw [landing] at landed
    cases landed
    split at counted
    · next needs => rw [if_pos (Entry.unlabelled_iff.2 needs), counted.2.1]; rfl
    · next kept => rw [if_neg (mt Entry.unlabelled_iff.1 kept), counted.1]
  · rw [landing, Option.any_some]
    simp only [apply, done, Prod.map, id_eq]
    split at counted
    · next needs => rw [if_pos (Entry.unlabelled_iff.2 needs), counted.2.2]
    · next kept => rw [if_neg (mt Entry.unlabelled_iff.1 kept), counted.2]

theorem Step.nextLabel_eq (step : t.Step op o t') (other : ∀ e, op ≠ .declare e) :
    t'.nextLabel = t.nextLabel := by
  cases step with
  | refused | entered | enteredProcedure | exited | finished | abandoned => rfl
  | declared => exact absurd rfl (other _)

theorem Formed.counts (formed : t.Formed) (op : Operation) : t.Counts op := by
  by_cases declares : ∃ e, op = .declare e
  · obtain ⟨e, rfl⟩ := declares
    rcases done : t.declare e with ⟨err | ⟨⟩, t'⟩
    · have idle : t.landing? (.declare e) = none := by simp [landing?, done]
      refine ⟨by simp [idle], ?_⟩
      rw [idle, Table.apply, done, declare_refused done]
      rfl
    · exact counts_declare done
  · have idle : t.landing? op = none := by
      cases op with
      | declare e => exact absurd ⟨e, rfl⟩ declares
      | enter | enterProcedure | exit | finish | abandon => rfl
    refine ⟨by simp [idle], ?_⟩
    rw [(formed.step op).nextLabel_eq (not_exists.1 declares), idle]
    rfl

theorem Counts.moves_given (counts : t.Counts op) :
    (t.apply op).2.nextLabel = t.nextLabel + given (t.landing? op).toList := by
  rw [counts.moves]
  cases t.landing? op with
  | none => rfl
  | some l => cases unlabelled : l.entry.unlabelled <;> simp [given, unlabelled]

theorem Counts.label_given (counts : t.Counts op) :
    ((t.landing? op).toList.filter (·.entry.unlabelled)).map (·.label) =
      (List.range' t.nextLabel (given (t.landing? op).toList)).map fun n => some ⟨n⟩ := by
  cases landed : t.landing? op with
  | none => rfl
  | some l =>
    have label := counts.label l landed
    cases unlabelled : l.entry.unlabelled with
    | false => simp [given, unlabelled]
    | true =>
      rw [if_pos unlabelled] at label
      simp [given, unlabelled, label]

theorem Formed.labels_run (formed : t.Formed) (ops : List Operation) :
    (t.after ops).nextLabel = t.nextLabel + given (t.landings ops) ∧
      ((t.landings ops).filter (·.entry.unlabelled)).map (·.label) =
        (List.range' t.nextLabel (given (t.landings ops))).map fun n => some ⟨n⟩ := by
  induction ops generalizing t with
  | nil => exact ⟨rfl, rfl⟩
  | cons op ops ih =>
    have counts := formed.counts op
    obtain ⟨reached, labels⟩ := ih (formed.apply op)
    rw [counts.moves_given] at reached labels
    simp only [landings, after_cons, given_append, List.filter_append, List.map_append, reached,
      labels, counts.label_given, Nat.add_assoc, true_and]
    rw [← List.map_append, List.range'_append_1]

theorem Formed.explicit_run (formed : t.Formed) (member : l ∈ t.landings ops) {label : Label}
    (brought : l.entry.label = some label) : l.label = some label := by
  induction ops generalizing t with
  | nil => cases member
  | cons op ops ih =>
    rcases List.mem_append.1 member with now | later
    · have needless : ¬ l.entry.unlabelled = true := by simp [Entry.unlabelled, brought]
      rw [(formed.counts op).label l (Option.mem_toList.1 now), if_neg needless, brought]
    · exact ih (formed.apply op) later

theorem Formed.exhausted_after (formed : t.Formed) (exhausted : t.Exhausted)
    (ops : List Operation) : (t.after ops).Exhausted := by
  have reached := (formed.labels_run ops).1
  have le : (t.after ops).nextLabel ≤ Limits.maxLabel :=
    (after_induction formed fun _ op _ formed => formed.apply op : (t.after ops).Formed).counter_le
  unfold Exhausted at exhausted ⊢
  omega

theorem Bars.code_eq {name : String} {err : TableError} (bars : t.Bars name err) :
    err.code = t.exhaustedCode name := by
  cases bars with
  | long long =>
    rw [exhaustedCode, if_pos long]
    rfl
  | unopened short scopes =>
    simp only [exhaustedCode, if_neg (Nat.not_lt.2 short), current?, scopes, List.head?_nil]
    rfl
  | taken short scopes taken =>
    simp only [exhaustedCode, if_neg (Nat.not_lt.2 short), current?, scopes, List.head?_cons,
      if_pos taken]
    rfl
  | full short scopes fresh =>
    simp only [exhaustedCode, if_neg (Nat.not_lt.2 short), current?, scopes, List.head?_cons,
      if_neg fresh]
    rfl

theorem unlabelable (exhausted : t.Exhausted) (unlabelled : e.unlabelled = true) :
    t.Unlabelable e := by
  rcases t.bars_or_room e.name with ⟨err, bars⟩ | ⟨top, outer, scopes, short, fresh, few⟩
  · exact ⟨err, declare_barred bars, bars.code_eq, fun label =>
      .inl (congrArg Prod.fst (declare_barred (e := e.withLabel label) bars))⟩
  · have needs : (e.category.ownsFrame && e.label.isNone) = true := unlabelled
    have refused : labelled e t.nextLabel =
        .error (.limitExceeded "label" Limits.maxLabel Limits.maxLabel) := by
      rw [exhausted, labelled, if_pos needs, if_neg (Nat.lt_irrefl _)]
    refine ⟨_, ?_, ?_, fun label => .inr ⟨?_, rfl⟩⟩
    · rw [declare_roomy scopes short fresh few, refused]
    · simp only [exhaustedCode, if_neg (Nat.not_lt.2 short), current?, scopes, List.head?_cons,
        if_neg fresh]
      rfl
    · have landed : t.declare (e.withLabel label) = (.ok (), _) :=
        declare_eq_ok.2 ⟨top, outer, _, _, scopes, short, fresh, few,
          labelled_withLabel e label t.nextLabel, rfl⟩
      rw [landed]

def Traced (t : Table) (all : List Landing) : Prop :=
  ∀ s ∈ t.scopes, ∀ tag ∈ s.tags, Recalls all s.id tag

theorem Step.traced (step : t.Step op o t') (traced : t.Traced all) :
    t'.Traced (all ++ (t.landing? op).toList) := by
  have kept : t.Traced (all ++ (t.landing? op).toList) :=
    fun s live tag member => (traced s live tag member).append _
  have opened : ∀ owner, (t.pushed owner).Traced (all ++ (t.landing? op).toList) := by
    intro owner s live
    rcases List.mem_cons.1 live with rfl | old
    · simp [Scope.tags]
    · exact kept s old
  cases step with
  | refused => exact kept
  | entered => exact opened none
  | enteredProcedure => exact opened _
  | @exited inner around rest _ _ scopes =>
    intro s live
    rcases List.mem_cons.1 live with rfl | old
    · rw [tags_sized, Scope.sized_id]
      exact kept around (by simp [scopes])
    · exact kept s (by simp [scopes, old])
  | finished => simp [Traced]
  | abandoned scopes => exact fun s live => kept s (by rw [scopes]; exact .tail _ live)
  | @declared e top outer stored next scopes short fresh few labelled =>
    have done := declare_eq_ok.2
      ⟨top, outer, stored, next, scopes, short, fresh, few, labelled, rfl⟩
    have landed := landing?_declare fresh labelled done
    intro s live
    rcases List.mem_cons.1 live with rfl | old
    · intro tag member
      simp only [Scope.tags, Scope.extended, List.map_append, List.mem_append, List.map_cons,
        List.map_nil, List.mem_singleton] at member
      rcases member with earlier | rfl
      · exact kept top (by simp [scopes]) tag earlier
      · refine ⟨_, List.mem_append_right _ (Option.mem_toList.2 landed), rfl, ?_⟩
        exact Prod.ext (labelled_name labelled).symm rfl
    · exact kept s (by simp [scopes, old])

theorem Step.tags_closed {scope : ClosedScope} (step : t.Step op (.closed scope) t') :
    ∃ s ∈ t.scopes, s.id = scope.id ∧ scope.entries.map Entry.tag = s.tags := by
  cases step with
  | @exited inner _ _ _ _ scopes lays =>
    exact ⟨inner, by simp [scopes], rfl, tags_placed (Scope.lays_length lays)⟩
  | @finished program _ _ scopes lays =>
    refine ⟨program, by simp [scopes], by simp [ClosedScope.ofScope], ?_⟩
    exact (tags_sized _ _ _).trans (tags_placed (Scope.lays_length lays))

theorem Step.live_abandoned {s : Scope} (step : t.Step op (.abandoned s) t') : s ∈ t.scopes := by
  cases step with
  | abandoned scopes => simp [scopes]

theorem Formed.recalls (formed : t.Formed) (traced : t.Traced all) {id : ScopeId}
    (shows : t.Shows ops id e) : Recalls (all ++ t.landings ops) id e.tag := by
  induction ops generalizing t all with
  | nil =>
    cases shows with
    | @live s live here inside =>
      exact here ▸ (traced s live e.tag (List.mem_map_of_mem (by simpa using inside))).append []
    | closed out | abandoned out => cases out
  | cons op ops ih =>
    have step := formed.step op
    have later (shows : (t.apply op).2.Shows ops id e) :
        Recalls (all ++ t.landings (op :: ops)) id e.tag := by
      rw [landings, ← List.append_assoc]
      exact ih (formed.apply op) (step.traced traced) shows
    have now {s : Scope} (live : s ∈ t.scopes) (here : s.id = id) (member : e.tag ∈ s.tags) :
        Recalls (all ++ t.landings (op :: ops)) id e.tag :=
      here ▸ (traced s live e.tag member).append _
    cases shows with
    | live live here inside => exact later (.live live here inside)
    | closed out here inside =>
      rcases List.mem_cons.1 out with same | out
      · rw [← same] at step
        obtain ⟨s, live, same, tags⟩ := step.tags_closed
        exact now live (same.trans here) (tags ▸ List.mem_map_of_mem inside)
      · exact later (.closed out here inside)
    | abandoned out here inside =>
      rcases List.mem_cons.1 out with same | out
      · rw [← same] at step
        exact now step.live_abandoned here (List.mem_map_of_mem (by simpa using inside))
      · exact later (.abandoned out here inside)

/-- Over any run the entries that bring no label get the numbers from the first one on, in all
scopes that were ever open and for good; those that bring one keep it; and where no number is left,
nothing that needs one is declared any more. -/
theorem labels_after (policy : Policy) (ops : List Operation) :
    let start : Table := { policy }
    (start.after ops).Labels (start.landings ops) ∧
      ∀ id e, start.Shows ops id e → ∃ l ∈ start.landings ops,
        l.scope = some id ∧ l.entry.name = e.name ∧ l.label = e.label := by
  intro start
  have empty : start.Formed := formed_empty policy
  have formed : (start.after ops).Formed := formed_after policy ops
  obtain ⟨counter, labels⟩ := empty.labels_run ops
  have automatic : ((start.landings ops).filter (·.entry.unlabelled)).map (·.label) =
      (List.range (given (start.landings ops))).map fun k => some ⟨Limits.firstLabel + k⟩ := by
    rw [labels, List.range'_eq_map_range, List.map_map]
    rfl
  refine ⟨⟨automatic, ?_, fun l landed label => empty.explicit_run landed, counter,
    formed.counter_le, fun op => (formed.counts op).moves, fun exhausted =>
      ⟨formed.exhausted_after exhausted, fun e => unlabelable exhausted⟩⟩, fun id e shows => ?_⟩
  · rw [automatic]
    refine List.nodup_range.map fun j k same => ?_
    simpa using same
  · have traced : start.Traced [] := by simp [Traced, start]
    obtain ⟨l, landed, here, same⟩ := empty.recalls traced shows
    exact ⟨l, landed, here, congrArg Prod.fst same, congrArg Prod.snd same⟩

def rounds : Nat → List Operation
  | 0 => []
  | n + 1 => .enter :: .declare (.procedure "p") :: .abandon :: rounds n

theorem after_round {s : Scope} (alone : t.scopes = [s]) (room : t.nextLabel < Limits.maxLabel) :
    (((t.apply .enter).2.apply (.declare (.procedure "p"))).2.apply .abandon).2 =
      { t with nextLabel := t.nextLabel + 1, nextId := t.nextId + 1 } := by
  have shallow : t.depth < Limits.scopeDepth := by
    rw [depth, alone]
    exact Limits.scopeDepth_ge
  have entered : t.enter = (.ok ⟨t.nextId⟩, t.pushed none) := push_eq_ok.2 ⟨shallow, rfl, rfl⟩
  have labelled : labelled (.procedure "p") t.nextLabel =
      .ok ((Entry.procedure "p").withLabel ⟨t.nextLabel⟩, t.nextLabel + 1) :=
    labelled_eq_ok.2 (by simp [Entry.procedure, Category.ownsFrame, room])
  obtain ⟨x, declared⟩ : ∃ x, (t.pushed none).declare (.procedure "p") =
      (.ok (), { t.pushed none with scopes := x :: t.scopes, nextLabel := t.nextLabel + 1 }) :=
    ⟨_, declare_eq_ok.2 ⟨_, t.scopes, _, _, rfl, Limits.identifierBytes_pos, by simp [Scope.names],
      Limits.entriesPerScope_pos, labelled, rfl⟩⟩
  simp only [apply, entered, Prod.map, id_eq, declared]
  simp [abandon, alone, pushed]

theorem after_rounds {s : Scope} {n : Nat} (alone : t.scopes = [s])
    (le : t.nextLabel + n ≤ Limits.maxLabel) :
    t.after (rounds n) = { t with nextLabel := t.nextLabel + n, nextId := t.nextId + n } := by
  induction n generalizing t with
  | zero => rfl
  | succ n ih =>
    simp only [rounds, after_cons]
    rw [after_round alone (by omega), ih (by exact alone) (by simp; omega)]
    simp only [mk.injEq, true_and]
    omega

/-- The labels of dropped scopes are not given back, so that a single scope can be left without. -/
theorem exists_exhausted {policy : Policy} {known : List Operation} {s : Scope}
    (alone : (({ policy } : Table).after known).scopes = [s]) :
    ∃ ops, (({ policy } : Table).after ops).Exhausted ∧
      (({ policy } : Table).after ops).scopes = [s] := by
  have le := (formed_after policy known).counter_le
  have all := Nat.add_sub_cancel' le
  refine ⟨known ++ rounds (Limits.maxLabel - (({ policy } : Table).after known).nextLabel), ?_⟩
  rw [after_append, after_rounds alone all.le]
  exact ⟨all, alone⟩

end

theorem droppedRounds_labels : ∃ ops, let t := ({ policy := {} } : Table).after ops
    t.Exhausted ∧ ∃ err, t.declare (.procedure "q") = (.error err, t) ∧
      err.code = .limitExceeded := by
  have entered : (({ policy := {} } : Table).after [.enter]).scopes = [{ id := ⟨0⟩, level := 0 }] :=
    rfl
  obtain ⟨ops, exhausted, alone⟩ := exists_exhausted entered
  obtain ⟨err, refused, code, -⟩ :=
    ((labels_after {} ops).1.exhausted exhausted).2 (.procedure "q") rfl
  refine ⟨ops, exhausted, err, refused, code.trans ?_⟩
  rw [exhaustedCode, current?, alone]
  decide

theorem not_limitExceeded_duplicate :
    ¬ ∀ ops, ∀ e : Entry, (({ policy := {} } : Table).after ops).Exhausted → e.unlabelled = true →
      ∃ err t', (({ policy := {} } : Table).after ops).declare e = (.error err, t') ∧
        err.code = .limitExceeded := by
  intro limited
  let known : Table := ({ policy := {} } : Table).after [.enter, .declare (.simple "q" .int)]
  obtain ⟨s, alone⟩ : ∃ s, known.scopes = [s] := List.length_eq_one_iff.1 (by decide +kernel)
  have declared : ∀ s ∈ known.scopes, "q" ∈ s.names := by decide +kernel
  have inside : s ∈ known.scopes := by simp [alone]
  obtain ⟨ops, exhausted, alone⟩ := exists_exhausted alone
  obtain ⟨err, t', refused, limit⟩ := limited ops (.procedure "q") exhausted rfl
  obtain ⟨err', refused', code, -⟩ := unlabelable (e := .procedure "q") exhausted rfl
  cases refused.symm.trans refused'
  have taken : exhaustedCode (({ policy := {} } : Table).after ops) "q" = .duplicateName := by
    rw [exhaustedCode, if_neg (by decide), current?, alone]
    exact if_pos (declared s inside)
  exact absurd (limit.symm.trans (code.trans taken)) (by decide)

end Table

end ScopeFrames
