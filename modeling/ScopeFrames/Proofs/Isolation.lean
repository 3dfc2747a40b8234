import ScopeFrames.Proofs.Inside
import ScopeFrames.Proofs.Stack

/-!
What is declared between the beginning and the end of something stays inside, if the beginning got a
scope for it.  Where it got none, the scope that was the innermost before takes it in.
-/

namespace ScopeFrames

namespace Analysis

def Call.Keeps (call : Call) (top later : Scope) : Prop :=
  later = top ∨ ∃ e span, call = .beginProcedure e.name span ∧ later = top.extended [e]

variable {call : Call} {top later : Scope} {name : String}

theorem Call.Keeps.grows (keeps : call.Keeps top later) : top.Grows later := by
  rcases keeps with rfl | ⟨e, span, -, rfl⟩
  · exact .refl _
  · exact Scope.grows_extended _ _

theorem Call.Keeps.old (keeps : call.Keeps top later)
    (other : ∀ span, call ≠ .beginProcedure name span) : name ∈ later.names → name ∈ top.names := by
  rcases keeps with rfl | ⟨e, span, rfl, rfl⟩
  · exact id
  · have elsewhere : name ≠ e.name := by
      rintro rfl
      exact other span rfl
    simp [elsewhere]

end Analysis

section

variable [Limits]

namespace Table

variable {t t' : Table} {top s : Scope} {below : List Scope}

theorem Declares.eq_cons (declares : t.Declares t') (scopes : t.scopes = top :: below) :
    ∃ later, t'.scopes = later :: below ∧ top.Grows later :=
  (declares.over (over_top scopes)).eq_cons (by rw [declares.depth_eq, depth, scopes]; rfl)

theorem Leaves.scopes_eq (leaves : t.Leaves t') (scopes : t.scopes = s :: top :: below) :
    t'.scopes = top :: below ∨ ∃ size, t'.scopes = top.sized size s.owner :: below := by
  rcases leaves with ⟨closed, step⟩ | ⟨dropped, step⟩
  · cases step with
    | exited scopes' =>
      cases scopes.symm.trans scopes'
      exact .inr ⟨_, rfl⟩
  · cases step with
    | abandoned scopes' =>
      cases scopes.symm.trans scopes'
      exact .inl rfl

end Table

namespace Analysis

/-- A run that begins something, keeps more open than was open before, and comes back to that by an
end. -/
structure Excursion (a : Analysis) (first : Call) (body : List Call) (last : Call) : Prop where
  begins : first.begins = true
  stays : ∀ front, front <+: body → a.opened.length < (a.after (first :: front)).opened.length
  ends : ∃ span, last = .endScope span
  back : (a.after (first :: body ++ [last])).opened.length = a.opened.length

structure Isolated (a : Analysis) (first : Call) (b : Analysis) : Prop where
  scopes : ∃ top later below, a.table.scopes = top :: below ∧ b.table.scopes = later :: below ∧
    first.Keeps top later
  resolve_eq : ∀ name, (∀ span, first ≠ .beginProcedure name span) →
    ∀ span, (b.resolve name span).1 = (a.resolve name span).1

/-- What was called left the live scopes as they were but for the innermost, which may have grown,
and no name but those it gained changed its meaning. -/
def Shared (a b : Analysis) : Prop :=
  ∃ top later below, a.table.scopes = top :: below ∧ b.table.scopes = later :: below ∧
    top.Grows later ∧ ∀ name, (name ∈ later.names → name ∈ top.names) →
      ∀ span, (b.resolve name span).1 = (a.resolve name span).1

variable {a b : Analysis} {x y : Standing} {halted : Bool} {call first last : Call}
  {body : List Call} {top later s : Scope} {below : List Scope} {o : Opened} {name : String}
  {span : Span}

theorem resolve_fst (a : Analysis) (name : String) (span : Span) :
    (a.resolve name span).1 = (a.table.lookup? name).map fun (e, depth) => .of e depth := by
  rw [resolve]
  split
  · next found => rw [found]; rfl
  · next unknown => rw [unknown]; rfl

theorem resolve_grows (scopes : a.table.scopes = top :: below)
    (scopes' : b.table.scopes = later :: below) (grows : top.Grows later)
    (old : name ∈ later.names → name ∈ top.names) :
    (b.resolve name span).1 = (a.resolve name span).1 := by
  have unsized : ∀ found : Option (Entry × Nat),
      (found.map fun (e, depth) => Resolution.of e depth) =
        (found.map (Prod.map Entry.unsized id)).map fun (e, depth) => Resolution.of e depth := by
    intro found
    rw [Option.map_map]
    rfl
  rw [resolve_fst, resolve_fst, unsized, Table.lookup?_grows scopes scopes' grows old, ← unsized]

theorem Act.begun {id : ScopeId} (act : Act a call (.opened (some id)) b)
    (begins : call.begins = true) (formed : a.table.Formed) (inside : a.opened ≠ [])
    (scopes : a.table.scopes = top :: below) :
    ∃ o s later, o ≠ .placeholder ∧ b.opened = o :: a.opened ∧
      b.table.scopes = s :: later :: below ∧ call.Keeps top later ∧
      ∀ size, call.Keeps top (later.sized size s.owner) := by
  cases act with
  | refused ends => exact absurd begins (Bool.eq_false_iff.1 ends)
  | begunProgram free => exact absurd free inside
  | @begunProcedure name span _ t t' _ step step' same =>
    obtain ⟨table, opened, -⟩ := Standing.mk.inj same
    have formed' := step.formed formed
    have pushed := step'.opened.1
    cases step with
    | @declared _ _ _ stored _ scopes' _ _ _ labelled =>
      cases scopes.symm.trans scopes'
      have named : (stored.atLevel top.level).name = name := Table.labelled_name labelled
      have room : Room (top.names ++ [(stored.atLevel top.level).name]) := by
        simpa using formed'.nested.1.room
      refine ⟨.procedure name, _, _, by simp, opened, by rw [table, pushed]; rfl,
        .inr ⟨_, span, by rw [named], rfl⟩, fun size => ?_⟩
      have settled := Scope.sized_extended room size
      rw [named] at settled
      exact .inr ⟨_, span, by rw [← named], settled⟩
  | begunBlock _ step same =>
    obtain ⟨table, opened, -⟩ := Standing.mk.inj same
    have pushed : b.table.scopes =
        { id := ⟨a.table.nextId⟩, level := a.table.depth, owner := none } :: top :: below := by
      rw [table, step.opened.1, Table.pushed, scopes]
      rfl
    exact ⟨.block, _, top, by simp, opened, pushed, .inl rfl, fun _ => .inl rfl⟩

theorem Act.stood (act : Act a call (.opened none) b) (begins : call.begins = true)
    (scopes : a.table.scopes = top :: below) :
    ∃ later, b.opened = .placeholder :: a.opened ∧ b.table.scopes = later :: below ∧
      top.Grows later := by
  cases act with
  | refused ends => exact absurd begins (Bool.eq_false_iff.1 ends)
  | stoodIn _ _ declares _ same =>
    obtain ⟨table, opened, -⟩ := Standing.mk.inj same
    obtain ⟨later, scopes', grows⟩ := declares.eq_cons scopes
    exact ⟨later, opened, by rw [table, scopes'], grows⟩

theorem Motion.closes (motion : Motion x halted y) (open_after : y.opened ≠ [])
    (shallower : y.opened.length < x.opened.length) :
    ∃ o, x.opened = o :: y.opened ∧ (o = .placeholder ∧ y.table = x.table ∨
      o ≠ .placeholder ∧ (x.table.Leaves y.table ∨ x.table.depth ≤ 1)) := by
  cases motion with
  | kept | lost => exact absurd shallower (Nat.lt_irrefl _)
  | begun | stoodIn => exact absurd shallower (Nat.not_lt_of_lt (Nat.lt_succ_self _))
  | passed opened => exact ⟨_, opened, .inl ⟨rfl, rfl⟩⟩
  | ended opened _ isReal leaves => exact ⟨_, opened, .inr ⟨isReal, .inl leaves⟩⟩
  | stuck opened isReal shallow => exact ⟨_, opened, .inr ⟨isReal, .inr shallow⟩⟩
  | finished => exact absurd rfl open_after

theorem Excursion.closes (excursion : a.Excursion first body last) (based : Based a.standing)
    (inside : a.opened ≠ []) (opened : (a.apply first).2.opened = o :: a.opened)
    (scopes : (a.apply first).2.table.scopes = s :: below) :
    ∃ t later, t.scopes = later :: below ∧ s.Grows later ∧
      (o = .placeholder ∧ (a.after (first :: body ++ [last])).table = t ∨
        o ≠ .placeholder ∧
          (t.Leaves (a.after (first :: body ++ [last])).table ∨ t.depth ≤ 1)) := by
  have begun : Based (a.apply first).2.standing := (act based.formed first).motion.based based
  have deeper : (a.apply first).2.opened.length = a.opened.length + 1 := congrArg List.length opened
  have enclosed : Enclosed (a.apply first).2.opened s below (a.apply first).2.standing := by
    refine enclosed_top (x := (a.apply first).2.standing) ?_ (fun alone => ?_) scopes
    · exact fun empty => List.cons_ne_nil _ _ (opened.symm.trans empty)
    · exact absurd (List.cons.inj (opened.symm.trans alone)).2 inside
  have enclosed : Enclosed (a.apply first).2.opened s below (a.after (first :: body)).standing :=
    enclosed.after begun fun front early => deeper ▸ excursion.stays front early
  have motion := (act (based.after (first :: body)).formed last).motion
  rw [← after_concat] at motion
  have back := excursion.back
  have stays := excursion.stays body List.prefix_rfl
  have nonempty : (a.after (first :: body ++ [last])).opened ≠ [] := by
    intro empty
    rw [empty, List.length_nil] at back
    exact inside (List.length_eq_zero_iff.1 back.symm)
  obtain ⟨o', opened', kind⟩ := motion.closes nonempty (back ▸ stays)
  have level : (a.after (first :: body)).opened.length = (a.apply first).2.opened.length :=
    (congrArg List.length opened').trans (deeper ▸ congrArg (· + 1) back)
  obtain ⟨same, later, scopes', grows⟩ := enclosed.eq_cons level
  obtain rfl : o' = o := (List.cons.inj (opened'.symm.trans (same.trans opened))).1
  exact ⟨_, later, scopes', grows, kind⟩

theorem Excursion.isolated {id : ScopeId} (excursion : a.Excursion first body last)
    (based : Based a.standing) (inside : a.opened ≠ []) (scopes : a.table.scopes = top :: below)
    (answer : (a.apply first).1 = .opened (some id)) :
    a.Isolated first (a.after (first :: body ++ [last])) := by
  have begun := act based.formed first
  rw [answer] at begun
  obtain ⟨o, s, kept, isReal, opened, scopes_begun, keeps, settles⟩ :=
    begun.begun excursion.begins based.formed inside scopes
  obtain ⟨t, later, scopes_before, grows, ⟨stands, -⟩ | ⟨-, leaves⟩⟩ :=
    excursion.closes based inside opened scopes_begun
  · exact absurd stands isReal
  have leaves : t.Leaves (a.after (first :: body ++ [last])).table := by
    refine leaves.resolve_right fun shallow => ?_
    simp [Table.depth, scopes_before] at shallow
  obtain ⟨left, scopes_after, keeps⟩ : ∃ left,
      (a.after (first :: body ++ [last])).table.scopes = left :: below ∧ first.Keeps top left := by
    rcases leaves.scopes_eq scopes_before with same | ⟨size, sized⟩
    · exact ⟨kept, same, keeps⟩
    · exact ⟨_, sized, grows.owner_eq ▸ settles size⟩
  exact ⟨⟨top, left, below, scopes, scopes_after, keeps⟩, fun name other span =>
    resolve_grows scopes scopes_after keeps.grows (keeps.old other)⟩

theorem Excursion.shared (excursion : a.Excursion first body last) (based : Based a.standing)
    (inside : a.opened ≠ []) (scopes : a.table.scopes = top :: below)
    (answer : (a.apply first).1 = .opened none) : a.Shared (a.after (first :: body ++ [last])) := by
  have begun := act based.formed first
  rw [answer] at begun
  obtain ⟨kept, opened, scopes_begun, grown⟩ := begun.stood excursion.begins scopes
  obtain ⟨t, later, scopes_after, grows, ⟨-, table⟩ | ⟨isReal, -⟩⟩ :=
    excursion.closes based inside opened scopes_begun
  · rw [← table] at scopes_after
    exact ⟨top, later, below, scopes, scopes_after, grown.trans grows, fun name old span =>
      resolve_grows scopes scopes_after (grown.trans grows) old⟩
  · exact absurd rfl isReal

/-- After any calls that leave something open: what goes on between a beginning and its end is
isolated if the beginning got a scope, and else is shared with the innermost scope. -/
theorem isolated_after (policy : Policy) (preferences : Preferences) (calls : List Call)
    (excursion : ((start policy preferences).after calls).Excursion first body last)
    (inside : ((start policy preferences).after calls).opened ≠ []) :
    let a := (start policy preferences).after calls
    let b := a.after (first :: body ++ [last])
    (∀ id, (a.apply first).1 = .opened (some id) → a.Isolated first b) ∧
      ((a.apply first).1 = .opened none → a.Shared b) := by
  have based := based_after policy preferences calls
  have live : 0 < ((start policy preferences).after calls).table.scopes.length :=
    (based.grounded.real_pos inside).trans based.covered
  obtain ⟨top, below, scopes⟩ := List.exists_cons_of_length_pos live
  exact ⟨fun id answer => excursion.isolated based inside scopes answer,
    fun answer => excursion.shared based inside scopes answer⟩

end Analysis

end

namespace Analysis

def settled : List Call :=
  [ .beginProgram "m" .dummy, .beginProcedure "p" .dummy, .endScope .dummy,
    .declare (.simple "x" .int) .dummy ]

def redeclaring : List Call :=
  [.declare (.simple "x" .boolean) .dummy, .declare (.simple "y" .int) .dummy]

theorem redeclaring_excursion (refused : first = .beginProcedure "p" .dummy ∨
      first = .beginProgram "n" .dummy) :
    ((start {} {}).after settled).Excursion first redeclaring (.endScope .dummy) := by
  have stays : ∀ first ∈ [Call.beginProcedure "p" .dummy, .beginProgram "n" .dummy],
      ∀ front ∈ redeclaring.inits, ((start {} {}).after settled).opened.length <
        (((start {} {}).after settled).after (first :: front)).opened.length := by
    decide +kernel
  have back : ∀ first ∈ [Call.beginProcedure "p" .dummy, .beginProgram "n" .dummy],
      (((start {} {}).after settled).after
        (first :: redeclaring ++ [.endScope .dummy])).opened.length =
        ((start {} {}).after settled).opened.length := by
    decide +kernel
  have either : first ∈ [Call.beginProcedure "p" .dummy, .beginProgram "n" .dummy] := by
    simpa using refused
  refine ⟨?_, fun front early => ?_, ⟨.dummy, rfl⟩, back first either⟩
  · rcases refused with rfl | rfl <;> rfl
  · exact stays first either front ((List.mem_inits front redeclaring).2 early)

theorem redeclaring_isolated :
    let a := (start {} {}).after settled
    a.opened ≠ [] ∧
      (a.Excursion (.beginProcedure "p" .dummy) redeclaring (.endScope .dummy) ∧
        a.Isolated (.beginProcedure "p" .dummy)
          (a.after (.beginProcedure "p" .dummy :: redeclaring ++ [.endScope .dummy]))) ∧
      a.Excursion (.beginProgram "n" .dummy) redeclaring (.endScope .dummy) ∧
        a.Shared (a.after (.beginProgram "n" .dummy :: redeclaring ++ [.endScope .dummy])) := by
  intro a
  have inside : a.opened ≠ [] := by decide +kernel
  have entered : (a.apply (.beginProcedure "p" .dummy)).1 = .opened (some ⟨2⟩) := by decide +kernel
  have stood : (a.apply (.beginProgram "n" .dummy)).1 = .opened none := by decide +kernel
  have procedure := redeclaring_excursion (.inl rfl)
  have program := redeclaring_excursion (.inr rfl)
  exact ⟨inside, ⟨procedure, (isolated_after {} {} settled procedure inside).1 ⟨2⟩ entered⟩,
    program, (isolated_after {} {} settled program inside).2 stood⟩

/-- What the body of a second program declares is found after it. -/
theorem not_isolated_program :
    let a := (start {} {}).after settled
    let b := a.after (.beginProgram "n" .dummy :: redeclaring ++ [.endScope .dummy])
    a.opened ≠ [] ∧ a.Excursion (.beginProgram "n" .dummy) redeclaring (.endScope .dummy) ∧
      ¬ a.Isolated (.beginProgram "n" .dummy) b := by
  intro a b
  refine ⟨by decide +kernel, redeclaring_excursion (.inr rfl), fun isolated => ?_⟩
  have found : (b.resolve "y" .dummy).1 ≠ (a.resolve "y" .dummy).1 := by decide +kernel
  exact found (isolated.resolve_eq "y" (fun _ => nofun) .dummy)

end Analysis

end ScopeFrames
