import Mathlib.Data.List.Dedup
import ScopeFrames.Proofs.Gathering

/-!
What is stored under each file, in whatever order files are mentioned and events recorded: of the
events of a file the first ones, and a warning if there are more.  The totals count those.
-/

namespace ScopeFrames

namespace FilePath

def Part.text : Part → String
  | .name s => s
  | _ => ""

theorem Part.order_eq :
    Part.order = compareLex (compareOn Part.rank) (compareOn Part.text) := by
  funext a b
  cases a with
  | root | here | parent => cases b <;> rfl
  | name s =>
    cases b with
    | root | here | parent => rfl
    | name s' => simp [Part.order, Part.rank, Part.text, compareLex, compareOn]

theorem orderParts_eq (as bs : List Part) :
    orderParts as bs = List.compareLex Part.order as bs := by
  induction as generalizing bs with
  | nil => cases bs <;> rfl
  | cons a as ih =>
    cases bs with
    | nil => rfl
    | cons b bs => rw [orderParts, ih, List.compareLex_cons_cons]

instance : Std.TransCmp Part.order := by
  rw [Part.order_eq]
  infer_instance

instance : Std.TransCmp order where
  eq_swap := by
    simp only [order, orderParts_eq]
    exact Std.OrientedCmp.eq_swap
  isLE_trans := by
    simp only [order, orderParts_eq]
    exact Std.TransCmp.isLE_trans

end FilePath

namespace Collector

open FilePath

def file? (c : Collector) (key : List Part) : Option FileEvents :=
  c.files.find? (parts ·.path = key)

def Ordered (files : List FileEvents) : Prop :=
  files.Pairwise fun f g => FilePath.order f.path g.path = .lt

variable {path : String} {change : FileEvents → FileEvents} {files : List FileEvents}
  {f g : FileEvents} {key : List Part}

theorem parts_ne_of_lt {a b : String} (lt : FilePath.order a b = .lt) : parts a ≠ parts b := by
  intro same
  rw [order_eq_eq.2 same] at lt
  cases lt

theorem mem_update (keeps : ∀ f, (change f).path = f.path)
    (member : f ∈ update path change files) :
    parts f.path = parts path ∨ f ∈ files := by
  induction files with
  | nil =>
    obtain rfl := List.mem_singleton.1 member
    exact .inl (congrArg parts (keeps _))
  | cons g files ih =>
    unfold update at member
    split at member
    · rcases List.mem_cons.1 member with rfl | old
      · exact .inl (congrArg parts (keeps _))
      · exact .inr old
    · next same =>
      rcases List.mem_cons.1 member with rfl | old
      · exact .inl ((congrArg parts (keeps g)).trans (order_eq_eq.1 same).symm)
      · exact .inr (List.mem_cons_of_mem g old)
    · rcases List.mem_cons.1 member with rfl | later
      · exact .inr List.mem_cons_self
      · exact (ih later).imp_right (List.mem_cons_of_mem g)

theorem Ordered.update (ordered : Ordered files) (keeps : ∀ f, (change f).path = f.path) :
    Ordered (update path change files) := by
  induction files with
  | nil => exact List.pairwise_singleton _ _
  | cons g files ih =>
    obtain ⟨first, rest⟩ := List.pairwise_cons.1 ordered
    unfold Collector.update
    split
    · next before =>
      refine List.pairwise_cons.2 ⟨fun f member => ?_, ordered⟩
      rw [keeps]
      rcases List.mem_cons.1 member with rfl | later
      · exact before
      · exact Std.TransCmp.lt_trans before (first f later)
    · refine List.pairwise_cons.2 ⟨fun f member => ?_, rest⟩
      rw [keeps]
      exact first f member
    · next after =>
      refine List.pairwise_cons.2 ⟨fun f member => ?_, ih rest⟩
      rcases mem_update keeps member with same | old
      · have alike : FilePath.order g.path f.path = FilePath.order g.path path :=
          congrArg (orderParts (parts g.path)) same
        exact alike.trans (Std.OrientedCmp.lt_of_gt after)
      · exact first f old

theorem file?_cons : file? ⟨f :: files⟩ key =
    if parts f.path = key then some f else file? ⟨files⟩ key := by
  simp only [file?, List.find?_cons]
  split <;> simp_all

theorem file?_eq_none_of_lt (before : ∀ f ∈ files, FilePath.order path f.path = .lt) :
    file? ⟨files⟩ (parts path) = none :=
  List.find?_eq_none.2 fun f member same =>
    parts_ne_of_lt (before f member) (of_decide_eq_true same).symm

theorem file?_update (ordered : Ordered files) (keeps : ∀ f, (change f).path = f.path) :
    file? ⟨Collector.update path change files⟩ key =
      if parts path = key then some (change ((file? ⟨files⟩ key).getD { path }))
      else file? ⟨files⟩ key := by
  induction files with
  | nil =>
    rw [Collector.update, file?_cons, keeps]
    rfl
  | cons g files ih =>
    obtain ⟨first, rest⟩ := List.pairwise_cons.1 ordered
    unfold Collector.update
    split
    · next before =>
      rw [file?_cons, keeps]
      split
      · next same =>
        have all : ∀ f ∈ g :: files, FilePath.order path f.path = .lt :=
          List.forall_mem_cons.2
            ⟨before, fun f member => Std.TransCmp.lt_trans before (first f member)⟩
        rw [← same, file?_eq_none_of_lt all]
        rfl
      · rfl
    · next same =>
      rw [file?_cons, file?_cons, keeps, ← order_eq_eq.1 same]
      split <;> rfl
    · next after =>
      have other : parts path ≠ parts g.path :=
        (parts_ne_of_lt (Std.OrientedCmp.lt_of_gt after)).symm
      rw [file?_cons, file?_cons, ih rest]
      by_cases same : parts g.path = key
      · rw [if_pos same, if_pos same, if_neg (same ▸ other)]
      · rw [if_neg same, if_neg same]

theorem file?_of_mem (ordered : Ordered files) (member : f ∈ files) :
    file? ⟨files⟩ (parts f.path) = some f := by
  induction files with
  | nil => cases member
  | cons g files ih =>
    obtain ⟨first, rest⟩ := List.pairwise_cons.1 ordered
    rw [file?_cons]
    rcases List.mem_cons.1 member with rfl | later
    · exact if_pos rfl
    · rw [if_neg (parts_ne_of_lt (first f later)), ih rest later]

theorem totals_eq (c : Collector) :
    let filed := c.files.map (·.events.toList)
    c.totals = { files := filed.length
                 failedFiles := filed.countP (·.any (·.isError))
                 errors := (filed.map (·.countP (·.isError))).sum
                 warnings := (filed.map (·.countP (·.isWarning))).sum } := by
  intro filed
  have failed (f : FileEvents) :
      (!(f.events.toList.filter (·.isError)).isEmpty) = f.events.toList.any (·.isError) := by
    rw [Bool.eq_iff_iff, List.any_eq_true]
    simp
  simp only [filed, totals, FileEvents.errors, FileEvents.warnings, failed, List.length_map,
    List.countP_map, List.map_map, ← List.countP_eq_length_filter, List.sum_eq_foldl,
    List.foldl_map, Function.comp_def]

theorem Ordered.nodup (ordered : Ordered files) : (files.map (parts ·.path)).Nodup :=
  List.pairwise_map.2 (ordered.imp parts_ne_of_lt)

end Collector

inductive Recording : Type
  | mention (path : String)
  | record (path : String) (e : Event)
  deriving DecidableEq

namespace Recording

def path : Recording → String
  | .mention path | .record path _ => path

def event? : Recording → Option Event
  | .mention _ => none
  | .record _ e => some e

def files (rs : List Recording) : List (List FilePath.Part) :=
  (rs.map (FilePath.parts ·.path)).dedup

def events (rs : List Recording) (key : List FilePath.Part) : List Event :=
  (rs.filter (FilePath.parts ·.path = key)).filterMap event?

def spelling? (rs : List Recording) (key : List FilePath.Part) : Option String :=
  (rs.find? (FilePath.parts ·.path = key)).map path

variable {rs : List Recording} {r : Recording} {key : List FilePath.Part}

theorem events_append_singleton : events (rs ++ [r]) key =
    if FilePath.parts r.path = key then events rs key ++ r.event?.toList else events rs key := by
  by_cases same : FilePath.parts r.path = key <;>
    cases told : r.event? <;> simp [events, same, told]

theorem spelling?_append_singleton : spelling? (rs ++ [r]) key =
    if FilePath.parts r.path = key then some ((spelling? rs key).getD r.path)
    else spelling? rs key := by
  by_cases same : FilePath.parts r.path = key <;>
    cases found : rs.find? (FilePath.parts ·.path = key) <;> simp [spelling?, same, found]

theorem isSome_spelling? : (spelling? rs key).isSome ↔ key ∈ files rs := by
  simp [spelling?, files]

theorem events_of_spelling?_eq_none (unknown : spelling? rs key = none) : events rs key = [] := by
  have none_of : ∀ r ∈ rs, FilePath.parts r.path ≠ key := by simpa [spelling?] using unknown
  rw [events, List.filter_eq_nil_iff.2 (by simpa using none_of), List.filterMap_nil]

end Recording

variable [Limits]

namespace FileEvents

variable (es : List Event)

theorem kept_eq : kept es = es.take Limits.eventsPerFile ++
    if Limits.eventsPerFile < es.length then [.warning .eventsDropped overflowMessage] else [] := by
  by_cases overfull : Limits.eventsPerFile < es.length
  · rw [kept_of_lt overfull, if_pos overfull]
  · rw [kept_of_le (Nat.le_of_not_lt overfull), if_neg overfull, List.append_nil,
      List.take_of_length_le (Nat.le_of_not_lt overfull)]

theorem any_kept :
    (kept es).any (·.isError) = (es.take Limits.eventsPerFile).any (·.isError) := by
  rw [kept_eq, List.any_append]
  split <;> exact Bool.or_false _

theorem errors_kept :
    (kept es).countP (·.isError) = (es.take Limits.eventsPerFile).countP (·.isError) := by
  rw [kept_eq, List.countP_append]
  split <;> rfl

theorem warnings_kept : (kept es).countP (·.isWarning) =
    (es.take Limits.eventsPerFile).countP (·.isWarning) +
      if Limits.eventsPerFile < es.length then 1 else 0 := by
  rw [kept_eq, List.countP_append]
  split <;> rfl

end FileEvents

namespace Recording

def change : Recording → FileEvents → FileEvents
  | .mention _ => id
  | .record _ e => (·.record e)

theorem path_change (r : Recording) (f : FileEvents) : (r.change f).path = f.path := by
  cases r with
  | mention => rfl
  | record _ e => exact f.path_record e

theorem change_kept (r : Recording) (path : String) (es : List Event) :
    r.change { path, events := (FileEvents.kept es).toArray } =
      { path, events := (FileEvents.kept (es ++ r.event?.toList)).toArray } := by
  cases r with
  | mention => rw [event?, Option.toList_none, List.append_nil]; rfl
  | record _ e => exact FileEvents.record_kept path es e

end Recording

namespace Collector

open Recording

def apply (c : Collector) : Recording → Collector
  | .mention path => c.mention path
  | .record path e => c.record path e

def after (c : Collector) (rs : List Recording) : Collector := rs.foldl apply c

theorem apply_eq (c : Collector) (r : Recording) :
    c.apply r = ⟨update r.path r.change c.files⟩ := by
  cases r <;> rfl

/-- What the calls have left under each path. -/
structure Holds (c : Collector) (rs : List Recording) : Prop where
  ordered : Ordered c.files
  stored : ∀ key, c.file? key =
    (spelling? rs key).map ({ path := ·, events := (FileEvents.kept (events rs key)).toArray })

variable {c : Collector} {rs : List Recording} {f : FileEvents}

theorem Holds.apply (holds : c.Holds rs) (r : Recording) : (c.apply r).Holds (rs ++ [r]) where
  ordered := c.apply_eq r ▸ holds.ordered.update r.path_change
  stored key := by
    rw [apply_eq, file?_update holds.ordered r.path_change, spelling?_append_singleton,
      events_append_singleton]
    split
    · refine congrArg some ?_
      rw [show file? ⟨c.files⟩ key = _ from holds.stored key]
      cases known : spelling? rs key with
      | some path => exact r.change_kept path _
      | none =>
        rw [events_of_spelling?_eq_none known]
        exact r.change_kept r.path []
    · exact holds.stored key

theorem holds_after (rs : List Recording) : (({} : Collector).after rs).Holds rs := by
  induction rs using List.reverseRecOn with
  | nil => exact ⟨List.Pairwise.nil, fun _ => rfl⟩
  | append_singleton rs r ih =>
    rw [after, List.foldl_append]
    exact ih.apply r

theorem Holds.kept (holds : c.Holds rs) (member : f ∈ c.files) :
    f.events.toList = FileEvents.kept (events rs (FilePath.parts f.path)) := by
  have stored := holds.stored (FilePath.parts f.path)
  rw [show c.file? _ = some f from file?_of_mem holds.ordered member] at stored
  obtain ⟨path, -, same⟩ := Option.map_eq_some_iff.1 stored.symm
  exact congrArg (·.events.toList) same.symm

theorem Holds.perm (holds : c.Holds rs) :
    (c.files.map (FilePath.parts ·.path)).Perm (Recording.files rs) := by
  refine (List.perm_ext_iff_of_nodup holds.ordered.nodup (List.nodup_dedup _)).2 fun key => ?_
  have known : (c.file? key).isSome ↔ (spelling? rs key).isSome := by
    rw [holds.stored key, Option.isSome_map]
  rw [← Recording.files, ← isSome_spelling?, ← known]
  simp [file?]

theorem Holds.perm_kept (holds : c.Holds rs) : (c.files.map (·.events.toList)).Perm
    ((Recording.files rs).map fun key => FileEvents.kept (events rs key)) := by
  have stored : c.files.map (·.events.toList) =
      (c.files.map (FilePath.parts ·.path)).map fun key => FileEvents.kept (events rs key) := by
    rw [List.map_map]
    exact List.map_congr_left fun _ member => holds.kept member
  exact stored ▸ holds.perm.map _

/-- Whatever the order of the calls, each file that is spoken of is there once, and what is stored
for it are the first of its own events and then, only if there are more, one warning. -/
theorem totals_after (rs : List Recording) :
    let c := ({} : Collector).after rs
    let first := fun key => (events rs key).take Limits.eventsPerFile
    let overfull := fun key => Limits.eventsPerFile < (events rs key).length
    (c.files.map (FilePath.parts ·.path)).Perm (Recording.files rs) ∧
    (∀ f ∈ c.files, f.events.toList = first (FilePath.parts f.path) ++
      if overfull (FilePath.parts f.path) then
        [.warning .eventsDropped FileEvents.overflowMessage] else []) ∧
    c.totals =
      { files := (Recording.files rs).length
        failedFiles := (Recording.files rs).countP fun key => (first key).any (·.isError)
        errors := ((Recording.files rs).map fun key => (first key).countP (·.isError)).sum
        warnings := ((Recording.files rs).map fun key =>
          (first key).countP (·.isWarning) + if overfull key then 1 else 0).sum } := by
  intro c first overfull
  have holds : c.Holds rs := holds_after rs
  refine ⟨holds.perm, fun f member => ?_, ?_⟩
  · rw [holds.kept member, FileEvents.kept_eq]
  · have stored := holds.perm_kept
    rw [totals_eq, stored.length_eq, stored.countP_eq, (stored.map _).sum_nat,
      (stored.map (·.countP (·.isWarning))).sum_nat]
    simp only [List.length_map, List.countP_map, List.map_map, Function.comp_def,
      FileEvents.any_kept, FileEvents.errors_kept, FileEvents.warnings_kept]
    rfl

end Collector

end ScopeFrames
