import ScopeFrames.Limits
import ScopeFrames.Scope
import Mathlib.Data.List.Nodup

namespace ScopeFrames

section Room

variable [Limits]

structure Room (names : List String) : Prop where
  distinct : names.Nodup
  short : ∀ name ∈ names, name.utf8ByteSize ≤ Limits.identifierBytes
  few : names.length ≤ Limits.entriesPerScope

theorem room_nil : Room [] := ⟨List.nodup_nil, by simp, Nat.zero_le _⟩

theorem Room.left {names more : List String} (room : Room (names ++ more)) : Room names where
  distinct := (List.nodup_append.1 room.distinct).1
  short := fun name member => room.short name (List.mem_append_left more member)
  few := Nat.le_trans (by simp) room.few

theorem room_concat {names : List String} {name : String} : Room (names ++ [name]) ↔
    Room names ∧ name.utf8ByteSize ≤ Limits.identifierBytes ∧ name ∉ names ∧
      names.length < Limits.entriesPerScope := by
  constructor
  · intro room
    have apart := (List.nodup_append.1 room.distinct).2.2
    refine ⟨room.left, room.short name (by simp), fun member => ?_, ?_⟩
    · exact apart name member name (List.mem_singleton_self name) rfl
    · have few := room.few
      rw [List.length_append] at few
      exact few
  · rintro ⟨room, short, fresh, few⟩
    refine ⟨?_, ?_, List.length_append ▸ few⟩
    · exact room.distinct.append (List.nodup_singleton name) (by simpa using fresh)
    · intro n member
      rcases List.mem_append.1 member with old | new
      · exact room.short n old
      · rwa [List.mem_singleton.1 new]

end Room

theorem map_update_of_ne {l : List Entry} {name : String} {f : Entry → Entry}
    (apart : ∀ e ∈ l, e.name ≠ name) : (l.map fun e => if e.name = name then f e else e) = l := by
  conv_rhs => rw [← List.map_id l]
  apply List.map_congr_left
  intro e he
  simp [apart e he]

theorem modify_eq_map {l : List Entry} {name : String} {i : Nat} (f : Entry → Entry)
    (distinct : (l.map (·.name)).Nodup) (found : l.findIdx? (·.name == name) = some i) :
    l.modify i f = l.map fun e => if e.name = name then f e else e := by
  induction l generalizing i with
  | nil => simp at found
  | cons a l ih =>
    simp only [List.map_cons, List.nodup_cons] at distinct
    rw [List.findIdx?_cons] at found
    split at found
    · next here =>
      cases found
      have same : a.name = name := by simpa using here
      have rest : ∀ e ∈ l, e.name ≠ name := by
        intro e he h
        exact distinct.1 (List.mem_map.2 ⟨e, he, h.trans same.symm⟩)
      simp [same, map_update_of_ne rest]
    · next elsewhere =>
      obtain ⟨j, hj, rfl⟩ := Option.map_eq_some_iff.1 found
      have other : ¬ a.name = name := by simpa using elsewhere
      simp [other, ih distinct.2 hj]

namespace Scope

variable {s : Scope} {name : String} {f : Entry → Entry} {e : Entry} {es : List Entry}

@[simp] theorem length_names : s.names.length = s.size := by simp [names, size]

def extended (s : Scope) (es : List Entry) : Scope :=
  { s with entries := (s.entries.toList ++ es).toArray }

@[simp] theorem extended_id : (s.extended es).id = s.id := rfl
@[simp] theorem extended_level : (s.extended es).level = s.level := rfl
@[simp] theorem extended_owner : (s.extended es).owner = s.owner := rfl
@[simp] theorem extended_nil : s.extended [] = s := by simp [extended]

@[simp] theorem extended_extended {es' : List Entry} :
    (s.extended es).extended es' = s.extended (es ++ es') := by
  simp [extended]

@[simp] theorem names_extended : (s.extended es).names = s.names ++ es.map (·.name) := by
  simp [extended, names]

theorem mem_extended {a : Entry} : a ∈ (s.extended es).entries ↔ a ∈ s.entries ∨ a ∈ es := by
  simp [extended]

theorem push_eq_extended : { s with entries := s.entries.push e } = s.extended [e] := by
  simp only [extended, mk.injEq, true_and]
  exact Array.ext' (by simp)

def update (s : Scope) (name : String) (f : Entry → Entry) : Scope :=
  { s with entries := s.entries.map fun e => if e.name = name then f e else e }

theorem update_names (keeps : ∀ e, (f e).name = e.name) : (s.update name f).names = s.names := by
  simp only [update, names, Array.toList_map, List.map_map]
  apply List.map_congr_left
  intro e _
  by_cases h : e.name = name <;> simp [h, keeps]

theorem mem_update :
    e ∈ (s.update name f).entries ↔
      ∃ a ∈ s.entries, e = if a.name = name then f a else a := by
  simp [update, eq_comm]

theorem index?_eq (s : Scope) (name : String) :
    s.index? name = s.entries.toList.findIdx? (·.name == name) := by
  obtain ⟨_, _, _, ⟨entries⟩⟩ := s
  simp [index?]

theorem find?_eq (s : Scope) (name : String) :
    s.find? name = s.entries.toList.find? (·.name == name) := by
  simp [find?]

theorem index?_eq_none : s.index? name = none ↔ name ∉ s.names := by
  simp [index?_eq, names]

theorem find?_eq_none : s.find? name = none ↔ name ∉ s.names := by
  simp [find?_eq, names]

theorem mem_of_find? (found : s.find? name = some e) :
    e ∈ s.entries ∧ e.name = name := by
  rw [find?_eq] at found
  refine ⟨by simpa using List.mem_of_find?_eq_some found, ?_⟩
  simpa using List.find?_some found

theorem eq_of_name_eq (distinct : s.names.Nodup) {a b : Entry} (ha : a ∈ s.entries)
    (hb : b ∈ s.entries) (same : a.name = b.name) : a = b :=
  List.inj_on_of_nodup_map distinct (by simpa using ha) (by simpa using hb) same

theorem find?_eq_some (distinct : s.names.Nodup) :
    s.find? name = some e ↔ e ∈ s.entries ∧ e.name = name := by
  refine ⟨mem_of_find?, fun ⟨member, same⟩ => ?_⟩
  cases found : s.find? name with
  | none =>
    refine absurd ?_ (find?_eq_none.1 found)
    exact List.mem_map.2 ⟨e, by simpa using member, same⟩
  | some a =>
    obtain ⟨ha, hn⟩ := mem_of_find? found
    rw [eq_of_name_eq distinct ha member (hn.trans same.symm)]

theorem modify_eq_update (distinct : s.names.Nodup) {i : Nat} (found : s.index? name = some i) :
    { s with entries := s.entries.modify i f } = s.update name f := by
  rw [index?_eq] at found
  simp only [update, mk.injEq, true_and]
  apply Array.toList_inj.1
  simpa using modify_eq_map f distinct found

theorem setOffset_eq_ok (distinct : s.names.Nodup) (declared : name ∈ s.names) (offset : Int64) :
    s.setOffset name offset = .ok (s.update name (·.withOffset offset)) := by
  unfold setOffset
  split
  · next absent => exact absurd declared (index?_eq_none.1 absent)
  · next i found => rw [modify_eq_update distinct found]

def placed (s : Scope) (offsets : List Int64) : Scope :=
  { s with entries := (s.entries.toList.zipWith Entry.withOffset offsets).toArray }

theorem placed_names {offsets : List Int64} (enough : offsets.length = s.size) :
    (s.placed offsets).names = s.names := by
  have all : ∀ (l : List Entry) (offsets : List Int64), offsets.length = l.length →
      (l.zipWith Entry.withOffset offsets).map (·.name) = l.map (·.name) := by
    intro l
    induction l with
    | nil => intro _ _; rfl
    | cons e l ih =>
      intro offsets enough
      cases offsets with
      | nil => simp at enough
      | cons offset offsets => simp [Entry.withOffset, ih offsets (by simpa using enough)]
  exact all s.entries.toList offsets (by simpa [size] using enough)

theorem update_append {front back : List Entry} (here : e.name = name)
    (distinct : ((front ++ e :: back).map (·.name)).Nodup) :
    ({ s with entries := (front ++ e :: back).toArray } : Scope).update name f
      = { s with entries := (front ++ f e :: back).toArray } := by
  subst here
  have others := (List.nodup_middle.1 (by simpa using distinct) :
    (e.name :: (front.map (·.name) ++ back.map (·.name))).Nodup)
  simp only [List.nodup_cons, List.mem_append, List.mem_map, not_or, not_exists, not_and] at others
  simp only [update, mk.injEq, true_and]
  apply Array.toList_inj.1
  simp [map_update_of_ne others.1.1, map_update_of_ne others.1.2]

theorem update_head {back : List Entry} (distinct : ((e :: back).map (·.name)).Nodup) :
    ({ s with entries := (e :: back).toArray } : Scope).update e.name f
      = { s with entries := (f e :: back).toArray } := by
  rw [← List.nil_append (e :: back)] at distinct
  exact update_append rfl distinct

theorem setOffsets_append (front back : List Entry) {offsets : List Int64}
    (distinct : ((front ++ back).map (·.name)).Nodup) (enough : offsets.length = back.length) :
    ({ s with entries := (front ++ back).toArray } : Scope).setOffsets
        ((back.map (·.name)).zip offsets)
      = .ok { s with entries := (front ++ back.zipWith Entry.withOffset offsets).toArray } := by
  induction back generalizing front offsets with
  | nil => simp [setOffsets, pure, Except.pure]
  | cons e back ih =>
    cases offsets with
    | nil => simp at enough
    | cons offset offsets =>
      have first :
          ({ s with entries := (front ++ e :: back).toArray } : Scope).setOffset e.name offset
          = .ok { s with entries := (front ++ e.withOffset offset :: back).toArray } := by
        rw [setOffset_eq_ok (by simpa [names] using distinct) (by simp [names]),
          update_append rfl distinct]
      have distinct' : (((front ++ [e.withOffset offset]) ++ back).map (·.name)).Nodup := by
        simpa [Entry.withOffset] using distinct
      have later := ih (front ++ [e.withOffset offset]) distinct' (Nat.succ.inj enough)
      simp only [setOffsets] at later
      simp only [setOffsets, List.map_cons, List.zip_cons_cons, List.foldlM_cons, first]
      simpa [bind, Except.bind] using later

theorem setOffsets_eq_ok (distinct : s.names.Nodup) {offsets : List Int64}
    (enough : offsets.length = s.size) :
    s.setOffsets (s.names.zip offsets) = .ok (s.placed offsets) := by
  have all := setOffsets_append (s := s) [] s.entries.toList (by simpa [names] using distinct)
    (by simpa [size] using enough)
  simpa [names, placed] using all

theorem setFrameSize_eq_ok (distinct : s.names.Nodup) (found : s.find? name = some e)
    (owns : e.category.ownsFrame = true) (unsized : e.frameSize = none) (size : Int64) :
    s.setFrameSize name size
      = .ok (s.update name fun e => { e with frameSize := some size }) := by
  obtain ⟨member, same⟩ := mem_of_find? found
  have sized : e.withFrameSize size = .ok { e with frameSize := some size } :=
    Entry.withFrameSize_eq_ok.2 ⟨owns, unsized, rfl⟩
  unfold setFrameSize
  cases position : s.index? name with
  | none =>
    refine absurd ?_ (index?_eq_none.1 position)
    exact List.mem_map.2 ⟨e, by simpa using member, same⟩
  | some i =>
    simp only [found, sized]
    rw [modify_eq_update distinct position]
    simp only [update, Except.ok.injEq, mk.injEq, true_and]
    apply Array.map_congr_left
    intro a ha
    by_cases h : a.name = name
    · rw [eq_of_name_eq distinct ha member (h.trans same.symm)]
    · simp [h]

end Scope

end ScopeFrames
