namespace ScopeFrames

structure Context where
  notes : List (String × String) := []
  inOrder : notes.Pairwise fun a b => compare a.1 b.1 = .lt := by exact .nil
  deriving DecidableEq

namespace Context

@[ext] theorem ext {c c' : Context} (same : c.notes = c'.notes) : c = c' := by
  cases c
  cases c'
  cases same
  rfl

def put (key value : String) : List (String × String) → List (String × String)
  | [] => [(key, value)]
  | (k, v) :: rest =>
    match compare key k with
    | .lt => (key, value) :: (k, v) :: rest
    | .eq => (key, value) :: rest
    | .gt => (k, v) :: put key value rest

variable {key value : String} {notes : List (String × String)}

theorem key_of_mem_put {note : String × String} (member : note ∈ put key value notes) :
    note.1 = key ∨ note ∈ notes := by
  induction notes with
  | nil =>
    obtain rfl := List.mem_singleton.1 member
    exact .inl rfl
  | cons first rest ih =>
    unfold put at member
    split at member
    · rcases List.mem_cons.1 member with rfl | old
      · exact .inl rfl
      · exact .inr old
    · rcases List.mem_cons.1 member with rfl | old
      · exact .inl rfl
      · exact .inr (List.mem_cons_of_mem first old)
    · rcases List.mem_cons.1 member with rfl | later
      · exact .inr List.mem_cons_self
      · exact (ih later).imp_right (List.mem_cons_of_mem first)

theorem inOrder_put (inOrder : notes.Pairwise fun a b => compare a.1 b.1 = .lt) :
    (put key value notes).Pairwise fun a b => compare a.1 b.1 = .lt := by
  induction notes with
  | nil => exact List.pairwise_singleton _ _
  | cons first rest ih =>
    obtain ⟨least, ordered⟩ := List.pairwise_cons.1 inOrder
    unfold put
    split
    · next before =>
      refine List.pairwise_cons.2 ⟨fun note member => ?_, inOrder⟩
      rcases List.mem_cons.1 member with rfl | later
      · exact before
      · exact Std.TransCmp.lt_trans before (least note later)
    · next same =>
      obtain rfl := Std.LawfulEqCmp.eq_of_compare same
      exact List.pairwise_cons.2 ⟨least, ordered⟩
    · next after =>
      refine List.pairwise_cons.2 ⟨fun note member => ?_, ih ordered⟩
      rcases key_of_mem_put member with rfl | old
      · exact Std.OrientedCmp.lt_of_gt after
      · exact least note old

def insert (c : Context) (key value : String) : Context :=
  ⟨put key value c.notes, inOrder_put c.inOrder⟩

def find? (c : Context) (key : String) : Option String := c.notes.lookup key

theorem lookup_put : (put key value notes).lookup key = some value := by
  induction notes with
  | nil => simp [put]
  | cons first rest ih =>
    unfold put
    split
    · simp
    · simp
    · next after =>
      have other : (key == first.1) = false :=
        beq_eq_false_iff_ne.2 fun same => by simp [same] at after
      rw [List.lookup_cons, other]
      exact ih

theorem lookup_put_of_ne {other : String} (ne : other ≠ key) :
    (put key value notes).lookup other = notes.lookup other := by
  have differs : (other == key) = false := beq_eq_false_iff_ne.2 ne
  induction notes with
  | nil => simp [put, List.lookup_cons, differs]
  | cons first rest ih =>
    unfold put
    split
    · rw [List.lookup_cons, differs]
    · next same =>
      obtain rfl := Std.LawfulEqCmp.eq_of_compare same
      rw [List.lookup_cons, List.lookup_cons, differs]
    · rw [List.lookup_cons, List.lookup_cons, ih]

@[simp] theorem find?_insert (c : Context) (key value : String) :
    (c.insert key value).find? key = some value :=
  lookup_put

theorem find?_insert_of_ne {other : String} (c : Context) (value : String) (ne : other ≠ key) :
    (c.insert key value).find? other = c.find? other :=
  lookup_put_of_ne ne

end Context

end ScopeFrames
