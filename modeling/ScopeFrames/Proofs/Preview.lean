import ScopeFrames.Proofs.Formed

namespace ScopeFrames

structure Scope.Realizes (s : Scope) (frame : Layout) (scope : ClosedScope) : Prop where
  id_eq : scope.id = s.id
  level_eq : scope.level = s.level
  owner_eq : scope.owner = s.owner
  frameSize_eq : scope.frameSize = frame.frameSize
  names : frame.offsets.map (·.1) = s.names
  entries : scope.entries =
    s.entries.toList.zipWith (fun e place => e.withOffset place.2) frame.offsets
  placed : ∀ e ∈ scope.entries, e.offset ≠ none

namespace Table

theorem zipWith_zip_withOffset {es : List Entry} {offsets : List Int64}
    (enough : offsets.length = es.length) :
    es.zipWith (fun e place => e.withOffset place.2) ((es.map (·.name)).zip offsets) =
      es.zipWith Entry.withOffset offsets := by
  induction es generalizing offsets with
  | nil => rfl
  | cons e es ih =>
    obtain ⟨offset, offsets, rfl⟩ := List.exists_cons_of_length_eq_add_one enough
    simp [ih (by simpa using enough)]

section

variable [Limits] {t : Table} {top : Scope} {rest : List Scope} {frame : Layout}
  {offsets : List Int64} {stop : Int64}

theorem realizes_placed (lays : t.policy.Lays t.policy.baseOffset top.entries.toList offsets stop) :
    top.Realizes ⟨top.names.zip offsets, stop⟩ (.ofScope (top.placed offsets) top.owner stop) where
  id_eq := rfl
  level_eq := rfl
  owner_eq := rfl
  frameSize_eq := rfl
  names := List.map_fst_zip (by simp [Scope.lays_length lays])
  entries := by
    rw [Scope.names, zipWith_zip_withOffset lays.length_eq]
    simp [ClosedScope.ofScope, Scope.placed]
  placed := by
    intro e member
    simp only [ClosedScope.ofScope, Scope.placed] at member
    obtain ⟨i, inside, rfl⟩ := List.mem_iff_getElem.1 member
    simp [Entry.withOffset]

theorem Formed.exit_realizes (formed : t.Formed) (deep : 2 ≤ t.depth)
    (previewed : t.preview? = some (.ok frame)) :
    ∃ top ∈ t.current?, ∃ scope, t.exit.1 = .ok scope ∧ top.Realizes frame scope := by
  match scopes : t.scopes with
  | [] | [_] => simp [depth, scopes] at deep
  | top :: outer :: rest =>
    rw [preview?_eq scopes] at previewed
    obtain ⟨offsets, stop, lays, rfl⟩ := Policy.layout_eq_ok.1 (Option.some.inj previewed)
    refine ⟨top, by simp [current?, scopes], _, ?_, realizes_placed lays⟩
    rw [exit_eq_ok formed scopes lays]

theorem exit_previewed_error {err : TableError} (deep : 2 ≤ t.depth)
    (previewed : t.preview? = some (.error err)) : t.exit.1 = .error err := by
  match scopes : t.scopes with
  | [] | [_] => simp [depth, scopes] at deep
  | top :: outer :: rest =>
    rw [preview?_eq scopes] at previewed
    rw [exit_eq_error scopes (Option.some.inj previewed)]

/-- After any run that leaves a nested scope, closing it does what the preview said. -/
theorem exit_keeps_preview (policy : Policy) (ops : List Operation)
    (deep : 2 ≤ (({ policy } : Table).after ops).depth) :
    let t := ({ policy } : Table).after ops
    t.preview? ≠ none ∧
      (∀ frame, t.preview? = some (.ok frame) →
        ∃ top ∈ t.current?, ∃ scope, t.exit.1 = .ok scope ∧ top.Realizes frame scope) ∧
      ∀ err, t.preview? = some (.error err) → t.exit.1 = .error err := by
  intro t
  refine ⟨fun absent => ?_, fun frame => (formed_after policy ops).exit_realizes deep,
    fun err => exit_previewed_error deep⟩
  have empty : t.scopes = [] := by simpa [preview?, current?] using absent
  simp [t, depth, empty] at deep

end

def arrayThenVariable : List Operation :=
  [ .enter, .declare (.procedure "p"), .enterProcedure "p",
    .declare (.array "a" .char (some ⟨1, 4, by decide⟩)), .declare (.simple "p" .int) ]

theorem arrayThenVariable_exit :
    let t := ({ policy := { baseOffset := 8 } } : Table).after arrayThenVariable
    let t' := ({ policy := { baseOffset := 8 } } : Table).after
      (arrayThenVariable ++ [.declare (.array "b" .int none)])
    (2 ≤ t.depth ∧ t.preview? = some (.ok ⟨[("a", 8), ("p", 12)], 13⟩) ∧
      ∃ top ∈ t.current?, ∃ scope, t.exit.1 = .ok scope ∧
        top.Realizes ⟨[("a", 8), ("p", 12)], 13⟩ scope) ∧
    2 ≤ t'.depth ∧ t'.exit.1 = .error (.incompleteEntry "b" "array bounds are unresolved") := by
  intro t t'
  have deep : 2 ≤ t.depth := by decide +kernel
  have deep' : 2 ≤ t'.depth := by decide +kernel
  have previewed : t.preview? = some (.ok ⟨[("a", 8), ("p", 12)], 13⟩) := by decide +kernel
  have previewed' : t'.preview? =
      some (.error (.incompleteEntry "b" "array bounds are unresolved")) := by
    decide +kernel
  exact ⟨⟨deep, previewed, (exit_keeps_preview _ arrayThenVariable deep).2.1 _ previewed⟩, deep',
    (exit_keeps_preview _ _ deep').2.2 _ previewed'⟩

end Table

end ScopeFrames
