import Mathlib.Algebra.Order.BigOperators.Group.List
import ScopeFrames.Proofs.Extent

namespace ScopeFrames.Policy

def Admits (p : Policy) (front : List Entry) (e : Entry) : Prop :=
  ∃ size, p.extent? e = some size ∧ size ≤ Int64.maxValue.toInt ∧
    p.baseOffset.toInt + (front.map p.extent).sum + size ≤ Int64.maxValue.toInt

inductive Misfit (p : Policy) (front : List Entry) (e : Entry) : TableError → Prop
  | unresolved {reason} : p.extent? e = none → Misfit p front e (.incompleteEntry e.name reason)
  | tooLarge {size} : p.extent? e = some size → Int64.maxValue.toInt < size →
      Misfit p front e (.layoutOverflow e.name)
  | tooFar {size} : p.extent? e = some size →
      Int64.maxValue.toInt < p.baseOffset.toInt + (front.map p.extent).sum + size →
      Misfit p front e (.layoutOverflow e.name)

def Covers (p : Policy) (es : List Entry) (frame : Layout) (index : Nat) (x : Int) : Prop :=
  ∃ e ∈ es[index]?, ∃ place ∈ frame.offsets[index]?,
    place.2.toInt ≤ x ∧ x < place.2.toInt + p.extent e

structure Tiles (p : Policy) (es : List Entry) (frame : Layout) : Prop where
  names : frame.offsets.map (·.1) = es.map (·.name)
  offset : ∀ index, ∀ place ∈ frame.offsets[index]?,
    place.2.toInt = p.baseOffset.toInt + ((es.take index).map p.extent).sum
  frameSize : frame.frameSize.toInt = p.baseOffset.toInt + (es.map p.extent).sum
  covered : ∀ x, (∃ index, p.Covers es frame index x) ↔
    p.baseOffset.toInt ≤ x ∧ x < frame.frameSize.toInt
  apart : ∀ x i j, p.Covers es frame i x → p.Covers es frame j x → i = j

variable {p : Policy} {e : Entry} {es es' front back : List Entry} {cursor stop : Int64}
  {offsets : List Int64} {frame : Layout} {err : TableError} {size x : Int}

theorem unit?_toInt_pos {c : Category} {unit : Int64} (h : p.unit? c = some unit) :
    0 < unit.toInt := by
  simpa using Int64.lt_iff_toInt_lt.1 (unit?_pos h)

theorem extent?_nonneg (sized : p.extent? e = some size) : 0 ≤ size := by
  unfold extent? at sized
  cases category : e.category with
  | int | boolean | char =>
    simp only [category] at sized
    obtain ⟨unit, h, rfl⟩ := Option.map_eq_some_iff.1 sized
    exact (unit?_toInt_pos h).le
  | procedure | program | notApplicable =>
    simp only [category] at sized
    cases sized
    exact Int.le_refl 0
  | undefined => simp [category] at sized
  | array =>
    simp only [category] at sized
    split at sized
    · next b unit bound h =>
      cases sized
      obtain ⟨c, -, measured⟩ := Option.bind_eq_some_iff.1 h
      have ordered := Int64.le_iff_toInt_le.1 b.ordered
      exact Int.mul_nonneg (by omega) (unit?_toInt_pos measured).le
    · cases sized

theorem extent_nonneg (p : Policy) (e : Entry) : 0 ≤ p.extent e := by
  unfold extent
  cases sized : p.extent? e with
  | none => exact Int.le_refl 0
  | some size => exact extent?_nonneg sized

theorem sum_extent_nonneg (p : Policy) (es : List Entry) : 0 ≤ (es.map p.extent).sum := by
  refine List.sum_nonneg fun size member => ?_
  obtain ⟨e, -, rfl⟩ := List.mem_map.1 member
  exact p.extent_nonneg e

theorem extent_eq (sized : p.extent? e = some size) : p.extent e = size := by
  rw [extent, sized, Option.getD_some]

theorem size_misfit (front : List Entry) (refused : p.size e = .error err) :
    p.Misfit front e err := by
  rcases size_refused refused with ⟨unresolved, reason, rfl⟩ | ⟨⟨size, sized⟩, rfl⟩
  · exact .unresolved unresolved
  · refine .tooLarge sized (Int.not_le.1 fun le => ?_)
    have low : Int64.minValue.toInt ≤ size := by
      have := extent?_nonneg sized
      have : Int64.minValue.toInt ≤ 0 := by decide
      omega
    obtain ⟨word, same⟩ := Word.exists_toInt_iff.2 ⟨low, le⟩
    have done : p.size e = .ok word := size_eq_ok.2 (same ▸ sized)
    cases refused.symm.trans done

theorem laid_iff_total : p.Laid es ↔
    (∀ e ∈ es, ∃ size, p.extent? e = some size ∧ size ≤ Int64.maxValue.toInt) ∧
      p.baseOffset.toInt + (es.map p.extent).sum ≤ Int64.maxValue.toInt := by
  constructor
  · intro laid
    refine ⟨fun e member => ?_, ?_⟩
    · obtain ⟨front, back, split⟩ := List.append_of_mem member
      obtain ⟨size, -, sized, -⟩ := laid front e back split
      exact ⟨_, sized, Int64.toInt_le size⟩
    · rcases List.eq_nil_or_concat es with rfl | ⟨front, e, rfl⟩
      · simpa using Int64.toInt_le p.baseOffset
      · obtain ⟨size, stop, sized, ends⟩ := laid front e [] (by simp)
        have upper := Int64.toInt_le stop
        simp only [List.concat_eq_append, List.map_append, List.map_cons, List.map_nil,
          List.sum_append, List.sum_singleton, extent_eq sized]
        omega
  · rintro ⟨sizes, total⟩ front e back rfl
    obtain ⟨size, sized, le⟩ := sizes e (by simp)
    have before := p.sum_extent_nonneg front
    have after := p.sum_extent_nonneg back
    have here := extent?_nonneg sized
    have lower := Int64.minValue_le_toInt p.baseOffset
    have least : Int64.minValue.toInt ≤ 0 := by decide
    simp only [List.map_append, List.map_cons, List.sum_append, List.sum_cons,
      extent_eq sized] at total
    obtain ⟨word, rfl⟩ := Word.exists_toInt_iff.2 ⟨Int.le_trans least here, le⟩
    obtain ⟨stop, ends⟩ : ∃ stop : Int64,
        stop.toInt = p.baseOffset.toInt + (front.map p.extent).sum + word.toInt :=
      Word.exists_toInt_iff.2 ⟨by omega, by omega⟩
    exact ⟨word, stop, sized, ends⟩

theorem layout_misfit (refused : p.layout es = .error err) :
    ∃ front e back, es = front ++ e :: back ∧ p.Misfit front e err ∧
      ∀ before d after, front = before ++ d :: after → p.Admits before d := by
  obtain ⟨front, e, back, offsets, stop, rfl, lays, fails⟩ := layoutFrom_refused refused
  refine ⟨front, e, back, rfl, ?_, fun before d after split => ?_⟩
  · rcases fails with unsized | ⟨size, sized, beyond, rfl⟩
    · exact size_misfit front unsized
    · have sized := size_eq_ok.1 sized
      refine .tooFar sized (Int.not_le.1 fun le => Word.add?_eq_none.1 beyond ?_)
      have lower := Int64.minValue_le_toInt stop
      have here := extent?_nonneg sized
      rw [← lays.stop_eq] at le
      exact Word.exists_toInt_iff.2 ⟨by omega, le⟩
  · obtain ⟨size, stop, sized, ends⟩ := exists_lays_iff.1 ⟨_, _, lays⟩ before d after split
    exact ⟨_, sized, Int64.toInt_le size, ends ▸ Int64.toInt_le stop⟩

theorem Lays.offset_eq (lays : p.Lays cursor es offsets stop) {index : Nat} {offset : Int64}
    (found : offsets[index]? = some offset) :
    offset.toInt = cursor.toInt + ((es.take index).map p.extent).sum := by
  induction lays generalizing index with
  | nil => simp at found
  | cons sized added _ ih =>
    cases index with
    | zero => simpa using congrArg Int64.toInt (Option.some.inj found).symm
    | succ index =>
      rw [ih (by simpa using found), Lays.step sized added]
      simp [Int.add_assoc]

theorem sum_take_succ {index : Nat} (found : es[index]? = some e) :
    ((es.take (index + 1)).map p.extent).sum =
      ((es.take index).map p.extent).sum + p.extent e := by
  simp [List.take_add_one, found]

theorem sum_take_le (p : Policy) (es : List Entry) {i j : Nat} (earlier : i < j) :
    ((es.take (i + 1)).map p.extent).sum ≤ ((es.take j).map p.extent).sum := by
  have le : i + 1 ≤ j := earlier
  have more := p.sum_extent_nonneg ((es.take j).drop (i + 1))
  rw [← List.take_append_drop (i + 1) (es.take j), List.take_take, Nat.min_eq_left le,
    List.map_append, List.sum_append]
  omega

theorem exists_sum_take (p : Policy) (es : List Entry) (low : 0 ≤ x)
    (high : x < (es.map p.extent).sum) :
    ∃ index < es.length, ((es.take index).map p.extent).sum ≤ x ∧
      x < ((es.take (index + 1)).map p.extent).sum := by
  induction es generalizing x with
  | nil =>
    simp only [List.map_nil, List.sum_nil] at high
    omega
  | cons e es ih =>
    by_cases here : x < p.extent e
    · exact ⟨0, by simp, by simpa using low, by simpa using here⟩
    · simp only [List.map_cons, List.sum_cons] at high
      obtain ⟨index, inside, above, below⟩ := ih (x := x - p.extent e) (by omega) (by omega)
      refine ⟨index + 1, by simpa using inside, ?_⟩
      simp only [List.take_succ_cons, List.map_cons, List.sum_cons]
      omega

theorem Lays.covers_iff (lays : p.Lays p.baseOffset es offsets stop) {index : Nat} :
    p.Covers es ⟨(es.map (·.name)).zip offsets, stop⟩ index x ↔ index < es.length ∧
      p.baseOffset.toInt + ((es.take index).map p.extent).sum ≤ x ∧
        x < p.baseOffset.toInt + ((es.take (index + 1)).map p.extent).sum := by
  constructor
  · rintro ⟨e, found, place, placed, low, high⟩
    have starts := lays.offset_eq (List.getElem?_zip_eq_some.1 placed).2
    refine ⟨(List.getElem?_eq_some_iff.1 found).1, by omega, ?_⟩
    rw [sum_take_succ found]
    omega
  · rintro ⟨inside, low, high⟩
    have found : es[index]? = some es[index] := List.getElem?_eq_getElem inside
    obtain ⟨offset, placed⟩ : ∃ offset, offsets[index]? = some offset :=
      ⟨_, List.getElem?_eq_getElem (lays.length_eq ▸ inside)⟩
    have starts := lays.offset_eq placed
    rw [sum_take_succ found] at high
    have named : (es.map (·.name))[index]? = some es[index].name := by
      rw [List.getElem?_map, found, Option.map_some]
    have above : offset.toInt ≤ x := by omega
    have below : x < offset.toInt + p.extent es[index] := by omega
    exact ⟨es[index], found, (es[index].name, offset),
      List.getElem?_zip_eq_some.2 ⟨named, placed⟩, above, below⟩

theorem Lays.tiles (lays : p.Lays p.baseOffset es offsets stop) :
    p.Tiles es ⟨(es.map (·.name)).zip offsets, stop⟩ where
  names := List.map_fst_zip (by simp [lays.length_eq])
  offset _ _ placed := lays.offset_eq (List.getElem?_zip_eq_some.1 placed).2
  frameSize := lays.stop_eq
  covered x := by
    simp only [lays.covers_iff, lays.stop_eq]
    constructor
    · rintro ⟨index, inside, low, high⟩
      have first := p.sum_extent_nonneg (es.take index)
      have last := p.sum_take_le es inside
      rw [List.take_length] at last
      omega
    · rintro ⟨low, high⟩
      obtain ⟨index, inside, above, below⟩ :=
        p.exists_sum_take es (x := x - p.baseOffset.toInt) (by omega) (by omega)
      exact ⟨index, inside, by omega, by omega⟩
  apart x i j := by
    simp only [lays.covers_iff]
    rintro ⟨-, low, high⟩ ⟨-, low', high'⟩
    rcases Nat.lt_trichotomy i j with earlier | same | later
    · have ended := p.sum_take_le es earlier
      omega
    · exact same
    · have ended := p.sum_take_le es later
      omega

theorem layout_perm {size : Int64} (perm : es.Perm es')
    (done : ∃ frame, p.layout es = .ok frame ∧ frame.frameSize = size) :
    ∃ frame, p.layout es' = .ok frame ∧ frame.frameSize = size := by
  obtain ⟨frame, laid, rfl⟩ := done
  have sum : (es'.map p.extent).sum = (es.map p.extent).sum := (perm.map p.extent).sum_eq.symm
  obtain ⟨sizes, total⟩ := laid_iff_total.1 (laid_iff.2 ⟨frame, laid⟩)
  obtain ⟨frame', laid'⟩ := laid_iff.1 (laid_iff_total.2
    ⟨fun e member => sizes e (perm.mem_iff.2 member), sum ▸ total⟩)
  refine ⟨frame', laid', ?_⟩
  obtain ⟨offsets, stop, lays, rfl⟩ := layout_eq_ok.1 laid
  obtain ⟨offsets', stop', lays', rfl⟩ := layout_eq_ok.1 laid'
  rw [← Int64.toInt_inj, lays'.stop_eq, lays.stop_eq, sum]

/-- A layout takes exactly the entries that have sizes and fit together, and lays them out without
gaps, in a frame whose size does not depend on their order; else it names the first entry that has
no size or does not fit. -/
theorem layout_tiles (p : Policy) (es : List Entry) :
    ((∃ frame, p.layout es = .ok frame) ↔
      (∀ e ∈ es, ∃ size, p.extent? e = some size ∧ size ≤ Int64.maxValue.toInt) ∧
        p.baseOffset.toInt + (es.map p.extent).sum ≤ Int64.maxValue.toInt) ∧
    (∀ frame, p.layout es = .ok frame → p.Tiles es frame) ∧
    (∀ es', es.Perm es' → ∀ size, (∃ frame, p.layout es = .ok frame ∧ frame.frameSize = size) ↔
      ∃ frame, p.layout es' = .ok frame ∧ frame.frameSize = size) ∧
    ∀ err, p.layout es = .error err → ∃ front e back, es = front ++ e :: back ∧
      p.Misfit front e err ∧
      ∀ before d after, front = before ++ d :: after → p.Admits before d := by
  refine ⟨laid_iff.symm.trans laid_iff_total, fun frame laid => ?_, fun es' perm size => ?_,
    fun err refused => layout_misfit refused⟩
  · obtain ⟨offsets, stop, lays, rfl⟩ := layout_eq_ok.1 laid
    exact lays.tiles
  · exact ⟨layout_perm perm, layout_perm perm.symm⟩

def filledFrame : List Entry :=
  [.program "m", .array "a" .char (some ⟨-1, 1, by decide⟩), .simple "x" .int]

theorem filledFrame_tiles :
    let p : Policy := { baseOffset := -3, intUnit := Int64.maxValue }
    ∃ frame, p.layout filledFrame = .ok frame ∧ p.Tiles filledFrame frame ∧
      frame.frameSize = Int64.maxValue := by
  intro p
  have laid : p.layout filledFrame = .ok ⟨[("m", -3), ("a", -3), ("x", 0)], Int64.maxValue⟩ := by
    decide +kernel
  exact ⟨_, laid, (layout_tiles p filledFrame).2.1 _ laid, rfl⟩

end ScopeFrames.Policy
