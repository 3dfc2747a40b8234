import ScopeFrames.Event

namespace ScopeFrames.Event

def IsBoundary (s : String) (n : Nat) : Prop :=
  ∃ front rest, s = front ++ rest ∧ front.utf8ByteSize = n

variable {s : String} {n : Nat}

theorem isValid_iff : String.Pos.Raw.IsValid s ⟨n⟩ ↔ IsBoundary s n := by
  rw [String.Pos.Raw.isValid_iff_exists_append]
  constructor
  · rintro ⟨front, rest, whole, size⟩
    exact ⟨front, rest, whole, (congrArg String.Pos.Raw.byteIdx size).symm⟩
  · rintro ⟨front, rest, whole, rfl⟩
    exact ⟨front, rest, whole, rfl⟩

theorem isBoundary_of_pos (p : s.Pos) : IsBoundary s p.offset.byteIdx := isValid_iff.1 p.isValid

theorem offset_of_pos? {p : s.Pos} (found : s.pos? ⟨n⟩ = some p) : p.offset.byteIdx = n := by
  obtain ⟨q, at_, rfl⟩ := Option.map_eq_some_iff.1 found
  unfold String.Slice.pos? at at_
  split at at_
  · cases at_
    rfl
  · cases at_

theorem pos?_eq_none_iff : s.pos? ⟨n⟩ = none ↔ ¬ IsBoundary s n := by
  rw [← isValid_iff, ← String.Pos.Raw.isValidForSlice_toSlice_iff,
    ← String.Pos.Raw.isValidForSlice_eq_true_iff, String.pos?, Option.map_eq_none_iff,
    String.Slice.pos?]
  split <;> simp_all

theorem boundaryBefore_le (s : String) (n : Nat) : (boundaryBefore s n).offset.byteIdx ≤ n := by
  induction n with
  | zero => exact Nat.le_refl 0
  | succ n ih =>
    rw [boundaryBefore]
    cases found : s.pos? ⟨n + 1⟩ with
    | none => exact Nat.le_succ_of_le ih
    | some p => exact Nat.le_of_eq (offset_of_pos? found)

theorem not_isBoundary_of_lt {m : Nat} (past : (boundaryBefore s n).offset.byteIdx < m)
    (le : m ≤ n) : ¬ IsBoundary s m := by
  induction n with
  | zero => omega
  | succ n ih =>
    rw [boundaryBefore] at past
    cases found : s.pos? ⟨n + 1⟩ with
    | none =>
      rw [found] at past
      rcases Nat.lt_or_eq_of_le le with before | rfl
      · exact ih past (Nat.le_of_lt_succ before)
      · exact pos?_eq_none_iff.1 found
    | some p =>
      rw [found] at past
      have at_ := offset_of_pos? found
      simp only [Option.getD_some] at past
      omega

theorem size_front (p : s.Pos) : (s.sliceTo p).copy.utf8ByteSize = p.offset.byteIdx := by
  simp

theorem front_begins (p : s.Pos) : (s.sliceTo p).copy.toList <+: s.toList := by
  refine ⟨(s.sliceFrom p).copy.toList, ?_⟩
  rw [← String.toList_append, String.sliceTo_append_sliceFrom]

theorem le_boundaryBefore (within : n ≤ s.utf8ByteSize) :
    n ≤ (boundaryBefore s n).offset.byteIdx + 3 := by
  by_cases last : boundaryBefore s n = s.endPos
  · rw [last]
    exact Nat.le_add_right_of_le within
  · have whole := String.Pos.eq_copy_sliceTo_append_get last
    have next : IsBoundary s ((boundaryBefore s n).offset.byteIdx +
        ((boundaryBefore s n).get last).utf8Size) := by
      refine ⟨_, _, whole, ?_⟩
      rw [String.utf8ByteSize_append, size_front, String.utf8ByteSize_singleton]
    have most := ((boundaryBefore s n).get last).utf8Size_le_four
    have least := ((boundaryBefore s n).get last).utf8Size_pos
    refine Nat.le_of_not_lt fun far => not_isBoundary_of_lt (n := n) ?_ ?_ next
    · omega
    · omega

theorem exists_append {p : String} (part : p.toList <+: s.toList) : ∃ rest, s = p ++ rest := by
  obtain ⟨rest, whole⟩ := part
  refine ⟨String.ofList rest, ?_⟩
  rw [← String.toList_inj, String.toList_append, String.toList_ofList, whole]

theorem begins_front {p : String} (part : p.toList <+: s.toList) (short : p.utf8ByteSize ≤ n) :
    p.toList <+: (s.sliceTo (boundaryBefore s n)).copy.toList := by
  obtain ⟨rest, whole⟩ := exists_append part
  have before : p.utf8ByteSize ≤ (boundaryBefore s n).offset.byteIdx :=
    Nat.le_of_not_lt fun past => not_isBoundary_of_lt past short ⟨p, rest, whole, rfl⟩
  rcases List.prefix_or_prefix_of_prefix part (front_begins (boundaryBefore s n)) with
    inside | beyond
  · exact inside
  · obtain ⟨more, longer⟩ := exists_append beyond
    have size := congrArg String.utf8ByteSize longer
    rw [String.utf8ByteSize_append, size_front] at size
    have none : more = "" := String.utf8ByteSize_eq_zero_iff.1 (by omega)
    have same : p = (s.sliceTo (boundaryBefore s n)).copy := by
      rw [longer, none, String.append_empty]
    exact same ▸ List.prefix_rfl

structure Longest (limit : Nat) (s text : String) : Prop where
  begins : text.toList <+: s.toList
  fits : text.utf8ByteSize ≤ limit
  longest : ∀ p : String, p.toList <+: s.toList → p.utf8ByteSize ≤ limit → p.toList <+: text.toList

theorem longest_self (fits : s.utf8ByteSize ≤ n) : Longest n s s where
  begins := List.prefix_rfl
  fits := fits
  longest _ part _ := part

theorem longest_front (s : String) (n : Nat) :
    Longest n s (s.sliceTo (boundaryBefore s n)).copy where
  begins := front_begins (boundaryBefore s n)
  fits := (size_front (boundaryBefore s n)).symm ▸ boundaryBefore_le s n
  longest _ := begins_front

variable [Limits]

theorem clip_of_le (le : s.utf8ByteSize ≤ Limits.messageBytes) : clip s = s := if_pos le

theorem clip_of_lt (lt : Limits.messageBytes < s.utf8ByteSize) :
    clip s = (s.sliceTo (boundaryBefore s Limits.messageBytes)).copy :=
  if_neg (Nat.not_le_of_lt lt)

theorem longest_clip (s : String) : Longest Limits.messageBytes s (clip s) := by
  rcases Nat.lt_or_ge Limits.messageBytes s.utf8ByteSize with long | short
  · rw [clip_of_lt long]
    exact longest_front s Limits.messageBytes
  · rw [clip_of_le short]
    exact longest_self short

/-- The message of an event is the longest beginning of the given one that fits, so a message that
fits is kept and a clipped one is not clipped again.  The search for the end of a message that does
not fit goes back from the limit by three bytes at most, to the first boundary it meets. -/
theorem message_ofLevel (level : Level) (code : Code) (message : String) :
    let stored := (ofLevel level code message).message
    let cut := (boundaryBefore message Limits.messageBytes).offset.byteIdx
    Longest Limits.messageBytes message stored ∧
    (message.utf8ByteSize ≤ Limits.messageBytes → stored = message) ∧
    (ofLevel level code stored).message = stored ∧
    (Limits.messageBytes < message.utf8ByteSize → stored.utf8ByteSize = cut ∧
      ∃ steps ≤ 3, cut + steps = Limits.messageBytes ∧ IsBoundary message cut ∧
        ∀ i < steps, ¬ IsBoundary message (Limits.messageBytes - i)) := by
  intro stored cut
  have le : cut ≤ Limits.messageBytes := boundaryBefore_le message Limits.messageBytes
  have whole := longest_clip message
  refine ⟨whole, clip_of_le, clip_of_le whole.fits, fun long => ?_⟩
  have near : Limits.messageBytes ≤ cut + 3 := le_boundaryBefore (Nat.le_of_lt long)
  refine ⟨?_, Limits.messageBytes - cut, by omega, by omega, isBoundary_of_pos _, fun i few => ?_⟩
  · exact (congrArg String.utf8ByteSize (clip_of_lt long)).trans (size_front _)
  · exact not_isBoundary_of_lt (show cut < _ by omega) (Nat.sub_le _ _)

end ScopeFrames.Event

namespace ScopeFrames.Event

theorem size_replicate (n : Nat) (c : Char) :
    (String.ofList (List.replicate n c)).utf8ByteSize = n * c.utf8Size := by
  induction n with
  | zero => rw [Nat.zero_mul]; rfl
  | succ n ih =>
    rw [List.replicate_succ, String.ofList_cons, String.utf8ByteSize_append, ih,
      String.utf8ByteSize_singleton, Nat.succ_mul, Nat.add_comm]

def straddling : String := "a" ++ String.ofList (List.replicate 2500 '😀')

theorem straddling_message :
    Limits.messageBytes < straddling.utf8ByteSize ∧
      ∃ steps ≤ 3, (boundaryBefore straddling Limits.messageBytes).offset.byteIdx + steps =
        Limits.messageBytes := by
  have long : Limits.messageBytes < straddling.utf8ByteSize := by
    rw [straddling, String.utf8ByteSize_append, size_replicate]
    decide
  obtain ⟨-, steps, few, ends, -⟩ := (message_ofLevel .debug .debug straddling).2.2.2 long
  exact ⟨long, steps, few, ends⟩

end ScopeFrames.Event
