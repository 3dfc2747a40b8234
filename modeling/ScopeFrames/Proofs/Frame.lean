import ScopeFrames.Config
import ScopeFrames.Proofs.Tiling

namespace ScopeFrames.Policy

variable {p : Policy} {e : Entry} {es : List Entry} {cursor stop size next offset : Int64}
  {offsets : List Int64} {l : Layout}

theorem le_of_add? (sized : p.size e = .ok size) (added : Word.add? cursor size = some next) :
    cursor ≤ next := by
  have moved := Lays.step sized added
  have room := p.extent_nonneg e
  exact Int64.le_iff_toInt_le.2 (by omega)

namespace Lays

theorem start_le (lays : p.Lays cursor es offsets stop) : cursor ≤ stop := by
  induction lays with
  | nil => exact Int64.le_refl _
  | cons sized added _ ih => exact Int64.le_trans (le_of_add? sized added) ih

theorem within (lays : p.Lays cursor es offsets stop) (member : offset ∈ offsets) :
    cursor ≤ offset ∧ offset ≤ stop := by
  induction lays with
  | nil => cases member
  | cons sized added lays ih =>
    have moved := le_of_add? sized added
    rcases List.mem_cons.1 member with rfl | later
    · exact ⟨Int64.le_refl _, Int64.le_trans moved lays.start_le⟩
    · exact ⟨Int64.le_trans moved (ih later).1, (ih later).2⟩

theorem pairwise_le (lays : p.Lays cursor es offsets stop) : offsets.Pairwise (· ≤ ·) := by
  induction lays with
  | nil => exact List.Pairwise.nil
  | cons sized added lays ih =>
    exact List.pairwise_cons.2
      ⟨fun _ later => Int64.le_trans (le_of_add? sized added) (lays.within later).1, ih⟩

end Lays

/-- Offsets never shrink from the base offset up to the frame size, and the frame size is not
negative exactly if the entries make up for what the base offset lacks. -/
theorem layout_grows (done : p.layout es = .ok l) :
    let offsets := l.offsets.map (·.2)
    offsets.Pairwise (· ≤ ·) ∧
    (∀ offset ∈ offsets, p.baseOffset ≤ offset ∧ offset ≤ l.frameSize) ∧
    l.frameSize.toInt = p.baseOffset.toInt + (es.map p.extent).sum ∧
    p.baseOffset ≤ l.frameSize ∧
    (0 ≤ l.frameSize ↔ -p.baseOffset.toInt ≤ (es.map p.extent).sum) := by
  intro offsets'
  obtain ⟨offsets, stop, lays, rfl⟩ := layout_eq_ok.1 done
  have same : offsets' = offsets := List.map_snd_zip (by simp [lays.length_eq])
  have ends := lays.stop_eq
  rw [same]
  refine ⟨lays.pairwise_le, fun _ => lays.within, ends, lays.start_le, ?_⟩
  rw [Int64.le_iff_toInt_le, Int64.toInt_zero, ends]
  omega

def arrayBetween : List Entry :=
  [.simple "x" .int, .array "a" .char (some ⟨5, 7, by decide⟩), .simple "y" .boolean]

theorem arrayBetween_grows :
    let p : Policy := { baseOffset := -5 }
    ∃ l, p.layout arrayBetween = .ok l ∧ l.offsets = [("x", -5), ("a", -4), ("y", -1)] ∧
      (l.offsets.map (·.2)).Pairwise (· ≤ ·) ∧ 0 ≤ l.frameSize := by
  intro p
  have laid : p.layout arrayBetween = .ok ⟨[("x", -5), ("a", -4), ("y", -1)], 0⟩ := by
    decide +kernel
  obtain ⟨pairwise, -, -, -, nonneg⟩ := layout_grows laid
  exact ⟨_, laid, rfl, pairwise, nonneg.2 (by decide +kernel)⟩

/-- The environment may set a base offset below zero. -/
theorem not_frameSize_nonneg :
    ¬ ∀ (lookup : String → Option String) (es : List Entry) (l : Layout),
      (Config.ofEnvironment lookup).layout.layout es = .ok l →
        (l.offsets.map (·.2)).Pairwise (· ≤ ·) ∧ 0 ≤ l.frameSize := by
  intro nonneg
  let lookup (name : String) : Option String :=
    if name = Setting.baseOffset.name then some "-5" else none
  have laid : (Config.ofEnvironment lookup).layout.layout [.simple "x" .int] =
      .ok ⟨[("x", -5)], -4⟩ := by
    decide +kernel
  exact absurd (nonneg lookup _ _ laid).2 (by decide)

end ScopeFrames.Policy
