import ChordSymbols.Harmony.Chord
import Mathlib.Data.List.Forall2

/-!
# Chords in close position

Every note of a voicing is raised above the note before it, so the notes ascend
and no note is doubled. A note is raised by no more than an octave, so that a
chord of at most four notes stays within four octaves of its base.
-/

namespace ChordSymbols

theorem lt_raiseAbove (below note : Int) : below < raiseAbove below note := by
  rw [raiseAbove]
  split
  · omega
  · omega

theorem stack_above {base below : Int} {os : List Nat} :
    ∀ n ∈ stack base (some below) os, below < n := by
  induction os generalizing below with
  | nil => simp [stack]
  | cons o os ih =>
    intro n hn
    have raised := lt_raiseAbove below (base + o)
    rcases List.mem_cons.mp hn with rfl | hn
    · exact raised
    · exact Int.lt_trans raised (ih n hn)

theorem stack_ascends {base : Int} {below : Option Int} {os : List Nat} :
    (stack base below os).Pairwise (· < ·) := by
  induction os generalizing below with
  | nil => cases below <;> exact .nil
  | cons o os ih =>
    cases below with
    | none => exact .cons stack_above ih
    | some b => exact .cons stack_above ih

theorem raiseAbove_le {base below : Int} {o : Nat} (small : o < 12) (above : base ≤ below) :
    raiseAbove below (base + o) ≤ below + 12 := by
  unfold raiseAbove
  split
  · omega
  · omega

/-- From a note on, every further note lies at most an octave higher than the one before it. -/
theorem stack_le {base below : Int} {os : List Nat} (small : ∀ o ∈ os, o < 12)
    (above : base ≤ below) :
    ∀ n ∈ stack base (some below) os, n ≤ below + 12 * os.length := by
  induction os generalizing below with
  | nil => simp [stack]
  | cons o os ih =>
    intro n hn
    have first := raiseAbove_le (small o List.mem_cons_self) above
    have raised := lt_raiseAbove below (base + o)
    rw [List.length_cons]
    rcases List.mem_cons.mp hn with rfl | hn
    · omega
    · have rest := ih (fun p hp => small p (List.mem_cons_of_mem o hp)) (by omega) n hn
      omega

namespace Chord

variable {c : Chord} {tonic : PitchClass} {octave : Int} {notes : List Int}

/-- Every offset is an entry of the table of the mode. -/
theorem offsets_read (c : Chord) :
    List.Forall₂ (fun i o => c.mode.steps[(i + c.degree.root) % 7]? = some o)
      c.sounding c.offsets := by
  have whole : c.mode.steps.length = 7 := by cases c.mode <;> rfl
  rw [offsets, List.forall₂_map_right_iff, List.forall₂_same]
  intro i _
  have inside : (i + c.degree.root) % 7 < c.mode.steps.length := by
    rw [whole]
    exact Nat.mod_lt _ (by decide)
  rw [Mode.step, List.getD_eq_getElem?_getD, List.getElem?_eq_getElem inside]
  rfl

theorem offsets_lt (c : Chord) : ∀ o ∈ c.offsets, o < 12 := by
  intro o ho
  obtain ⟨i, -, rfl⟩ := List.mem_map.mp ho
  exact c.mode.step_lt _

theorem length_offsets_le (c : Chord) : c.offsets.length ≤ 4 := by
  have added : (c.figure.bind Figure.addedStep?).toList.length ≤ 1 := Option.length_toList_le
  rw [offsets, List.length_map, sounding, List.length_append]
  exact Nat.add_le_add_left added 3

/-- The first note is less than an octave above the base, and at most three come after it. -/
theorem closePosition_range (c : Chord) (tonic : PitchClass) (octave : Int) :
    ∀ n ∈ c.closePosition tonic octave,
      tonic.noteNumber octave ≤ n ∧ n < tonic.noteNumber octave + 48 := by
  have small := c.offsets_lt
  have few := c.length_offsets_le
  rw [closePosition]
  cases os : c.offsets with
  | nil => simp [stack]
  | cons o os =>
    rw [os] at small few
    rw [List.length_cons] at few
    have first := small o List.mem_cons_self
    intro n hn
    rcases List.mem_cons.mp hn with rfl | hn
    · omega
    · have above := stack_above n hn
      have below := stack_le (fun p hp => small p (List.mem_cons_of_mem o hp)) (by omega) n hn
      omega

/-- A voicing is the close position of its chord, if all of it is in the range of notes. -/
theorem voicing_eq_ok :
    c.voicing tonic octave = .ok notes ↔
      c.closePosition tonic octave = notes ∧ ∀ n ∈ notes, 0 ≤ n ∧ n ≤ 127 := by
  rw [voicing]
  cases outside : (c.closePosition tonic octave).find? (!isNote ·) with
  | some n =>
    have found := List.find?_some outside
    have member := List.mem_of_find?_eq_some outside
    constructor
    · intro voiced
      cases voiced
    · rintro ⟨rfl, inside⟩
      simp [isNote, inside n member] at found
  | none =>
    have inside : ∀ n ∈ c.closePosition tonic octave, 0 ≤ n ∧ n ≤ 127 := by
      simpa [isNote] using outside
    constructor
    · intro voiced
      cases voiced
      exact ⟨rfl, inside⟩
    · rintro ⟨rfl, -⟩
      rfl

/-- All chords are voiced in the octaves up to that of the middle C. -/
theorem voicing_ok (c : Chord) (tonic : PitchClass) {octave : Int} (low : -1 ≤ octave)
    (high : octave ≤ 4) : ∃ notes, c.voicing tonic octave = .ok notes := by
  refine ⟨_, voicing_eq_ok.mpr ⟨rfl, fun n hn => ?_⟩⟩
  have range := c.closePosition_range tonic octave n hn
  have pitch : tonic.val < 12 := tonic.isLt
  rw [PitchClass.noteNumber] at range
  omega

theorem closePosition_of_voicing (voiced : c.voicing tonic octave = .ok notes) :
    c.closePosition tonic octave = notes :=
  (voicing_eq_ok.mp voiced).1

theorem closePosition_nodup (c : Chord) (tonic : PitchClass) (octave : Int) :
    (c.closePosition tonic octave).Nodup :=
  stack_ascends.imp fun h => Int.ne_of_lt h

theorem closePosition_ne_nil (c : Chord) (tonic : PitchClass) (octave : Int) :
    c.closePosition tonic octave ≠ [] :=
  List.cons_ne_nil _ _

end Chord

end ChordSymbols
