import ChordSymbols.Proofs.Number.Bounded
import ChordSymbols.Proofs.Playback.Laying

/-!
# Progressions that always play

Played in a whole number of beats a chord and with all else by default, no
progression can leave the ranges of the format: the notes of every chord have
room above the middle C, and a beat is short enough for the message that holds
its length, if there are at least four in a minute.
-/

namespace ChordSymbols

theorem beatLength_of_dividing {tempo : Quantity} {n : Int} {beat : Fin 0x1000000}
    (cut : tempo.dividing microsecondsPerMinute = .ok n) (same : n = beat.val) :
    beatLength tempo = .ok beat := by
  have held : below? 0x1000000 n = some beat := below?_eq_some_iff.mpr same
  simp only [beatLength, cut, held]

theorem beatLength_ok {tempo : Int} (least : 4 ≤ tempo) :
    ∃ beat, beatLength (.whole tempo) = .ok beat := by
  have positive : 0 < tempo := by omega
  have quarter : (microsecondsPerMinute : Int) ≤ (15000000 : Nat) * tempo := by
    rw [microsecondsPerMinute]
    push_cast
    omega
  obtain ⟨n, cut, most⟩ := dividing_le positive quarter (by decide)
  have fits : n < 0x1000000 := Nat.lt_of_le_of_lt most (by decide)
  exact ⟨⟨n, fits⟩, beatLength_of_dividing cut rfl⟩

theorem defaultVelocity : velocityOf ({} : Setting).loudness = .ok 101 := by
  decide

/-- Every progression plays in whole beats and at a tempo of at least four. -/
theorem progressionTrack_ok {beats tempo : Int} (positive : 0 < beats) (least : 4 ≤ tempo)
    (tonic : PitchClass) (chords : List Chord) :
    ∃ track, progressionTrack { beats := .whole beats } (.whole tempo) tonic chords = .ok track := by
  have room : ∀ c ∈ chords, ∃ notes, c.voicing tonic ({} : Setting).octave = .ok notes := by
    intro c _
    exact c.voicing_ok tonic (by decide) (by decide)
  have lasts : 0 ≤ beats * 480 := by omega
  have loud : (0 : Int) ≤ 101 ∧ (101 : Int) ≤ 127 := by decide
  have channel : 0 ≤ ({} : Setting).channel ∧ ({} : Setting).channel ≤ 15 := by decide
  obtain ⟨events, laid⟩ :=
    eventsFrom_ok (s := { beats := .whole beats }) (i := 0) room lasts loud channel
  have long : (Quantity.whole beats).nonPositive = false := by
    simp [Quantity.nonPositive, positive]
  have played : progressionEvents { beats := .whole beats } tonic chords = .ok events :=
    progressionEvents_eq_ok.mpr ⟨long, beats * 480, 101, rfl, defaultVelocity, laid⟩
  obtain ⟨beat, cut⟩ := beatLength_ok least
  exact ⟨_, progressionTrack_eq_ok.mpr ⟨events, played, bind_eq_ok.mpr ⟨beat, cut, rfl⟩⟩⟩

end ChordSymbols
