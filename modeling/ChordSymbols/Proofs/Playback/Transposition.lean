import ChordSymbols.Proofs.Harmony.ClosePosition
import ChordSymbols.Proofs.Playback.Laying

/-!
# Progressions in other keys

Played in another key or octave, all notes of a progression are as far away as
the tonics are, and nothing else changes. So one success tells exactly when the
progression can be played elsewhere: if its events have room for the way to
there. Between two tonics from which it can be played there is always room.
-/

namespace ChordSymbols

/-- An event that differs from another in its pitch only, and there by so many semitones. -/
def NoteEvent.TransposedBy (shift : Int) (e f : NoteEvent) : Prop :=
  f = { e with pitch := f.pitch } ∧ (f.pitch.val : Int) = shift + e.pitch.val

/-- Room for all events on the way of so many semitones. -/
theorem exists_transposed {shift : Int} {es : List NoteEvent}
    (room : ∀ e ∈ es, 0 ≤ shift + e.pitch.val ∧ shift + e.pitch.val ≤ 127) :
    ∃ fs, List.Forall₂ (NoteEvent.TransposedBy shift) es fs := by
  induction es with
  | nil => exact ⟨[], .nil⟩
  | cons e es ih =>
    have first := room e List.mem_cons_self
    obtain ⟨fs, rest⟩ := ih fun b hb => room b (List.mem_cons_of_mem e hb)
    refine ⟨{ e with pitch := ⟨(shift + e.pitch.val).toNat, by omega⟩ } :: fs, .cons ⟨rfl, ?_⟩ rest⟩
    exact Int.toNat_of_nonneg first.1

section Moving

variable {s : Setting} {tonic other : PitchClass} {octave next duration velocity : Int}
  {es fs : List NoteEvent}

theorem NoteEvent.ofInts_transposed {n start channel shift : Int} {e f : NoteEvent}
    (made : NoteEvent.ofInts n start duration velocity channel = .ok e) :
    NoteEvent.ofInts (shift + n) start duration velocity channel = .ok f ↔
      e.TransposedBy shift f := by
  obtain ⟨pitch, begins, lasts, loud, track⟩ := NoteEvent.ofInts_eq_ok.mp made
  rw [NoteEvent.ofInts_eq_ok, pitch, begins, lasts, loud, track]
  constructor
  · rintro ⟨moved, starts, stops, velocity, channel⟩
    have sameStart : f.start = e.start := by omega
    have sameLength : f.duration = e.duration := by omega
    have sameVelocity : f.velocity = e.velocity := by omega
    have sameChannel : f.channel = e.channel := by omega
    refine ⟨?_, moved.symm⟩
    rw [← sameStart, ← sameLength, ← sameVelocity, ← sameChannel]
  · rintro ⟨same, moved⟩
    rw [same]
    exact ⟨moved.symm, rfl, rfl, rfl, rfl⟩

/-- The events of a chord are those of its notes in close position, if all can be built. -/
theorem chordEvents_iff_closePosition {start : Int} {c : Chord} :
    chordEvents s tonic start duration velocity c = .ok es ↔
      List.Forall₂ (fun n e => NoteEvent.ofInts n start duration velocity s.channel = .ok e)
        (c.closePosition tonic s.octave) es := by
  rw [chordEvents_eq_ok]
  constructor
  · rintro ⟨notes, voiced, built⟩
    rw [Chord.closePosition_of_voicing voiced]
    exact built
  · intro built
    refine ⟨_, Chord.voicing_eq_ok.mpr ⟨rfl, fun n hn => ?_⟩, built⟩
    obtain ⟨e, -, made⟩ := exists_right_of_mem built n hn
    have pitch := (NoteEvent.ofInts_eq_ok.mp made).1
    omega

/-- One chord: what it is in one key tells what it is in another. -/
theorem chordEvents_transposed {start : Int} {c : Chord}
    (played : chordEvents { s with octave := octave } tonic start duration velocity c = .ok es) :
    chordEvents { s with octave := next } other start duration velocity c = .ok fs ↔
      List.Forall₂
        (NoteEvent.TransposedBy (other.noteNumber next - tonic.noteNumber octave)) es fs := by
  rw [chordEvents_iff_closePosition] at played ⊢
  rw [c.closePosition_transposed tonic other octave next, List.forall₂_map_left_iff]
  exact forall₂_iff_of_related played fun n e f made => NoteEvent.ofInts_transposed made

/-- All chords in a row, from any place on. -/
theorem eventsFrom_transposed {i : Nat} {cs : List Chord}
    (laid : eventsFrom { s with octave := octave } tonic duration velocity i cs = .ok es) :
    eventsFrom { s with octave := next } other duration velocity i cs = .ok fs ↔
      List.Forall₂
        (NoteEvent.TransposedBy (other.noteNumber next - tonic.noteNumber octave)) es fs := by
  induction cs generalizing i es fs with
  | nil =>
    cases laid
    rw [List.forall₂_nil_left_iff, eventsFrom]
    exact ⟨fun h => (Except.ok.inj h).symm, fun h => congrArg Except.ok h.symm⟩
  | cons c cs ih =>
    obtain ⟨now, later, first, rest, rfl⟩ := eventsFrom_cons.mp laid
    -- A list related to all these events falls into the parts of the first chord and of the rest.
    simp only [eventsFrom_cons, chordEvents_transposed first, ih rest, forall₂_append_left_iff]

theorem progressionEvents_transposed {chords : List Chord}
    (played : progressionEvents { s with octave := octave } tonic chords = .ok es) :
    progressionEvents { s with octave := next } other chords = .ok fs ↔
      List.Forall₂
        (NoteEvent.TransposedBy (other.noteNumber next - tonic.noteNumber octave)) es fs := by
  obtain ⟨positive, d, v, length, loud, laid⟩ := progressionEvents_eq_ok.mp played
  rw [← eventsFrom_transposed laid, progressionEvents_eq_ok]
  constructor
  · rintro ⟨-, d', v', length', loud', laid'⟩
    cases length.symm.trans length'
    cases loud.symm.trans loud'
    exact laid'
  · intro laid'
    exact ⟨positive, d, v, length, loud, laid'⟩

end Moving

/-- From two tonics a progression has the same events, but for the pitches, which are as far apart
as the tonics; and it can be played from every tonic between the two. -/
theorem progression_transposes {s : Setting} {chords : List Chord} {tonic other : PitchClass}
    {octave next : Int} {es fs : List NoteEvent}
    (first : progressionEvents { s with octave := octave } tonic chords = .ok es)
    (second : progressionEvents { s with octave := next } other chords = .ok fs) :
    es.length = fs.length ∧
    List.Forall₂ (fun e f : NoteEvent => f = { e with pitch := f.pitch } ∧
      (f.pitch.val : Int) =
        other.noteNumber next - tonic.noteNumber octave + e.pitch.val) es fs ∧
    ∀ (between : PitchClass) (height : Int),
      (tonic.noteNumber octave ≤ between.noteNumber height ∧
          between.noteNumber height ≤ other.noteNumber next ∨
        other.noteNumber next ≤ between.noteNumber height ∧
          between.noteNumber height ≤ tonic.noteNumber octave) →
      ∃ gs, progressionEvents { s with octave := height } between chords = .ok gs := by
  have moved := (progressionEvents_transposed first).mp second
  refine ⟨moved.length_eq, moved, fun between height inside => ?_⟩
  -- The pitches of both ends are in range, and those between lie between them.
  have room : ∀ e ∈ es,
      0 ≤ between.noteNumber height - tonic.noteNumber octave + e.pitch.val ∧
        between.noteNumber height - tonic.noteNumber octave + e.pitch.val ≤ 127 := by
    intro e he
    obtain ⟨f, -, -, pitch⟩ := exists_right_of_mem moved e he
    have low := e.pitch.isLt
    have high := f.pitch.isLt
    omega
  obtain ⟨gs, shifted⟩ := exists_transposed room
  exact ⟨gs, (progressionEvents_transposed first).mpr shifted⟩

/-- The lowest and the highest tonic of a progression, from the first note of the range to its last,
and one in the middle. -/
theorem progression_transposes_full_range :
    ∃ es fs gs,
      progressionEvents { octave := -1 } 0
        [⟨.mixolydian, .five, some .seven, none⟩, ⟨.ionian, .one, none, none⟩] = .ok es ∧
      progressionEvents { octave := 8 } 7
        [⟨.mixolydian, .five, some .seven, none⟩, ⟨.ionian, .one, none, none⟩] = .ok fs ∧
      List.Forall₂ (fun e f : NoteEvent => f = { e with pitch := f.pitch } ∧
        (f.pitch.val : Int) = 115 + e.pitch.val) es fs ∧
      progressionEvents { octave := 4 } 9
        [⟨.mixolydian, .five, some .seven, none⟩, ⟨.ionian, .one, none, none⟩] = .ok gs := by
  have low : progressionEvents { octave := -1 } 0
      [⟨.mixolydian, .five, some .seven, none⟩, ⟨.ionian, .one, none, none⟩] =
        .ok [⟨2, 0, 1920, 101, 0⟩, ⟨5, 0, 1920, 101, 0⟩, ⟨9, 0, 1920, 101, 0⟩,
          ⟨12, 0, 1920, 101, 0⟩, ⟨0, 1920, 1920, 101, 0⟩, ⟨4, 1920, 1920, 101, 0⟩,
          ⟨7, 1920, 1920, 101, 0⟩] := by decide
  have high : progressionEvents { octave := 8 } 7
      [⟨.mixolydian, .five, some .seven, none⟩, ⟨.ionian, .one, none, none⟩] =
        .ok [⟨117, 0, 1920, 101, 0⟩, ⟨120, 0, 1920, 101, 0⟩, ⟨124, 0, 1920, 101, 0⟩,
          ⟨127, 0, 1920, 101, 0⟩, ⟨115, 1920, 1920, 101, 0⟩, ⟨119, 1920, 1920, 101, 0⟩,
          ⟨122, 1920, 1920, 101, 0⟩] := by decide
  obtain ⟨-, moved, room⟩ := progression_transposes (s := {}) low high
  obtain ⟨gs, played⟩ := room 9 4 (.inl (by decide))
  exact ⟨_, _, gs, low, high, moved, played⟩

end ChordSymbols
