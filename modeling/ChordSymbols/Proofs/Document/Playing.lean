import ChordSymbols.Proofs.Document.Agreement
import ChordSymbols.Proofs.Playback.Playable

/-!
# Documents that play

Validation and use read the same fields at different times. What validation
leaves true of a document is all that its uses need: its symbols compile again,
to chords that have names and notes, its tonic is read again, and its tempo is
far from the bounds of a track, so that the document plays in beats of any
whole length.
-/

namespace ChordSymbols

/-- What validation leaves true of a document. -/
structure Document.Sound (d : Document) : Prop where
  parses : ∃ chords, d.chords.mapM parseSymbol = .ok chords
  keyed : ∃ tonic, PitchClass.parse d.tonic = .ok tonic
  pace : slowestTempo ≤ d.tempo ∧ d.tempo ≤ fastestTempo

theorem Draft.sound_of_valid {draft : Draft} {d : Document}
    (valid : draft.validate.outcome = .ok d) : d.Sound := by
  obtain ⟨-, -, tonic, tempo, chords⟩ := Draft.validate_eq_ok.mp valid
  exact ⟨checkChords_parses chords, checkTonic_parses tonic, checkTempo_range tempo⟩

namespace Document.Sound

variable {d : Document}

/-- A document compiles to one chord for each symbol, and its chords are spelled. -/
theorem compiles (sound : d.Sound) :
    ∃ chords text, d.compile.outcome = .ok chords ∧ chords.length = d.chords.length ∧
      d.canonical.outcome = .ok text := by
  obtain ⟨chords, parsed⟩ := sound.parses
  have compiled : d.compile.outcome = .ok chords := (d.outcome_compile).trans parsed
  have named := Parses.named (mapM_eq_ok.mp parsed)
  obtain ⟨text, formatted⟩ := formatProgression_of_named named
  refine ⟨chords, text, compiled, length_compileEach compiled, ?_⟩
  rw [outcome_canonical compiled, formatted]
  rfl

theorem four_le_tempo (sound : d.Sound) : 4 ≤ d.tempo := by
  have slow := sound.pace.1
  rw [slowestTempo] at slow
  omega

end Document.Sound

/-- A valid document never fails. It compiles to one chord for each symbol, its tonic is read, its
canonical text is written, every chord has all its notes, both in the table of its mode and within
the range around the default octave, and in beats of any whole length the chords become events and
the events a track, with room for the length of a beat. -/
theorem valid_document_plays {draft : Draft} {d : Document} {beats : Int}
    (valid : draft.validate.outcome = .ok d) (positive : 0 < beats) :
    ∃ chords tonic text events beat track,
      d.compile.outcome = .ok chords ∧ chords.length = d.chords.length ∧
      PitchClass.parse d.tonic = .ok tonic ∧
      d.canonical.outcome = .ok text ∧
      (∀ c ∈ chords,
        List.Forall₂ (fun i o => c.mode.steps[(i + c.degree.root) % 7]? = some o)
          c.sounding c.offsets ∧
        ∃ notes, c.voicing tonic ({} : Setting).octave = .ok notes ∧
          ∀ n ∈ notes, 0 ≤ n ∧ n ≤ 127) ∧
      progressionEvents { beats := .whole beats } tonic chords = .ok events ∧
      beatLength (.whole d.tempo) = .ok beat ∧
      progressionTrack { beats := .whole beats } (.whole d.tempo) tonic chords = .ok track := by
  have sound := Draft.sound_of_valid valid
  obtain ⟨chords, text, compiled, count, canonical⟩ := sound.compiles
  obtain ⟨tonic, keyed⟩ := sound.keyed
  obtain ⟨beat, fits⟩ := beatLength_ok sound.four_le_tempo
  obtain ⟨track, built⟩ := progressionTrack_ok positive sound.four_le_tempo tonic chords
  obtain ⟨events, laid, -⟩ := progressionTrack_eq_ok.mp built
  refine ⟨chords, tonic, text, events, beat, track, compiled, count, keyed, canonical, ?_, laid,
    fits, built⟩
  intro c _
  have room : ∃ notes, c.voicing tonic ({} : Setting).octave = .ok notes :=
    c.voicing_ok tonic (by decide) (by decide)
  obtain ⟨notes, voiced⟩ := room
  exact ⟨c.offsets_read, notes, voiced, (Chord.voicing_eq_ok.mp voiced).2⟩

/-- The longest beat that a document can ask for. -/
theorem valid_document_plays_slowest :
    ∃ d, (⟨none, some (.text ['a']), some (.text ['B', 'b']), some (.whole 20),
        some (.list [.text [' ', '5', '/', '2']])⟩ : Draft).validate.outcome = .ok d ∧
      ∃ chords tonic track, d.compile.outcome = .ok chords ∧ chords.length = 1 ∧
        PitchClass.parse d.tonic = .ok tonic ∧
        progressionTrack { beats := .whole 1 } (.whole 20) tonic chords = .ok track := by
  let d : Document := ⟨['a'], ['B', 'b'], 20, [['5', '/', '2']]⟩
  have valid : (⟨none, some (.text ['a']), some (.text ['B', 'b']), some (.whole 20),
      some (.list [.text [' ', '5', '/', '2']])⟩ : Draft).validate.outcome = .ok d := rfl
  obtain ⟨chords, tonic, text, events, beat, track, compiled, count, keyed, -, -, -, -, built⟩ :=
    valid_document_plays valid (by decide : (0 : Int) < 1)
  exact ⟨d, valid, chords, tonic, track, compiled, count, keyed, built⟩

end ChordSymbols
