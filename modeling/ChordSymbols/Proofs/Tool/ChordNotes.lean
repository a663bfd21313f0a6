import ChordSymbols.Proofs.Harmony.ClosePosition
import ChordSymbols.Proofs.Harmony.Naming
import ChordSymbols.Proofs.Tool.Reply
import ChordSymbols.Tool.Symbol

/-!
# The notes of a symbol in a key

The answer tells the notes of a chord three times: as offsets, by name, and as
note numbers. All three are as long as the chord has notes, and at every place
they tell of one pitch class. The symbol decides first whether there is such an
answer, then the tonic, then the octave.
-/

namespace ChordSymbols

/-- Offsets from a tonic, names and note numbers that tell of the same notes. -/
structure SameNotes (tonic : PitchClass) (offsets : List Nat) (names : List Text)
    (notes : List Int) : Prop where
  named : names.length = offsets.length
  voiced : notes.length = offsets.length
  each : ∀ (i o : Nat) (name : Text) (n : Int),
    offsets[i]? = some o → names[i]? = some name → notes[i]? = some n →
      ∃ p : PitchClass, PitchClass.parse name = .ok p ∧ p.val = (tonic.val + o) % 12 ∧
        n % 12 = p.val

theorem PitchClass.val_transpose (p : PitchClass) (o : Nat) :
    (p.transpose o).val = (p.val + o) % 12 := by
  simp only [transpose]
  omega

/-- An answer with a tonic of a class, and with these offsets, names and note numbers. -/
structure TellsNotes (answer : Value) (tonic : PitchClass) (offsets : List Nat) (names : List Text)
    (notes : List Int) : Prop where
  tonic : ∃ t, answer.field? "tonic" = some (.text t) ∧ PitchClass.parse t = .ok tonic
  offsets : answer.field? "offsets" = some (wholeList (offsets.map Int.ofNat))
  names : answer.field? "names" = some (.list (names.map .text))
  notes : answer.field? "midi" = some (wholeList notes)

namespace Chord

theorem length_offsets (c : Chord) :
    c.offsets.length = if c.figure = some .seven then 4 else 3 := by
  rw [offsets, List.length_map, sounding]
  cases c.figure with
  | none => rfl
  | some f => cases f <;> rfl

theorem sameNotes (c : Chord) (root : PitchClass) (octave : Int) (flats : Bool) :
    SameNotes root c.offsets ((c.pitchClasses root).map (PitchClass.spell flats))
      (c.closePosition root octave) := by
  refine ⟨by simp [pitchClasses], length_stack _ _ _, ?_⟩
  intro i o name n offset spelled note
  have classes := congrArg (·[i]?) (c.closePosition_classes root octave)
  simp only [pitchClasses, List.getElem?_map, offset, note, Option.map_some,
    Option.some.injEq] at spelled classes
  subst spelled
  exact ⟨root.transpose o, PitchClass.parse_spell flats _, PitchClass.val_transpose root o, classes⟩

end Chord

/-- The answer about a chord that is voiced, with its names in flats or in sharps. -/
def notesAnswer (symbol : Text) (c : Chord) (root : PitchClass) (flats : Bool) (notes : List Int) :
    Value :=
  success [("symbol", .text symbol), ("tonic", .text (root.spell flats)),
    ("offsets", c.offsetsValue),
    ("names", .list ((c.pitchClasses root).map fun p => .text (p.spell flats))),
    ("midi", wholeList notes)]

/-- The symbol is read first, then the tonic, and the chord is voiced last; the first of these that
fails decides the answer. -/
theorem chordNotes_answer (symbol tonic : Text) (octave : Int) :
    (chordNotesReply (.text symbol) (.text tonic) octave).answer =
      match parseSymbol symbol with
      | .error e => (symbolRefusal symbol e).answer
      | .ok c =>
        match PitchClass.parse tonic with
        | .error e => (Refusal.known none (some symbol) e.message).answer
        | .ok root =>
          match c.voicing root octave with
          | .error e => (Refusal.known none (some symbol) e.message).answer
          | .ok notes => notesAnswer symbol c root (prefersFlats tonic) notes := by
  rw [chordNotesReply, Run.answer_eq]
  show answerOf ((compileSymbol symbol).mapError (symbolRefusal symbol) >>= _).outcome = _
  rw [Run.outcome_bind, Run.outcome_mapError, outcome_compileSymbol]
  cases parseSymbol symbol with
  | error e => rfl
  | ok c =>
    show answerOf ((Run.of (PitchClass.parse tonic)).mapError _ >>= _).outcome = _
    cases PitchClass.parse tonic with
    | error e => rfl
    | ok root =>
      show answerOf ((Run.of (c.voicing root octave)).mapError _ >>= _).outcome = _
      dsimp only
      cases c.voicing root octave with
      | error e => rfl
      | ok notes => rfl

theorem notesAnswer_tells (symbol : Text) (c : Chord) (root : PitchClass) (flats : Bool)
    (notes : List Int) :
    TellsNotes (notesAnswer symbol c root flats notes) root c.offsets
      ((c.pitchClasses root).map (PitchClass.spell flats)) notes where
  tonic := ⟨root.spell flats, rfl, PitchClass.parse_spell flats root⟩
  offsets := rfl
  names := by
    rw [List.map_map]
    rfl
  notes := rfl

section Answer

variable {symbol tonic : Text} {octave : Int}

theorem chordNotes_voiced {c : Chord} {root : PitchClass} {notes : List Int}
    (parsed : parseSymbol symbol = .ok c) (keyed : PitchClass.parse tonic = .ok root)
    (voiced : c.voicing root octave = .ok notes) :
    (chordNotesReply (.text symbol) (.text tonic) octave).answer =
      notesAnswer symbol c root (prefersFlats tonic) notes := by
  simp only [chordNotes_answer, parsed, keyed, voiced]

/-- An answer is one of success exactly if nothing fails on the way to it. -/
theorem chordNotes_succeeds_iff :
    (chordNotesReply (.text symbol) (.text tonic) octave).Succeeds ↔
      ∃ c root notes, parseSymbol symbol = .ok c ∧ PitchClass.parse tonic = .ok root ∧
        c.voicing root octave = .ok notes := by
  constructor
  · intro succeeds
    have answered := chordNotes_answer symbol tonic octave
    cases parsed : parseSymbol symbol with
    | error e =>
      rw [parsed] at answered
      exact absurd succeeds (Reply.not_succeeds answered)
    | ok c =>
      cases keyed : PitchClass.parse tonic with
      | error e =>
        rw [parsed, keyed] at answered
        exact absurd succeeds (Reply.not_succeeds answered)
      | ok root =>
        cases voiced : c.voicing root octave with
        | error e =>
          simp only [parsed, keyed, voiced] at answered
          exact absurd succeeds (Reply.not_succeeds answered)
        | ok notes => exact ⟨c, root, notes, rfl, rfl, voiced⟩
  · rintro ⟨c, root, notes, parsed, keyed, voiced⟩
    exact Reply.succeeds_of_success (chordNotes_voiced parsed keyed voiced)

/-- Of a tonic an answer tells no more than its class and, if it is one of success, its sign. -/
theorem chordNotes_answer_congr {other : Text}
    (same : PitchClass.parse tonic = PitchClass.parse other)
    (signs : (chordNotesReply (.text symbol) (.text tonic) octave).Succeeds →
      prefersFlats tonic = prefersFlats other) :
    (chordNotesReply (.text symbol) (.text tonic) octave).answer =
      (chordNotesReply (.text symbol) (.text other) octave).answer := by
  rw [chordNotes_answer, chordNotes_answer, ← same]
  cases parsed : parseSymbol symbol with
  | error e => rfl
  | ok c =>
    cases keyed : PitchClass.parse tonic with
    | error e => rfl
    | ok root =>
      cases voiced : c.voicing root octave with
      | error e => simp only [voiced]
      | ok notes =>
        have sign := signs (chordNotes_succeeds_iff.mpr ⟨c, root, notes, parsed, keyed, voiced⟩)
        simp only [voiced, sign]

end Answer

/-- An answer about notes is one of success exactly for a symbol that parses, a tonic that names a
pitch class, and notes in range; a symbol that does not parse is refused whatever the rest. In an
answer of success the tonic is of the class that was given, there are four notes if the figure is a
seventh and three otherwise, and offsets, names and note numbers tell of the same ones. -/
theorem chord_notes_agree (symbol tonic : Text) (octave : Int) :
    ((chordNotesReply (.text symbol) (.text tonic) octave).Succeeds ↔
      ∃ c root, parseSymbol symbol = .ok c ∧ PitchClass.parse tonic = .ok root ∧
        ∀ n ∈ c.closePosition root octave, 0 ≤ n ∧ n ≤ 127) ∧
    (∀ e, parseSymbol symbol = .error e →
      (chordNotesReply (.text symbol) (.text tonic) octave).answer =
        (symbolRefusal symbol e).answer) ∧
    ∀ c root, parseSymbol symbol = .ok c → PitchClass.parse tonic = .ok root →
      (chordNotesReply (.text symbol) (.text tonic) octave).Succeeds →
      ∃ names notes, c.voicing root octave = .ok notes ∧
        TellsNotes (chordNotesReply (.text symbol) (.text tonic) octave).answer root c.offsets
          names notes ∧
        c.offsets.length = (if c.figure = some .seven then 4 else 3) ∧
        SameNotes root c.offsets names notes := by
  refine ⟨?_, fun e failed => ?_, fun c root parsed keyed succeeds => ?_⟩
  · rw [chordNotes_succeeds_iff]
    constructor
    · rintro ⟨c, root, notes, parsed, keyed, voiced⟩
      obtain ⟨rfl, inside⟩ := Chord.voicing_eq_ok.mp voiced
      exact ⟨c, root, parsed, keyed, inside⟩
    · rintro ⟨c, root, parsed, keyed, inside⟩
      exact ⟨c, root, _, parsed, keyed, Chord.voicing_eq_ok.mpr ⟨rfl, inside⟩⟩
  · rw [chordNotes_answer, failed]
  · obtain ⟨c', root', notes, parsed', keyed', voiced⟩ := chordNotes_succeeds_iff.mp succeeds
    cases parsed.symm.trans parsed'
    cases keyed.symm.trans keyed'
    refine ⟨(c.pitchClasses root).map (PitchClass.spell (prefersFlats tonic)), notes, voiced, ?_,
      c.length_offsets, ?_⟩
    · rw [chordNotes_voiced parsed keyed voiced]
      exact notesAnswer_tells symbol c root (prefersFlats tonic) notes
    · rw [← Chord.closePosition_of_voicing voiced]
      exact c.sameNotes root octave (prefersFlats tonic)

/-- A seventh chord in a flat key, and a symbol that is refused before its tonic and octave. -/
theorem chord_notes_agree_flat_seventh :
    (chordNotesReply (.text ['5', '7']) (.text [' ', 'E', 'b']) 4).Succeeds ∧
      (∃ names notes,
        TellsNotes (chordNotesReply (.text ['5', '7']) (.text [' ', 'E', 'b']) 4).answer 3
          [2, 5, 9, 0] names notes ∧
        SameNotes 3 [2, 5, 9, 0] names notes) ∧
      (chordNotesReply (.text ['9']) (.text ['H']) 99).answer =
        (symbolRefusal ['9'] (.unresolved .numeral ['9'])).answer := by
  have succeeds : (chordNotesReply (.text ['5', '7']) (.text [' ', 'E', 'b']) 4).Succeeds := rfl
  obtain ⟨names, notes, -, tells, -, same⟩ :=
    (chord_notes_agree ['5', '7'] [' ', 'E', 'b'] 4).2.2 ⟨.mixolydian, .five, some .seven, none⟩ 3
      rfl rfl succeeds
  exact ⟨succeeds, ⟨names, notes, tells, same⟩, (chord_notes_agree ['9'] ['H'] 99).2.1 _ rfl⟩

end ChordSymbols
