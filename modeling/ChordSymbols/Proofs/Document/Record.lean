import ChordSymbols.Proofs.Document.Faults
import ChordSymbols.Proofs.Document.Playing
import ChordSymbols.Proofs.Progression.Splitting

/-!
# Documents and their records

Validation fills in defaults, reads the tempo and strips the symbols, so that a
document may differ from the draft it was made of. What it leaves would pass
again as it is. A record holds all fields of its document as plain values, and
is read by the same validation: a document is read back from its record exactly
if it has been validated before.
-/

namespace ChordSymbols

/-- The fields of a document as a draft. -/
def Document.plain (d : Document) : PlainDraft :=
  ⟨schemaName, d.name, d.tonic, d.tempo, d.chords⟩

/-- A document that validation would leave as it is. -/
structure Document.Settled (d : Document) : Prop where
  passes : ∀ f, d.plain.Passes f
  stripped : d.chords.map strip = d.chords

/-- What a draft gives for each field of the document that it becomes. -/
structure Draft.Gives (draft : Draft) (d : Document) : Prop where
  schema : draft.schema = none ∨ draft.schema = some (.text schemaName)
  name : draft.name = some (.text d.name)
  tonic : draft.tonic.getD (.text defaultTonic) = .text d.tonic
  tempo : wholeOfValue (draft.tempo.getD (.whole defaultTempo)) = .ok d.tempo
  chords : ∃ symbols : List Text,
    draft.chords = some (.list (symbols.map .text)) ∧ d.chords = symbols.map strip

section Validated

variable {draft : Draft} {d : Document}

theorem Draft.gives_of_valid (valid : draft.validate.outcome = .ok d) : draft.Gives d := by
  obtain ⟨schema, name, tonic, tempo, chords⟩ := Draft.validate_eq_ok.mp valid
  refine ⟨checkSchema_eq_ok.mp schema, ?_, ?_, ?_, ?_⟩
  · cases given : draft.name with
    | none =>
      rw [given] at name
      cases name
    | some v =>
      rw [given] at name
      rw [(checkName_eq_ok.mp name).1]
  · cases given : draft.tonic with
    | none =>
      rw [given] at tonic
      exact congrArg Value.text (Except.ok.inj tonic)
    | some v =>
      rw [given] at tonic
      exact (checkTonic_eq_ok.mp tonic).1
  · cases given : draft.tempo with
    | none =>
      rw [given] at tempo
      exact tempo
    | some v =>
      rw [given] at tempo
      exact (tempoOfValue_eq_ok.mp tempo).1
  · obtain ⟨symbols, given, -, stripped⟩ := checkChords_given chords
    exact ⟨symbols, given, stripped⟩

theorem Draft.settled_of_valid (valid : draft.validate.outcome = .ok d) : d.Settled := by
  obtain ⟨-, name, -, -, chords⟩ := Draft.validate_eq_ok.mp valid
  obtain ⟨symbols, -, filled, same⟩ := checkChords_given chords
  have sound := Draft.sound_of_valid valid
  have stripped : d.chords.map strip = d.chords := by
    rw [same, List.map_map]
    exact List.map_congr_left fun s _ => strip_strip s
  refine ⟨fun f => ?_, stripped⟩
  cases f with
  | schema => rfl
  | name =>
    rw [(Draft.gives_of_valid valid).name] at name
    exact (checkName_eq_ok.mp name).2
  | tonic => exact sound.keyed
  | tempo => exact sound.pace
  | chords =>
    have each := mapM_succeeds_iff.mp sound.parses
    rw [← stripped] at each
    refine ⟨?_, each⟩
    rw [Document.plain, same]
    exact fun none => filled (List.map_eq_nil_iff.mp none)

/-- A record is read as a draft of just the fields that its document holds. -/
theorem draftOfRecord_record (d : Document) : draftOfRecord d.record = .ok d.plain.draft := rfl

theorem outcome_ofRecord_record (d : Document) :
    (Document.ofRecord d.record).outcome = d.plain.draft.validate.outcome.mapError .invalid := by
  rw [Document.ofRecord, Run.outcome_bind, draftOfRecord_record]
  rfl

/-- Exactly the settled documents are read back from their records. -/
theorem ofRecord_record_eq_ok : (Document.ofRecord d.record).outcome = .ok d ↔ d.Settled := by
  rw [outcome_ofRecord_record, mapError_eq_ok]
  constructor
  · exact Draft.settled_of_valid
  · intro settled
    have read := PlainDraft.validate_of_passes settled.passes
    rw [Document.plain, settled.stripped] at read
    exact read

end Validated

/-- A document that was accepted is read back from its record, field by field, and compiles to the
same chords. Of the draft it keeps the name and the tonic as given, the whole number that the tempo
is, and the symbols without the blanks at their ends; what was absent has its default. -/
theorem document_reads_back {draft : Draft} {d : Document}
    (valid : draft.validate.outcome = .ok d) :
    draft.Gives d ∧
    draftOfRecord d.record =
      .ok ⟨some (.text schemaName), some (.text d.name), some (.text d.tonic),
        some (.whole d.tempo), some (.list (d.chords.map .text))⟩ ∧
    ∃ again chords, (Document.ofRecord d.record).outcome = .ok again ∧
      again.name = d.name ∧ again.tonic = d.tonic ∧ again.tempo = d.tempo ∧
      again.chords = d.chords ∧
      d.compile.outcome = .ok chords ∧ again.compile.outcome = .ok chords ∧
      chords.length = d.chords.length := by
  have read := ofRecord_record_eq_ok.mpr (Draft.settled_of_valid valid)
  obtain ⟨chords, text, compiled, count, -⟩ := (Draft.sound_of_valid valid).compiles
  exact ⟨Draft.gives_of_valid valid, draftOfRecord_record d, d, chords, read, rfl, rfl, rfl, rfl,
    compiled, compiled, count⟩

/-- A draft without schema, with blanks around the tonic, the symbols and a tempo in text. -/
theorem document_reads_back_padded :
    ∃ d, (⟨none, some (.text ['a']), some (.text [' ', 'E', 'b']),
        some (.text [' ', '+', '0', '9', '6', '.', '0']),
        some (.list [.text [' ', '1'], .text ['B', '7', '6', '\u3000']])⟩ : Draft).validate.outcome =
          .ok d ∧
      d = ⟨['a'], [' ', 'E', 'b'], 96, [['1'], ['B', '7', '6']]⟩ ∧
      ∃ again, (Document.ofRecord d.record).outcome = .ok again ∧ again.chords = d.chords := by
  have valid : (⟨none, some (.text ['a']), some (.text [' ', 'E', 'b']),
      some (.text [' ', '+', '0', '9', '6', '.', '0']),
      some (.list [.text [' ', '1'], .text ['B', '7', '6', '\u3000']])⟩ : Draft).validate.outcome =
        .ok ⟨['a'], [' ', 'E', 'b'], 96, [['1'], ['B', '7', '6']]⟩ := rfl
  obtain ⟨-, -, again, chords, read, -, -, -, same, -⟩ := document_reads_back valid
  exact ⟨_, valid, rfl, again, read, same⟩

end ChordSymbols
