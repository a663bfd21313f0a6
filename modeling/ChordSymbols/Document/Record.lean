import ChordSymbols.Document.Validation

/-!
# Documents as records

A document is kept as a record of plain values, with key and tempo in a record
of their own. Reading one back looks the fields up in a fixed order and then
validates them; an inner record that is absent or empty leaves the defaults.
-/

namespace ChordSymbols

inductive RecordError where
  | noLookup (kind : String)
  | noField (name : String)
  | invalid (faults : List FieldFault)
deriving DecidableEq, Repr

/-- Wording of the causes with one; faults of fields are listed instead. -/
def RecordError.message : RecordError → String
  | .noLookup kind => quoted kind.toList ++ " object has no attribute 'get'"
  | .noField name => quoted name.toList
  | .invalid faults => faultReport faults

abbrev Fields := List (String × Value)

namespace Document

def record (d : Document) : Value :=
  .record [("schema", .text schemaName), ("name", .text d.name),
    ("context", .record [("tonic", .text d.tonic), ("tempo", .whole d.tempo)]),
    ("chords", .list (d.chords.map .text))]

end Document

/-- The fields of a value, where it has fields. -/
def fieldsOf : Value → Except RecordError Fields
  | .record fields => .ok fields
  | v => .error (.noLookup v.kindName)

def required (name : String) (fields : Fields) : Except RecordError Value :=
  match fields.lookup name with
  | some v => .ok v
  | none => .error (.noField name)

/-- The draft that a record holds. -/
def draftOfRecord (v : Value) : Except RecordError Draft := do
  let fields ← fieldsOf v
  let context := match fields.lookup "context" with
    | some c => if c.isFilled then c else .record []
    | none => .record []
  let name ← required "name" fields
  let inner ← fieldsOf context
  let chords ← required "chords" fields
  return ⟨fields.lookup "schema", some name, inner.lookup "tonic", inner.lookup "tempo",
    some chords⟩

def Document.ofRecord (v : Value) : Run RecordError Document := do
  let d ← Run.of (draftOfRecord v)
  d.validate.mapError .invalid

end ChordSymbols
