import ChordSymbols.Document.Text
import ChordSymbols.Failure
import ChordSymbols.Progression

/-!
# What a document comes to

Everything that follows from a document: the class of its tonic, its canonical
progression, the notes of its chords, its text, and whether its record reads
back to the same document.
-/

namespace ChordSymbols

structure Summary where
  document : Document
  tonic : PitchClass
  canonical : Text
  offsets : List (List Nat)
  text : Text
  readsBack : Bool
deriving DecidableEq, Repr

namespace Document

/-- The canonical progression of a document. -/
def canonical (d : Document) : Run Failure Text := do
  let chords ← d.compile.mapError .symbol
  Run.orFailure .unspellable (formatProgression chords)

def summary (d : Document) : Run Failure Summary := do
  let tonic ← Run.orFailure .pitch (PitchClass.parse d.tonic)
  let canonical ← d.canonical
  let chords ← d.compile.mapError .symbol
  let again ← (Document.ofRecord d.record).mapError .record
  return ⟨d, tonic, canonical, chords.map Chord.offsets, d.yaml, again = d⟩

end Document

/-- The summary of the document that a draft becomes. -/
def Draft.summary (d : Draft) : Run Failure Summary := do
  let document ← d.validate.mapError fun faults => .record (.invalid faults)
  document.summary

end ChordSymbols
