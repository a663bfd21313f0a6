import ChordSymbols.Document.Record
import ChordSymbols.Harmony.Parts
import ChordSymbols.Playback.File
import ChordSymbols.Playback.Layout
import ChordSymbols.Symbol.Spelling

/-!
# Failures

Every cause for which an activity of the library can fail, in one type, for
those that put several activities together.
-/

namespace ChordSymbols

inductive Failure where
  | symbol (cause : SymbolError)
  | unspellable (cause : Unspellable)
  | notSingle (cause : NotSingle)
  | notMember (cause : NotMember)
  | pitch (cause : UnknownPitch)
  | note (cause : NoteError)
  | event (cause : EventError)
  | playback (cause : PlaybackError)
  | file (cause : FileError)
  | arithmetic (cause : ArithmeticError)
  | record (cause : RecordError)
deriving DecidableEq, Repr

def Failure.message : Failure → String
  | .symbol e => e.message
  | .unspellable e => e.message
  | .notSingle e => e.message
  | .notMember e => e.message
  | .pitch e => e.message
  | .note e => e.message
  | .event e => e.message
  | .playback e => e.message
  | .file e => e.message
  | .arithmetic e => e.message
  | .record e => e.message

/-- An activity that leaves no records, with its failure among all others. -/
def Run.orFailure {ε α : Type} (f : ε → Failure) (x : Except ε α) : Run Failure α :=
  Run.of (x.mapError f)

end ChordSymbols
