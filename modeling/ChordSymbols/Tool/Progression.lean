import ChordSymbols.Progression
import ChordSymbols.Symbol.Value
import ChordSymbols.Tool.Reply

/-!
# Tools for a progression

One tool compiles a progression, strictly or leniently, and refuses one without
symbols; the other adds a symbol to a progression.
-/

namespace ChordSymbols

def faultRefusal (e : SymbolError) : Refusal :=
  .known (some e.kindName) none e.message

def Skipped.value (s : Skipped) : Value :=
  .record [("index", .whole s.index), ("symbol", .text s.symbol),
    ("message", .ofString s.cause.message)]

def parsedMessage (chords skipped : Nat) : String :=
  "Parsed " ++ toString chords ++ " chords (" ++ toString skipped ++ " skipped)."

def parseProgressionReply (progression : Value) (strict : Bool) : Reply :=
  Run.reply .progressionTools "Failed to parse progression" do
    let t ← textOr (noOperation "split") progression
    if splitProgression t = [] then
      Run.fail (.known none none "Progression contains no chord symbols.")
    else
      let r ← (compileProgression strict t).mapError faultRefusal
      return success [("chords", .list (r.chords.map Chord.value)),
        ("skipped", .list (r.skipped.map Skipped.value)),
        ("message", .ofString (parsedMessage r.chords.length r.skipped.length))]

/-- The symbol is looked at before the progression. -/
def appendChordReply (progression symbol : Value) : Reply :=
  Run.reply .progressionTools "Failed to append chord" do
    let s ← textOr (noOperation "strip") symbol
    match progression with
    | .text t =>
      let extended ← (appendSymbol t s).mapError faultRefusal
      return success [("progression", .text extended)]
    | v =>
      let _ ← (compileSymbol (strip s)).mapError faultRefusal
      Run.fail (.unforeseen (noOperation "split" (quoted v.kindName.toList)))

end ChordSymbols
