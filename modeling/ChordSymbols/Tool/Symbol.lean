import ChordSymbols.Symbol.Compile
import ChordSymbols.Symbol.Value
import ChordSymbols.Tool.Reply

/-!
# Tools for one symbol

Three tools take a symbol: one shows its tokens, one its chord, one its notes in
a key. A symbol at fault is refused alike by all three, with the kind of the
fault and the symbol. Notes are named in flats when the tonic as given has a
flat sign after its first character.
-/

namespace ChordSymbols

def symbolRefusal (symbol : Text) (e : SymbolError) : Refusal :=
  .known (some e.kindName) (some symbol) e.message

def tokenizeReply (symbol : Value) : Reply :=
  Run.reply .symbolTools "Failed to tokenize symbol" do
    let s ← textOr noLength symbol
    let tokens ← (tokenizeRecorded s).mapError (symbolRefusal s)
    return success [("symbol", .text s), ("tokens", .list (tokens.map Token.value))]

def parseChordReply (symbol : Value) : Reply :=
  Run.reply .symbolTools "Failed to parse chord" do
    let s ← textOr noLength symbol
    let c ← (compileSymbol s).mapError (symbolRefusal s)
    return success [("chord", c.value)]

/-- Whether a tonic, as it was given, asks for flats. -/
def prefersFlats (tonic : Text) : Bool := tonic.tail.contains 'b'

def chordNotesReply (symbol tonic : Value) (octave : Int) : Reply :=
  Run.reply .symbolTools "Failed to realize chord notes" do
    let s ← textOr noLength symbol
    let c ← (compileSymbol s).mapError (symbolRefusal s)
    let t ← textOr (noOperation "strip") tonic
    let root ← (Run.of (PitchClass.parse t)).mapError fun e => .known none (some s) e.message
    let flats := prefersFlats t
    let notes ← (Run.of (c.voicing root octave)).mapError fun e => .known none (some s) e.message
    return success [("symbol", .text s), ("tonic", .text (root.spell flats)),
      ("offsets", c.offsetsValue),
      ("names", .list ((c.pitchClasses root).map fun p => .text (p.spell flats))),
      ("midi", wholeList notes)]

end ChordSymbols
