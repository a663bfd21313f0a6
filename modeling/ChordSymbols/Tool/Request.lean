import ChordSymbols.Tool.Export
import ChordSymbols.Tool.Progression
import ChordSymbols.Tool.Symbol
import ChordSymbols.Tool.Vocabulary

/-!
# Requests

There are eight tools. A request names one and holds its arguments; those that
are left out have defaults. Only an export changes the disk, and it goes to the
folder that the server was given.
-/

namespace ChordSymbols

inductive Request where
  | tokenize (symbol : Value)
  | parseChord (symbol : Value)
  | chordNotes (symbol tonic : Value) (octave : Int)
  | describeVocabulary
  | parseProgression (progression : Value) (strict : Bool)
  | appendChord (progression symbol : Value)
  | exportMidi (progression tonic tempo : Value) (beats : Quantity) (name : Value)
  | exportYaml (progression name tonic tempo : Value)
deriving Repr

/-- The names of the tools, in alphabetical order. -/
def toolNames : List String :=
  ["chorder_append_chord", "chorder_chord_notes", "chorder_describe_vocabulary",
   "chorder_export_midi", "chorder_export_yaml", "chorder_parse_chord",
   "chorder_parse_progression", "chorder_tokenize"]

def quantityOf? : Value → Option Quantity
  | .whole n => some (.whole n)
  | .real x => some (.real x)
  | _ => none

def wholeOf? : Value → Option Int
  | .whole n => some n
  | _ => none

def boolOf? : Value → Option Bool
  | .bool b => some b
  | _ => none

/-- The folder that exports go to where no other is given. -/
def outputFolder : Text := "out".toList

namespace Request

/-- Reads a request from the name of a tool and its named arguments. -/
def ofArguments? (tool : String) (arguments : List (String × Value)) : Option Request :=
  let given (name : String) : Option Value := arguments.lookup name
  let tonic : Value := (given "tonic").getD (.ofString "C")
  let tempo : Value := (given "tempo").getD (.whole 120)
  match tool with
  | "chorder_tokenize" => do return .tokenize (← given "symbol")
  | "chorder_parse_chord" => do return .parseChord (← given "symbol")
  | "chorder_chord_notes" => do
    return .chordNotes (← given "symbol") tonic (← wholeOf? ((given "octave").getD (.whole 4)))
  | "chorder_describe_vocabulary" => some .describeVocabulary
  | "chorder_parse_progression" => do
    return .parseProgression (← given "progression")
      (← boolOf? ((given "strict").getD (.bool false)))
  | "chorder_append_chord" => do
    return .appendChord (← given "progression") (← given "symbol")
  | "chorder_export_midi" => do
    return .exportMidi (← given "progression") tonic tempo
      (← quantityOf? ((given "beats_per_chord").getD (.whole 4)))
      ((given "output_name").getD (.ofString "progression"))
  | "chorder_export_yaml" => do
    return .exportYaml (← given "progression") (← given "name") tonic tempo
  | _ => none

def run (r : Request) (disk : Disk) (folder : Text := outputFolder) : Reply × Disk :=
  match r with
  | .tokenize symbol => (tokenizeReply symbol, disk)
  | .parseChord symbol => (parseChordReply symbol, disk)
  | .chordNotes symbol tonic octave => (chordNotesReply symbol tonic octave, disk)
  | .describeVocabulary => (vocabularyReply, disk)
  | .parseProgression progression strict => (parseProgressionReply progression strict, disk)
  | .appendChord progression symbol => (appendChordReply progression symbol, disk)
  | .exportMidi progression tonic tempo beats name =>
    exportMidiReply (Path.ofText folder) progression tonic tempo beats name disk
  | .exportYaml progression name tonic tempo =>
    (exportYamlReply progression name tonic tempo, disk)

end Request

end ChordSymbols
