import ChordSymbols.Document.Record
import ChordSymbols.Yaml.Scalar

/-!
# Documents as text

A document is written as a block of YAML: one line for each field in the order
of its record, the inner record two columns further in, and one line with a dash
for each symbol.
-/

namespace ChordSymbols

namespace Document

/-- A line with a key and a text, `indent` columns in. -/
def textLine (indent : Nat) (key : String) (t : Text) : Text :=
  let front := List.replicate indent ' ' ++ key.toList ++ [':', ' ']
  front ++ Yaml.scalar (indent + 2) front.length t ++ ['\n']

def itemLine (t : Text) : Text :=
  '-' :: ' ' :: Yaml.scalar 2 2 t ++ ['\n']

def yaml (d : Document) : Text :=
  textLine 0 "schema" schemaName ++ textLine 0 "name" d.name ++ "context:\n".toList ++
    textLine 2 "tonic" d.tonic ++ "  tempo: ".toList ++ (toString d.tempo).toList ++
    "\nchords:\n".toList ++ d.chords.flatMap itemLine

end Document

end ChordSymbols
