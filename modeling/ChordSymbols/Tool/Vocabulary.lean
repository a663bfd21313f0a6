import ChordSymbols.Symbol.Value
import ChordSymbols.Tool.Reply

/-!
# The tool for the vocabulary

The closed sets behind the symbols, each with its codes, and the two shapes of a
symbol.
-/

namespace ChordSymbols

def Mode.value (m : Mode) : Value :=
  .record [("name", .ofString m.name), ("code", optionalText (m.letter?.map ([·]))),
    ("intervals", wholeList (m.steps.map Int.ofNat))]

def Degree.value (d : Degree) : Value :=
  .record [("code", .text [d.digit]), ("root", .whole d.root),
    ("default_mode", .ofString d.defaultMode.name)]

/-- A marker by its label in lowercase and its code. -/
def markerValue (label : String) (code : Text) : Value :=
  .record [("name", .ofString label.toLower), ("code", .text code)]

def vocabularyReply : Reply :=
  ⟨[], success [
    ("modes", .list (Mode.all.map Mode.value)),
    ("numerals", .list (Degree.all.map Degree.value)),
    ("inversions", .list (Figure.all.map fun f => markerValue f.label f.code)),
    ("functions", .list (Secondary.all.map fun s => markerValue s.label s.code)),
    ("grammar", .record [("simple", .ofString "[mode-letter] numeral [inversion]"),
      ("applied", .ofString "function [inversion] / numeral")])]⟩

end ChordSymbols
