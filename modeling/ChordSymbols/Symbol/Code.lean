import ChordSymbols.Harmony.Chord
import ChordSymbols.Symbol.Error

/-!
# Codes of the vocabularies

The text of one token is looked up as a whole: a degree by its digit, a mode by
its letter in either case, a figure and a secondary function by their digits.
There is no fallback; a miss names the vocabulary and the text as given.
-/

namespace ChordSymbols

/-- The mode of a letter. Case is ignored, and no character outside ASCII is a case of these. -/
def Mode.ofCode? : Text → Option Mode
  | [c] => Mode.all.find? fun m => m.letter?.map Char.toLower = some c.toLower
  | _ => none

def Degree.ofCode? (t : Text) : Option Degree :=
  Degree.all.find? fun d => [d.digit] = t

/-- A look-up that reports a miss. -/
def resolve {α : Type} (v : Vocabulary) (find : Text → Option α) (code : Text) :
    Except SymbolError α :=
  match find code with
  | some a => .ok a
  | none => .error (.unresolved v code)

def resolveMode : Text → Except SymbolError Mode := resolve .mode Mode.ofCode?
def resolveDegree : Text → Except SymbolError Degree := resolve .numeral Degree.ofCode?
def resolveFigure : Text → Except SymbolError Figure := resolve .inversion Figure.ofCode?
def resolveSecondary : Text → Except SymbolError Secondary := resolve .function Secondary.ofCode?

theorem Degree.ofCode?_digit (d : Degree) : Degree.ofCode? [d.digit] = some d := by
  cases d <;> decide

end ChordSymbols
