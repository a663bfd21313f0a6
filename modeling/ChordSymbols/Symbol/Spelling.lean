import ChordSymbols.Symbol.Code

/-!
# Spelling a chord

The canonical symbol of a chord leaves out the letter of a default mode and
writes a slash only for an applied chord. A simple chord in the Ionian mode on a
degree other than the first has no spelling; it is shown by its parts instead.
-/

namespace ChordSymbols

/-- A mode without a letter, on a degree that it is not the default of. -/
structure Unspellable where
  mode : Mode
  degree : Degree
deriving DecidableEq, Repr

def Unspellable.message (e : Unspellable) : String :=
  "No Hooktheory spelling for " ++ e.mode.name ++ " on numeral " ++ toString e.degree.number

namespace Chord

def figureCode (c : Chord) : Text :=
  match c.figure with
  | some f => f.code
  | none => []

/-- The shortest symbol that spells a chord. -/
def symbol (c : Chord) : Except Unspellable Text :=
  match c.secondary with
  | some s => .ok (s.code ++ c.figureCode ++ ['/', c.degree.digit])
  | none =>
    if c.mode = c.degree.defaultMode then .ok (c.degree.digit :: c.figureCode)
    else match c.mode.letter? with
      | some l => .ok (l :: c.degree.digit :: c.figureCode)
      | none => .error ⟨c.mode, c.degree⟩

private def member (set label value : String) : String :=
  "<" ++ set ++ "." ++ label ++ ": " ++ value ++ ">"

/-- A chord by its four parts, each with its label and value. -/
def parts (c : Chord) : String :=
  let figure := match c.figure with
    | some f => member "Inversion" f.label (quoted f.code)
    | none => "None"
  let secondary := match c.secondary with
    | some s => member "Function" s.label (quoted s.code)
    | none => "None"
  "Chord(mode=" ++ member "Mode" c.mode.label (quoted c.mode.name.toList) ++
    ", numeral=" ++ member "Numeral" c.degree.label (toString c.degree.number) ++
    ", inversion=" ++ figure ++ ", function=" ++ secondary ++ ")"

/-- The symbol where there is one, otherwise the parts. -/
def shown (c : Chord) : String :=
  match c.symbol with
  | .ok s => String.ofList s
  | .error _ => c.parts

end Chord

end ChordSymbols
