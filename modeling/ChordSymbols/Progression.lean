import ChordSymbols.Symbol.Compile

/-!
# Progressions

A progression is a text of chord symbols between commas; blanks around a symbol
and empty places are ignored. Compiling goes through the symbols in order. A
strict compilation stops at the first symbol that does not compile; a lenient
one leaves it out, keeps its place, its text and its fault, writes a warning,
and goes on.
-/

namespace ChordSymbols

/-- The symbols of a progression. -/
def splitProgression (t : Text) : List Text :=
  ((pieces ',' t).map strip).filter (· ≠ [])

def joinSymbols (symbols : List Text) : Text :=
  [','].intercalate symbols

/-- A symbol that was left out, with its place among the symbols. -/
structure Skipped where
  index : Nat
  symbol : Text
  cause : SymbolError
deriving DecidableEq, Repr

structure Compiled where
  chords : List Chord := []
  symbols : List Text := []
  skipped : List Skipped := []
deriving DecidableEq, Repr

namespace Compiled

/-- Whether every symbol compiled. -/
def complete (r : Compiled) : Bool := r.skipped.isEmpty

def withChord (c : Chord) (symbol : Text) (r : Compiled) : Compiled :=
  { r with chords := c :: r.chords, symbols := symbol :: r.symbols }

def withSkipped (s : Skipped) (r : Compiled) : Compiled :=
  { r with skipped := s :: r.skipped }

/-- Places are kept as they are. -/
def append (r s : Compiled) : Compiled :=
  ⟨r.chords ++ s.chords, r.symbols ++ s.symbols, r.skipped ++ s.skipped⟩

end Compiled

def skipMessage (s : Skipped) : String :=
  "Skipping chord symbol " ++ quoted s.symbol ++ " at position " ++ toString s.index ++ ": " ++
    s.cause.message

/-- Compiles the symbols from place `i` on. -/
def compileFrom (strict : Bool) : Nat → List Text → Run SymbolError Compiled
  | _, [] => return {}
  | i, symbol :: rest => do
    match ← (compileSymbol symbol).settle with
    | .ok c => return (← compileFrom strict (i + 1) rest).withChord c symbol
    | .error e =>
      if strict then Run.fail e
      else
        let s : Skipped := ⟨i, symbol, e⟩
        Run.note .warning .progression (skipMessage s)
        return (← compileFrom strict (i + 1) rest).withSkipped s

def compileProgression (strict : Bool) (t : Text) : Run SymbolError Compiled :=
  compileFrom strict 0 (splitProgression t)

/-- The canonical text of a list of chords. -/
def formatProgression (chords : List Chord) : Except Unspellable Text :=
  (chords.mapM Chord.symbol).map joinSymbols

/-- Adds one symbol at the end, if it compiles; what was there is only tidied. -/
def appendSymbol (progression symbol : Text) : Run SymbolError Text := do
  let s := strip symbol
  let _ ← compileSymbol s
  return joinSymbols (splitProgression progression ++ [s])

end ChordSymbols
