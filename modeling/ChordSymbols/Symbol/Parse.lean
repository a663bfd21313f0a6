import ChordSymbols.Symbol.Scan
import ChordSymbols.Symbol.Code

/-!
# From tokens to a chord

The grammar has six shapes of one to three tokens. With a letter in front, or
with one number, a symbol is simple: letter or default mode, degree, figure.
With a second number it is applied: function, figure, then the degree, always in
the Ionian mode. Among several unknown codes a simple chord reports mode, then
degree, then figure; an applied one degree, then figure, then function.
-/

namespace ChordSymbols

def parseTokens (ts : List Token) : Except SymbolError Chord :=
  if ts.length = 0 ∨ 3 < ts.length then .error (.tokenCount ts)
  else match ts with
    | [⟨.letter, m⟩, ⟨.number, d⟩, ⟨.further, f⟩] => do
      let mode ← resolveMode m
      let degree ← resolveDegree d
      let figure ← resolveFigure f
      return ⟨mode, degree, some figure, none⟩
    | [⟨.number, s⟩, ⟨.further, f⟩, ⟨.number, d⟩] => do
      let degree ← resolveDegree d
      let figure ← resolveFigure f
      let secondary ← resolveSecondary s
      return ⟨.ionian, degree, some figure, some secondary⟩
    | [⟨.letter, m⟩, ⟨.number, d⟩] => do
      let mode ← resolveMode m
      let degree ← resolveDegree d
      return ⟨mode, degree, none, none⟩
    | [⟨.number, d⟩, ⟨.further, f⟩] => do
      let degree ← resolveDegree d
      let figure ← resolveFigure f
      return ⟨degree.defaultMode, degree, some figure, none⟩
    | [⟨.number, s⟩, ⟨.number, d⟩] => do
      let degree ← resolveDegree d
      let secondary ← resolveSecondary s
      return ⟨.ionian, degree, none, some secondary⟩
    | [⟨.number, d⟩] => do
      let degree ← resolveDegree d
      return ⟨degree.defaultMode, degree, none, none⟩
    | _ => .error (.unexpectedPattern ts)

/-- The chord that a symbol spells. -/
def parseSymbol (symbol : Text) : Except SymbolError Chord := do
  parseTokens (← tokenize symbol)

end ChordSymbols
