import ChordSymbols.Journal
import ChordSymbols.Symbol.Parse
import ChordSymbols.Symbol.Spelling

/-!
# Compiling a symbol, with its records

A symbol that scans leaves a record of its tokens, and one that parses leaves a
second record of its chord. A symbol that fails leaves no record of the failure:
that is for the caller to decide.
-/

namespace ChordSymbols

def tokenizeRecorded (symbol : Text) : Run SymbolError (List Token) := do
  let ts ← Run.of (tokenize symbol)
  Run.note .debug .scanner ("Tokenized " ++ quoted symbol ++ " -> " ++ Token.shownList ts)
  return ts

def compileSymbol (symbol : Text) : Run SymbolError Chord := do
  let ts ← tokenizeRecorded symbol
  let c ← Run.of (parseTokens ts)
  Run.note .debug .parser ("Parsed " ++ quoted symbol ++ " -> " ++ c.parts)
  return c

theorem outcome_tokenizeRecorded (symbol : Text) :
    (tokenizeRecorded symbol).outcome = tokenize symbol := by
  unfold tokenizeRecorded
  rw [Run.outcome_bind]
  cases tokenize symbol <;> rfl

theorem outcome_compileSymbol (symbol : Text) :
    (compileSymbol symbol).outcome = parseSymbol symbol := by
  unfold compileSymbol parseSymbol
  rw [Run.outcome_bind, outcome_tokenizeRecorded]
  cases tokenize symbol with
  | error e => rfl
  | ok ts =>
    show (Run.of (parseTokens ts) >>= _).outcome = parseTokens ts
    rw [Run.outcome_bind]
    cases parseTokens ts <;> rfl

end ChordSymbols
