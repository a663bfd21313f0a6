import ChordSymbols.Symbol.Token

/-!
# What can be wrong with a chord symbol

Five causes, from the character level to the vocabularies, each with the data
that a caller needs to point at the fault. The wording is in one place.
-/

namespace ChordSymbols

/-- The closed vocabularies that the text of a token is looked up in. -/
inductive Vocabulary where
  | mode | numeral | inversion | function
deriving DecidableEq, Repr

def Vocabulary.all : List Vocabulary := [.mode, .numeral, .inversion, .function]

def Vocabulary.name : Vocabulary → String
  | .mode => "mode" | .numeral => "numeral" | .inversion => "inversion" | .function => "function"

inductive SymbolError where
  | invalidCharacter (c : Char) (index : Nat)
  | noTokens (symbol : Text)
  | tokenCount (tokens : List Token)
  | unexpectedPattern (tokens : List Token)
  | unresolved (vocabulary : Vocabulary) (code : Text)
deriving DecidableEq, Repr

namespace SymbolError

def message : SymbolError → String
  | .invalidCharacter c i =>
    "Invalid character " ++ quoted [c] ++ " at index " ++ toString i ++ " in chord symbol."
  | .noTokens s => "Chord symbol " ++ quoted s ++ " produced no tokens."
  | .tokenCount ts =>
    "Invalid token count " ++ toString ts.length ++ "; chord symbols have 1-3 tokens."
  | .unexpectedPattern ts =>
    "Unexpected token pattern: " ++ String.intercalate ", " (ts.map Token.shown) ++ "."
  | .unresolved v code => "Unrecognized " ++ v.name ++ " code " ++ quoted code ++ "."

/-- The name under which a fault is reported to a caller. -/
def kindName : SymbolError → String
  | .invalidCharacter .. => "InvalidCharacterError"
  | .noTokens _ => "EmptyTokenSequenceError"
  | .tokenCount _ => "InvalidTokenCountError"
  | .unexpectedPattern _ => "UnexpectedTokenPatternError"
  | .unresolved .. => "UnresolvedCodeError"

end SymbolError

end ChordSymbols
