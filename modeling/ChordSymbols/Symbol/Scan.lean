import ChordSymbols.Symbol.Error

/-!
# Scanning a chord symbol

A symbol is cut into single letters and maximal runs of digits; slashes only
part two runs and leave no token. A run of digits gives a number for its first
digit and one token for all digits that follow. The first character outside the
alphabet is an error, and so is a symbol without tokens.
-/

namespace ChordSymbols

/-- The tokens of a maximal run of digits. -/
def runTokens : Text → List Token
  | [] => []
  | [d] => [.number d]
  | d :: ds => [.number d, .further ds]

/-- Scans from the character at `i` on: the run of digits in front, and the tokens after it. -/
def scan : Nat → Text → Except SymbolError (Text × List Token)
  | _, [] => .ok ([], [])
  | i, c :: cs =>
    match classify c with
    | .other => .error (.invalidCharacter c i)
    | .digit => (scan (i + 1) cs).map fun (run, ts) => (c :: run, ts)
    | .letter => (scan (i + 1) cs).map fun (run, ts) => ([], .letter c :: (runTokens run ++ ts))
    | .slash => (scan (i + 1) cs).map fun (run, ts) => ([], runTokens run ++ ts)

def tokenize (symbol : Text) : Except SymbolError (List Token) := do
  let (run, ts) ← scan 0 symbol
  match runTokens run ++ ts with
  | [] => .error (.noTokens symbol)
  | tokens => .ok tokens

end ChordSymbols
