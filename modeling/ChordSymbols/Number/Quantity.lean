import ChordSymbols.Number.Decimal
import ChordSymbols.Text.Integer

/-!
# Quantities

Lengths in beats, loudness and tempo are given as whole numbers or as binary64
numbers. Whole numbers stay exact; a product or quotient with a binary64 number
is rounded once. Where a whole number is needed the fraction is cut off toward
zero, which fails for the values that are not finite.
-/

namespace ChordSymbols

inductive Quantity where
  | whole (n : Int)
  | real (x : Binary64)
deriving DecidableEq, Repr

inductive ArithmeticError where
  | divisionByZero (real : Bool)
  | infiniteWhole
  | notANumberWhole
  | wholeTooLarge
deriving DecidableEq, Repr

def ArithmeticError.message : ArithmeticError → String
  | .divisionByZero false => "division by zero"
  | .divisionByZero true => "float division by zero"
  | .infiniteWhole => "cannot convert float infinity to integer"
  | .notANumberWhole => "cannot convert float NaN to integer"
  | .wholeTooLarge => "int too large to convert to float"

namespace Binary64

/-- The whole part: the fraction is cut off toward zero. -/
def toWhole : Binary64 → Except ArithmeticError Int
  | .notANumber => .error .notANumberWhole
  | .infinite _ => .error .infiniteWhole
  | .finite s m q =>
    let size : Nat := m * twoTo q / twoTo (-q)
    .ok (if s then -(size : Int) else size)

/-- Whether a number is finite and has no fraction. -/
def isWhole : Binary64 → Bool
  | .finite _ m q => m % twoTo (-q) = 0
  | _ => false

/-- The binary64 number nearest to a whole one, where there is a finite one. -/
def ofWhole (n : Int) : Except ArithmeticError Binary64 :=
  match ofInt n with
  | .infinite _ => .error .wholeTooLarge
  | x => .ok x

end Binary64

namespace Quantity

def text : Quantity → String
  | .whole n => toString n
  | .real x => String.ofList x.text

/-- A message that shows a quantity. A whole number may have too many digits; a binary64 number
never has. -/
def shownIn (q : Quantity) (message : String → String) : String :=
  match q with
  | .whole n => showing [n] (message q.text)
  | .real _ => message q.text

def nonPositive : Quantity → Bool
  | .whole n => n ≤ 0
  | .real x => x.nonPositive

/-- The whole part of a multiple. -/
def timesWhole (q : Quantity) (n : Int) : Except ArithmeticError Int :=
  match q with
  | .whole k => .ok (k * n)
  | .real x => do (x.mul (← Binary64.ofWhole n)).toWhole

/-- The whole part of a whole number divided by a quantity. -/
def dividing (n : Nat) : Quantity → Except ArithmeticError Int
  | .whole k =>
    if k = 0 then .error (.divisionByZero false)
    else (Binary64.ofRatio (k < 0) n k.natAbs).toWhole
  | .real x =>
    if x.isZero then .error (.divisionByZero true)
    else do ((← Binary64.ofWhole n).div x).toWhole

end Quantity

end ChordSymbols
