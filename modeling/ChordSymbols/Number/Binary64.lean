/-!
# Binary64 numbers

Real quantities are binary64 numbers held exactly, as a sign and `m · 2^q`.
Every operation is the exact ratio of two naturals, rounded once to the nearest
number of the format, a tie going to the even neighbour. There is one value for
everything that is not a number. Nothing here rests on machine arithmetic.
-/

namespace ChordSymbols

inductive Binary64 where
  | finite (negative : Bool) (m : Nat) (q : Int)
  | infinite (negative : Bool)
  | notANumber
deriving DecidableEq, Repr

/-- A power of two; one for a negative exponent. -/
def twoTo (e : Int) : Nat := Nat.pow 2 e.toNat

/-- A power of ten; one for a negative exponent. -/
def tenTo (e : Int) : Nat := Nat.pow 10 e.toNat

/-- The natural nearest to a ratio; halfway, the even neighbour. -/
def nearest (num den : Nat) : Nat :=
  let k := num / den
  let r := num % den
  if 2 * r < den then k else if den < 2 * r then k + 1 else k + k % 2

/-- The exponent `e` with `2^e ≤ num / den < 2^(e+1)`, for a positive ratio. -/
def binaryExponent (num den : Nat) : Int :=
  let e : Int := (Nat.log2 num : Int) - (Nat.log2 den : Int)
  if den * twoTo e ≤ num * twoTo (-e) then e else e - 1

namespace Binary64

def zero (negative : Bool) : Binary64 := .finite negative 0 (-1074)

/-- The binary64 number nearest to a ratio. -/
def ofRatio (negative : Bool) (num den : Nat) : Binary64 :=
  if num = 0 then zero negative
  else
    let q := max (binaryExponent num den - 52) (-1074)
    let m := nearest (num * twoTo (-q)) (den * twoTo q)
    let (m, q) := if m = twoTo 53 then (twoTo 52, q + 1) else (m, q)
    if 971 < q then .infinite negative else .finite negative m q

def ofInt (n : Int) : Binary64 :=
  ofRatio (n < 0) n.natAbs 1

/-- The number nearest to `digits · 10^exp`. -/
def ofDecimal (negative : Bool) (digits : Nat) (exp : Int) : Binary64 :=
  ofRatio negative (digits * tenTo exp) (tenTo (-exp))

def mul : Binary64 → Binary64 → Binary64
  | .notANumber, _ => .notANumber
  | _, .notANumber => .notANumber
  | .infinite s, .infinite t => .infinite (s != t)
  | .infinite s, .finite t m _ => if m = 0 then .notANumber else .infinite (s != t)
  | .finite s m _, .infinite t => if m = 0 then .notANumber else .infinite (s != t)
  | .finite s m q, .finite t n r =>
    ofRatio (s != t) (m * n * twoTo (q + r)) (twoTo (-(q + r)))

/-- The quotient; a divisor of zero gives an infinity, or no number for zero by zero. -/
def div : Binary64 → Binary64 → Binary64
  | .notANumber, _ => .notANumber
  | _, .notANumber => .notANumber
  | .infinite _, .infinite _ => .notANumber
  | .infinite s, .finite t _ _ => .infinite (s != t)
  | .finite s _ _, .infinite t => zero (s != t)
  | .finite s m q, .finite t n r =>
    if n = 0 then (if m = 0 then .notANumber else .infinite (s != t))
    else ofRatio (s != t) (m * twoTo (q - r)) (n * twoTo (r - q))

def isZero : Binary64 → Bool
  | .finite _ m _ => m = 0
  | _ => false

/-- At most zero. What is not a number is not. -/
def nonPositive : Binary64 → Bool
  | .finite s m _ => s || m = 0
  | .infinite s => s
  | .notANumber => false

end Binary64

end ChordSymbols
