import ChordSymbols.Document.Fault
import ChordSymbols.Text.Integer
import ChordSymbols.Value

/-!
# Reading a tempo

A tempo is a whole number of beats a minute within fixed bounds. It may be given
as a truth value, as a real number without a fraction, or as a text: blanks
around it, a sign, leading zeros, single underscores between digits and a
fraction of zeros only are all allowed, and a minus sign may also stand after
leading zeros. A number with too many digits is not read, and is reported as too
large where the text starts with it; so is a real number past 63 bits.
-/

namespace ChordSymbols

/-- What follows a run of zeros and underscores that ends in `last`. -/
def afterZeros (last : Char) : Text → Option Text
  | [] => some [last]
  | c :: r =>
    if c = '0' ∨ c = '_' then afterZeros c r
    else if c.isDigit ∨ c = '-' then some (c :: r)
    else if c = '.' then some (last :: c :: r)
    else none

/-- Drops leading zeros, but not the last digit before a point or the end. -/
def withoutZeros? : Text → Option Text
  | [] => none
  | c :: r =>
    if c = '0' then afterZeros c r
    else if c.isDigit then some (c :: r)
    else none

/-- Drops a plus sign in front, and the leading zeros after a sign or none. -/
def significant? : Text → Option Text
  | '+' :: r => withoutZeros? r
  | '-' :: r => (withoutZeros? r).map ('-' :: ·)
  | r => withoutZeros? r

/-- Drops a fraction that is zeros only. -/
def withoutZeroFraction (t : Text) : Text :=
  match t.dropWhile (· ≠ '.') with
  | '.' :: zeros => if zeros ≠ [] ∧ zeros.all (· = '0') then t.takeWhile (· ≠ '.') else t
  | _ => t

/-- Whether every underscore stands between two other characters. -/
def underscoresApart : Text → Bool
  | [] => true
  | ['_'] => false
  | '_' :: '_' :: _ => false
  | _ :: r => underscoresApart r

/-- Drops the underscores, if each stands between two other characters. -/
def withoutUnderscores (t : Text) : Text :=
  if t.head? ≠ some '_' ∧ underscoresApart t then t.filter (· ≠ '_') else t

/-- At most `maxDigits` digits without a leading zero, or a single zero. -/
def plainDigits? (t : Text) : Option Nat :=
  if t ≠ [] ∧ t.length ≤ maxDigits ∧ t.all Char.isDigit ∧ (t.head? ≠ some '0' ∨ t.length = 1) then
    some (t.foldl (fun n c => 10 * n + (c.toNat - 48)) 0)
  else none

def signedDigits? : Text → Option Int
  | '-' :: r => (plainDigits? r).map fun n => -(n : Int)
  | r => (plainDigits? r).map fun n => (n : Int)

/-- The whole number that a text is, if it is one. -/
def wholeOfText? (t : Text) : Option Int := do
  let r ← significant? (trim isWhiteSpace t)
  signedDigits? (withoutUnderscores (withoutZeroFraction r))

/-- Whether more than `maxDigits` digits come first, whatever follows them; a zero in front ends
the count. -/
def startsTooLong (t : Text) : Bool :=
  t.head? ≠ some '0' && maxDigits < (t.takeWhile Char.isDigit).length

/-- Too many digits are told from other faults only at the start of the text or after a minus sign
there; past blanks, a plus sign, zeros or underscores they make the text unreadable. -/
def isTooLong : Text → Bool
  | '-' :: r => startsTooLong r
  | r => startsTooLong r

def wholeOfText (t : Text) : Except Fault Int :=
  if isTooLong t then .error .tooLarge
  else
    match wholeOfText? t with
    | some n => .ok n
    | none => .error .unreadableWhole

/-- A real number without a fraction, as a whole one; it is read up to 63 bits. -/
def wholeOfReal (x : Binary64) : Except Fault Int :=
  match x.toWhole with
  | .error _ => .error .notFinite
  | .ok n =>
    if !x.isWhole then .error .fraction
    else if n.natAbs < twoTo 63 then .ok n
    else .error .tooLarge

def wholeOfValue : Value → Except Fault Int
  | .whole n => .ok n
  | .bool b => .ok (if b then 1 else 0)
  | .real x => wholeOfReal x
  | .text t => wholeOfText t
  | .null | .list _ | .record _ => .error .notWhole

def tempoOfValue (v : Value) : Except Fault Int := do
  let n ← wholeOfValue v
  if n < slowestTempo then .error .tooSlow
  else if fastestTempo < n then .error .tooFast
  else return n

end ChordSymbols
