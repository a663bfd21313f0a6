import ChordSymbols.Number.Binary64
import ChordSymbols.Text.Basic

/-!
# Decimal text of binary64 numbers

A number is written with the fewest decimal digits that read back to it, and
among those with the digits nearest to it. From one ten-thousandth up to below
ten to the sixteenth it is written positionally and keeps a point, otherwise
with one leading digit and a signed exponent of at least two digits. Reading
accepts an optional sign, digits with an optional fraction and exponent, and
the three words for the values that are not finite.
-/

namespace ChordSymbols

/-- The number `digits · 10^exp`. -/
structure Decimal where
  digits : Nat
  exp : Int
deriving DecidableEq, Repr

namespace Decimal

/-- The exponent `e` with `10^e ≤ num / den < 10^(e+1)`, for a positive ratio. -/
def leadingExponent (num den : Nat) : Int :=
  let e := binaryExponent num den * 30103 / 100000
  if num * tenTo (-e) < den * tenTo e then e - 1
  else if den * tenTo (e + 1) ≤ num * tenTo (-(e + 1)) then e + 1
  else e

/-- Of two neighbours on a grid, the one nearer to a ratio; halfway, the even one. -/
def closer (num den lower : Nat) : Nat :=
  let twice := 2 * num
  let middle := (2 * lower + 1) * den
  if twice < middle then lower
  else if middle < twice then lower + 1
  else if lower % 2 = 0 then lower else lower + 1

/-- The point of the grid of step `10^g` that reads back to `x`, if a neighbour does. -/
def onGrid? (x : Binary64) (num den : Nat) (g : Int) : Option Decimal :=
  let n := num * tenTo (-g)
  let d := den * tenTo g
  let lower := n / d
  let reads (k : Nat) : Bool := Binary64.ofDecimal false k g = x
  match reads lower, reads (lower + 1) with
  | true, true => some ⟨closer n d lower, g⟩
  | true, false => some ⟨lower, g⟩
  | false, true => some ⟨lower + 1, g⟩
  | false, false => none

/-- Moves trailing zeros of the digits into the exponent. -/
def normal (digits : Nat) (exp : Int) : Decimal :=
  if h : digits ≠ 0 ∧ digits % 10 = 0 then normal (digits / 10) (exp + 1) else ⟨digits, exp⟩
termination_by digits
decreasing_by omega

/-- The fewest digits that read back to `m · 2^q`; seventeen always suffice. -/
def shortest (m : Nat) (q : Int) : Decimal :=
  let num := m * twoTo q
  let den := twoTo (-q)
  let e := leadingExponent num den
  let found := (List.range 17).findSome? fun k : Nat =>
    onGrid? (.finite false m q) num den (e - k)
  match found with
  | some d => normal d.digits d.exp
  | none => normal (num * tenTo (16 - e) / (den * tenTo (e - 16))) (e - 16)

/-- Positional from `10^-4` up to below `10^16`, with an exponent otherwise. -/
def layout (d : Decimal) : Text :=
  let ds := (toString d.digits).toList
  let e := d.exp + (ds.length : Int) - 1
  if -4 ≤ e ∧ e < 0 then
    '0' :: '.' :: List.replicate (-e - 1).toNat '0' ++ ds
  else if 0 ≤ e ∧ e < 16 then
    let whole := (e + 1).toNat
    let shown := ds.take whole ++ List.replicate (whole - ds.length) '0'
    let fraction := ds.drop whole
    shown ++ '.' :: (if fraction = [] then ['0'] else fraction)
  else
    let mantissa := match ds with
      | [] => []
      | [c] => [c]
      | c :: cs => c :: '.' :: cs
    let size := (toString e.natAbs).toList
    mantissa ++ 'e' :: (if e < 0 then '-' else '+') ::
      (if size.length < 2 then '0' :: size else size)

end Decimal

namespace Binary64

def text : Binary64 → Text
  | .notANumber => "nan".toList
  | .infinite s => (if s then "-inf" else "inf").toList
  | .finite s m q =>
    (if s then ['-'] else []) ++
      (if m = 0 then "0.0".toList else (Decimal.shortest m q).layout)

private def digitsOf (t : Text) : Nat :=
  t.foldl (fun n c => 10 * n + (c.toNat - 48)) 0

/-- Reads an unsigned decimal: digits, a fraction, an exponent. -/
def magnitude? (negative : Bool) (t : Text) : Option Binary64 :=
  let whole := t.takeWhile Char.isDigit
  let afterWhole := t.dropWhile Char.isDigit
  let (fraction, rest) := match afterWhole with
    | '.' :: r => (r.takeWhile Char.isDigit, r.dropWhile Char.isDigit)
    | r => ([], r)
  let digits := digitsOf (whole ++ fraction)
  let shift : Int := -(fraction.length : Int)
  if whole ++ fraction = [] then none
  else match rest with
    | [] => some (ofDecimal negative digits shift)
    | 'e' :: '-' :: r =>
      if r ≠ [] ∧ r.all Char.isDigit then some (ofDecimal negative digits (shift - digitsOf r))
      else none
    | 'e' :: '+' :: r =>
      if r ≠ [] ∧ r.all Char.isDigit then some (ofDecimal negative digits (shift + digitsOf r))
      else none
    | 'e' :: r =>
      if r ≠ [] ∧ r.all Char.isDigit then some (ofDecimal negative digits (shift + digitsOf r))
      else none
    | _ => none

/-- Reads a decimal text, or one of the words for the values that are not finite. -/
def read? (t : Text) : Option Binary64 :=
  let (negative, r) := match t with
    | '-' :: r => (true, r)
    | '+' :: r => (false, r)
    | r => (false, r)
  if r = "inf".toList then some (.infinite negative)
  else if r = "nan".toList then some .notANumber
  else magnitude? negative r

end Binary64

end ChordSymbols
