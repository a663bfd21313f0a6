import ChordSymbols.Harmony.Chord
import ChordSymbols.Text.Quoted

/-!
# Chords from named parts

A chord can be put together without a symbol, from the name of a mode, a number
and two codes. The parts are looked up in this order, and the first that is no
member of its set is reported.
-/

namespace ChordSymbols

/-- A text or a number that is not in a closed set, and the name of the set. -/
inductive NotMember where
  | text (set : String) (t : Text)
  | whole (set : String) (n : Int)
deriving DecidableEq, Repr

def NotMember.message : NotMember → String
  | .text set t => quoted t ++ " is not a valid " ++ set
  | .whole set n => showing [n] (toString n ++ " is not a valid " ++ set)

/-- A member found by a look-up, or the report that there is none. -/
def memberOr {α : Type} (e : NotMember) : Option α → Except NotMember α
  | some a => .ok a
  | none => .error e

def Degree.member (n : Int) : Except NotMember Degree :=
  memberOr (.whole "Numeral" n) (Degree.ofNumber? n)

def PitchClass.member (n : Int) : Except NotMember PitchClass :=
  memberOr (.whole "PitchClass" n) (PitchClass.ofNumber? n)

structure ChordParts where
  mode : Text
  degree : Int
  figure : Option Text := none
  secondary : Option Text := none
deriving DecidableEq, Repr

def ChordParts.chord (p : ChordParts) : Except NotMember Chord := do
  let mode ← memberOr (.text "Mode" p.mode) (Mode.ofName? p.mode)
  let degree ← Degree.member p.degree
  let figure ← p.figure.mapM fun t => memberOr (.text "Inversion" t) (Figure.ofCode? t)
  let secondary ← p.secondary.mapM fun t => memberOr (.text "Function" t) (Secondary.ofCode? t)
  return ⟨mode, degree, figure, secondary⟩

end ChordSymbols
