import ChordSymbols.Text.Blank

/-!
# Pitch classes

The twelve classes of pitch, as residues modulo the octave. Each has a name in
sharps, a name in flats, and a plain name that writes a sharp as `s`. Reading
ignores blanks at the ends; sharp and flat names are taken exactly, plain names
in either case, where the long s counts as an s.
-/

namespace ChordSymbols

abbrev PitchClass := Fin 12

namespace PitchClass

def sharpNames : List Text :=
  [['C'], ['C', '#'], ['D'], ['D', '#'], ['E'], ['F'], ['F', '#'], ['G'], ['G', '#'], ['A'],
   ['A', '#'], ['B']]

def flatNames : List Text :=
  [['C'], ['D', 'b'], ['D'], ['E', 'b'], ['E'], ['F'], ['G', 'b'], ['G'], ['A', 'b'], ['A'],
   ['B', 'b'], ['B']]

def plainNames : List Text :=
  [['C'], ['C', 's'], ['D'], ['D', 's'], ['E'], ['F'], ['F', 's'], ['G'], ['G', 's'], ['A'],
   ['A', 's'], ['B']]

def all : List PitchClass := List.finRange 12

def plainName (p : PitchClass) : Text := plainNames.getD p.val []

/-- The name of a class in sharps or in flats. -/
def spell (flats : Bool) (p : PitchClass) : Text :=
  (if flats then flatNames else sharpNames).getD p.val []

/-- The class a number of semitones away, up or down. -/
def transpose (p : PitchClass) (semitones : Int) : PitchClass :=
  ⟨((p.val + semitones) % 12).toNat, by omega⟩

/-- The note number of a class in an octave; the C of octave 4 is 60. -/
def noteNumber (p : PitchClass) (octave : Int) : Int :=
  p.val + (octave + 1) * 12

def ofNumber? (n : Int) : Option PitchClass :=
  if h : 0 ≤ n ∧ n < 12 then some ⟨n.toNat, by omega⟩ else none

def namedIn (names : List Text) (t : Text) : Option PitchClass :=
  all.find? fun p => names.getD p.val [] = t

/-- The capital of a letter of a plain name. -/
def capital (c : Char) : Char :=
  if c = 'ſ' then 'S' else c.toUpper

/-- Reads a class from any of its names. -/
def parse? (name : Text) : Option PitchClass :=
  let t := strip name
  (namedIn sharpNames t).orElse fun _ =>
    (namedIn flatNames t).orElse fun _ =>
      namedIn (plainNames.map (·.map capital)) (t.map capital)

end PitchClass

/-- A name that no pitch class has, without the blanks at its ends. -/
structure UnknownPitch where
  name : Text
deriving DecidableEq, Repr

def UnknownPitch.message (e : UnknownPitch) : String :=
  "Unknown pitch class: " ++ String.ofList e.name

def PitchClass.parse (name : Text) : Except UnknownPitch PitchClass :=
  match parse? name with
  | some p => .ok p
  | none => .error ⟨strip name⟩

end ChordSymbols
