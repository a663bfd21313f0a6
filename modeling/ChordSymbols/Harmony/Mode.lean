import ChordSymbols.Text.Basic

/-!
# Modes and scale degrees

The seven modes are the rotations of the major scale. Their step tables are not
rebased: every entry stays a semitone offset from the one implied tonic, so all
chords of a progression share a reference pitch. Each scale degree has the mode
that starts on it as its default; Ionian, the default of the first degree, is
the one mode without a letter.
-/

namespace ChordSymbols

inductive Mode where
  | ionian | dorian | phrygian | lydian | mixolydian | aeolian | locrian
deriving DecidableEq, Repr

inductive Degree where
  | one | two | three | four | five | six | seven
deriving DecidableEq, Repr

/-- Semitone offsets of the major scale. -/
def majorSteps : List Nat := [0, 2, 4, 5, 7, 9, 11]

namespace Mode

def all : List Mode := [.ionian, .dorian, .phrygian, .lydian, .mixolydian, .aeolian, .locrian]

def rotation : Mode → Nat
  | .ionian => 0 | .dorian => 1 | .phrygian => 2 | .lydian => 3
  | .mixolydian => 4 | .aeolian => 5 | .locrian => 6

/-- The seven offsets of a mode, from its own first step on. -/
def steps (m : Mode) : List Nat :=
  majorSteps.rotateLeft m.rotation

/-- The offset of any step, counted on round the scale. -/
def step (m : Mode) (i : Nat) : Nat :=
  m.steps.getD (i % 7) 0

def letter? : Mode → Option Char
  | .ionian => none
  | .dorian => some 'D'
  | .phrygian => some 'Y'
  | .lydian => some 'L'
  | .mixolydian => some 'M'
  | .aeolian => some 'b'
  | .locrian => some 'C'

def name : Mode → String
  | .ionian => "ionian" | .dorian => "dorian" | .phrygian => "phrygian" | .lydian => "lydian"
  | .mixolydian => "mixolydian" | .aeolian => "aeolian" | .locrian => "locrian"

def label (m : Mode) : String := m.name.toUpper

def ofName? (t : Text) : Option Mode :=
  all.find? fun m => m.name.toList = t

end Mode

namespace Degree

def all : List Degree := [.one, .two, .three, .four, .five, .six, .seven]

def number : Degree → Nat
  | .one => 1 | .two => 2 | .three => 3 | .four => 4 | .five => 5 | .six => 6 | .seven => 7

/-- The place of a degree in a step table. -/
def root (d : Degree) : Nat := d.number - 1

def digit : Degree → Char
  | .one => '1' | .two => '2' | .three => '3' | .four => '4'
  | .five => '5' | .six => '6' | .seven => '7'

def label : Degree → String
  | .one => "ONE" | .two => "TWO" | .three => "THREE" | .four => "FOUR"
  | .five => "FIVE" | .six => "SIX" | .seven => "SEVEN"

/-- The mode that starts on a degree of the major scale. -/
def defaultMode : Degree → Mode
  | .one => .ionian | .two => .dorian | .three => .phrygian | .four => .lydian
  | .five => .mixolydian | .six => .aeolian | .seven => .locrian

def ofNumber? (n : Int) : Option Degree :=
  all.find? fun d => (d.number : Int) = n

end Degree

theorem Mode.step_lt (m : Mode) (i : Nat) : m.step i < 12 := by
  have h : ∀ j < 7, m.steps.getD j 0 < 12 := by cases m <;> decide
  exact h (i % 7) (Nat.mod_lt _ (by decide))

end ChordSymbols
