import ChordSymbols.Harmony.Mode
import ChordSymbols.Harmony.Marker
import ChordSymbols.Harmony.PitchClass
import ChordSymbols.Text.Integer

/-!
# Chords and their notes

A chord names a mode, a degree and its markers; its notes are derived from them
on demand, as semitone offsets from an implied tonic. In a key the offsets
become pitch classes, and in an octave they become notes in close position: each
note is the lowest one of its class above the note before it.
-/

namespace ChordSymbols

structure Chord where
  mode : Mode
  degree : Degree
  figure : Option Figure := none
  secondary : Option Secondary := none
deriving DecidableEq, Repr

/-- Root, third and fifth as steps of a scale. -/
def triad : List Nat := [0, 2, 4]

/-- A note outside the range 0 to 127, and the octave that was asked for. -/
structure NoteError where
  note : Int
  octave : Int
deriving DecidableEq, Repr

def NoteError.message (e : NoteError) : String :=
  showing [e.note, e.octave]
    ("MIDI note must be 0-127, got " ++ toString e.note ++ " (octave " ++ toString e.octave ++ ")")

def isNote (n : Int) : Bool := 0 ≤ n ∧ n ≤ 127

/-- The lowest note above `below` that lies whole octaves above `note`, or `note` itself. -/
def raiseAbove (below note : Int) : Int :=
  if note ≤ below then note + 12 * ((below - note) / 12 + 1) else note

/-- Stacks offsets over a base, each raised above the note before it. -/
def stack (base : Int) : Option Int → List Nat → List Int
  | _, [] => []
  | none, o :: os => (base + o) :: stack base (some (base + o)) os
  | some below, o :: os =>
    let note := raiseAbove below (base + o)
    note :: stack base (some note) os

namespace Chord

def isApplied (c : Chord) : Bool := c.secondary.isSome

/-- The scale steps that sound: the triad and what the figure adds. -/
def sounding (c : Chord) : List Nat :=
  triad ++ (c.figure.bind Figure.addedStep?).toList

/-- Semitone offsets in the order root, third, fifth, seventh. -/
def offsets (c : Chord) : List Nat :=
  c.sounding.map fun i => c.mode.step (i + c.degree.root)

def pitchClasses (c : Chord) (tonic : PitchClass) : List PitchClass :=
  c.offsets.map fun o : Nat => tonic.transpose o

/-- The notes in close position, whether or not they lie in the range of notes. -/
def closePosition (c : Chord) (tonic : PitchClass) (octave : Int) : List Int :=
  stack (tonic.noteNumber octave) none c.offsets

def voicing (c : Chord) (tonic : PitchClass) (octave : Int) : Except NoteError (List Int) :=
  let notes := c.closePosition tonic octave
  match notes.find? (!isNote ·) with
  | some n => .error ⟨n, octave⟩
  | none => .ok notes

end Chord

/-- A chord in a key: its pitch classes, and its notes in an octave. -/
structure Realization where
  classes : List PitchClass
  notes : Except NoteError (List Int)

def Chord.realize (c : Chord) (tonic : PitchClass) (octave : Int) : Realization :=
  ⟨c.pitchClasses tonic, c.voicing tonic octave⟩

end ChordSymbols
