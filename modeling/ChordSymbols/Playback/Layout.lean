import ChordSymbols.Harmony.Chord
import ChordSymbols.Playback.Track

/-!
# Laying out a progression

The chords of a progression follow one another as blocks of equal length, each
starting where the one before it stops. Length and loudness are quantities; the
fraction of a tick or of a velocity is cut off, and a velocity is brought into
its range. What can fail fails in playing order.
-/

namespace ChordSymbols

/-- How a progression is played; loudness runs from 0 to 1. -/
structure Setting where
  octave : Int := 4
  beats : Quantity := .whole 4
  loudness : Quantity := .real (Binary64.ofRatio false 4 5)
  channel : Int := 0
  ticksPerBeat : Int := 480
deriving DecidableEq, Repr

def defaultTicksPerBeat : Int := ({} : Setting).ticksPerBeat
def defaultChannel : Int := ({} : Setting).channel

inductive PlaybackError where
  | beats (q : Quantity)
  | arithmetic (cause : ArithmeticError)
  | note (cause : NoteError)
  | event (cause : EventError)
  | track (cause : TrackError)
deriving DecidableEq, Repr

def PlaybackError.message : PlaybackError → String
  | .beats q => q.shownIn fun beats => "Beats per chord must be > 0, got " ++ beats
  | .arithmetic e => e.message
  | .note e => e.message
  | .event e => e.message
  | .track e => e.message

def beatTicks (beats : Quantity) (ticksPerBeat : Int) : Except ArithmeticError Int :=
  beats.timesWhole ticksPerBeat

def velocityOf (loudness : Quantity) : Except ArithmeticError Int :=
  (loudness.timesWhole 127).map fun v => max 0 (min 127 v)

/-- The events of one chord. -/
def chordEvents (s : Setting) (tonic : PitchClass) (start duration velocity : Int) (c : Chord) :
    Except PlaybackError (List NoteEvent) := do
  let notes ← (c.voicing tonic s.octave).mapError .note
  notes.mapM fun n => (NoteEvent.ofInts n start duration velocity s.channel).mapError .event

/-- The events of chords in a row, from place `i` on. -/
def eventsFrom (s : Setting) (tonic : PitchClass) (duration velocity : Int) :
    Nat → List Chord → Except PlaybackError (List NoteEvent)
  | _, [] => .ok []
  | i, c :: cs => do
    let now ← chordEvents s tonic (i * duration) duration velocity c
    let later ← eventsFrom s tonic duration velocity (i + 1) cs
    return now ++ later

def progressionEvents (s : Setting) (tonic : PitchClass) (chords : List Chord) :
    Except PlaybackError (List NoteEvent) :=
  if s.beats.nonPositive then .error (.beats s.beats)
  else do
    let duration ← (beatTicks s.beats s.ticksPerBeat).mapError .arithmetic
    let velocity ← (velocityOf s.loudness).mapError .arithmetic
    eventsFrom s tonic duration velocity 0 chords

/-- The track of a progression. -/
def progressionTrack (s : Setting) (beatsPerMinute : Quantity) (tonic : PitchClass)
    (chords : List Chord) : Except PlaybackError Track := do
  let events ← progressionEvents s tonic chords
  (Track.ofEvents beatsPerMinute events).mapError .track

end ChordSymbols
