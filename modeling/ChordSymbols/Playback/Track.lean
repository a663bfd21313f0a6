import ChordSymbols.Number.Quantity
import ChordSymbols.Playback.Event

/-!
# Tracks

A track is a list of messages, each with the ticks since the message before it.
Events become a track by writing down when every note starts and stops, sorting
these cues by time, stops before starts at the same tick so that a repeated note
sounds again, and taking differences. The sort is stable: cues that agree in time
and kind keep the order of their events.
-/

namespace ChordSymbols

/-- Tempo is the length of a beat in microseconds. -/
inductive Message where
  | tempo (microseconds : Fin 0x1000000)
  | noteOn (channel : Fin 16) (pitch velocity : Fin 128)
  | noteOff (channel : Fin 16) (pitch velocity : Fin 128)
  | endOfTrack
deriving DecidableEq, Repr

structure Timed where
  delta : Nat
  message : Message
deriving DecidableEq, Repr

abbrev Track := List Timed

/-- A message at an absolute tick. -/
structure Cue where
  time : Nat
  message : Message
deriving DecidableEq, Repr

def Message.isNoteOff : Message → Bool
  | .noteOff .. => true
  | _ => false

namespace Cue

/-- Earlier, or at the same tick and not a start before a stop. -/
def notAfter (a b : Cue) : Bool :=
  a.time < b.time || (a.time = b.time && (a.message.isNoteOff || !b.message.isNoteOff))

theorem notAfter_trans (a b c : Cue) (hab : a.notAfter b) (hbc : b.notAfter c) :
    a.notAfter c := by
  simp only [notAfter, Bool.or_eq_true, Bool.and_eq_true, decide_eq_true_eq] at *
  rcases hab with hab | ⟨hab, ka⟩ <;> rcases hbc with hbc | ⟨hbc, kb⟩
  · exact .inl (by omega)
  · exact .inl (by omega)
  · exact .inl (by omega)
  · refine .inr ⟨by omega, ?_⟩
    revert ka kb
    cases a.message.isNoteOff <;> cases b.message.isNoteOff <;> simp

theorem notAfter_total (a b : Cue) : a.notAfter b || b.notAfter a := by
  simp only [notAfter, Bool.or_eq_true, Bool.and_eq_true, decide_eq_true_eq]
  rcases Nat.lt_trichotomy a.time b.time with h | h | h
  · exact .inl (.inl h)
  · cases ha : a.message.isNoteOff <;> cases hb : b.message.isNoteOff <;> simp [h]
  · exact .inr (.inl h)

end Cue

def NoteEvent.cues (e : NoteEvent) : List Cue :=
  [⟨e.start, .noteOn e.channel e.pitch e.velocity⟩, ⟨e.stop, .noteOff e.channel e.pitch 0⟩]

/-- The cues of all events in playing order. -/
def cueList (events : List NoteEvent) : List Cue :=
  (events.flatMap NoteEvent.cues).mergeSort Cue.notAfter

theorem cueList_perm (events : List NoteEvent) :
    (cueList events).Perm (events.flatMap NoteEvent.cues) :=
  List.mergeSort_perm _ _

theorem cueList_ordered (events : List NoteEvent) :
    (cueList events).Pairwise fun a b => a.notAfter b = true :=
  List.pairwise_mergeSort Cue.notAfter_trans Cue.notAfter_total _

/-- Differences of times, from `now` on; the times ascend, so nothing is cut off. -/
def deltas : Nat → List Cue → Track
  | _, [] => []
  | now, c :: cs => ⟨c.time - now, c.message⟩ :: deltas c.time cs

inductive TrackError where
  | arithmetic (cause : ArithmeticError)
  | tempo
deriving DecidableEq, Repr

def TrackError.message : TrackError → String
  | .arithmetic e => e.message
  | .tempo => "attribute must be in range 0..16777215"

def microsecondsPerMinute : Nat := 60000000

/-- The length of a beat, cut to whole microseconds. -/
def beatLength (beatsPerMinute : Quantity) : Except TrackError (Fin 0x1000000) :=
  match beatsPerMinute.dividing microsecondsPerMinute with
  | .error e => .error (.arithmetic e)
  | .ok n =>
    match below? 0x1000000 n with
    | some t => .ok t
    | none => .error .tempo

namespace Track

def ofEvents (beatsPerMinute : Quantity) (events : List NoteEvent) : Except TrackError Track := do
  let t ← beatLength beatsPerMinute
  return ⟨0, .tempo t⟩ :: (deltas 0 (cueList events) ++ [⟨0, .endOfTrack⟩])

end Track

end ChordSymbols
