import ChordSymbols.Text.Integer

/-!
# Note events

A note event is a note with its loudness, its channel, and its start and length
in ticks. The type holds the ranges of the format; building an event from plain
integers reports the first one out of range, in the order pitch, velocity,
channel, start, duration.
-/

namespace ChordSymbols

structure NoteEvent where
  pitch : Fin 128
  start : Nat
  duration : Nat
  velocity : Fin 128
  channel : Fin 16
deriving DecidableEq, Repr

inductive EventError where
  | pitch (n : Int)
  | velocity (n : Int)
  | channel (n : Int)
  | start (n : Int)
  | duration (n : Int)
deriving DecidableEq, Repr

def EventError.message : EventError → String
  | .pitch n => showing [n] ("Pitch must be 0-127, got " ++ toString n)
  | .velocity n => showing [n] ("Velocity must be 0-127, got " ++ toString n)
  | .channel n => showing [n] ("Channel must be 0-15, got " ++ toString n)
  | .start n => showing [n] ("Start ticks must be >= 0, got " ++ toString n)
  | .duration n => showing [n] ("Duration ticks must be >= 0, got " ++ toString n)

/-- The natural below a bound that an integer is, if it is one. -/
def below? (bound : Nat) (n : Int) : Option (Fin bound) :=
  if h : 0 ≤ n ∧ n < bound then some ⟨n.toNat, by omega⟩ else none

theorem below?_eq_some_iff {bound : Nat} {n : Int} {k : Fin bound} :
    below? bound n = some k ↔ n = k.val := by
  unfold below?
  constructor
  · intro h
    split at h
    · injection h with h
      have hv : n.toNat = k.val := congrArg Fin.val h
      omega
    · contradiction
  · intro h
    have hk : k.val < bound := k.isLt
    have range : 0 ≤ n ∧ n < bound := by omega
    rw [dif_pos range]
    congr
    omega

namespace NoteEvent

/-- The tick at which an event stops sounding. -/
def stop (e : NoteEvent) : Nat := e.start + e.duration

def ofInts (pitch start duration velocity channel : Int) : Except EventError NoteEvent :=
  match below? 128 pitch, below? 128 velocity, below? 16 channel with
  | none, _, _ => .error (.pitch pitch)
  | _, none, _ => .error (.velocity velocity)
  | _, _, none => .error (.channel channel)
  | some p, some v, some c =>
    if start < 0 then .error (.start start)
    else if duration < 0 then .error (.duration duration)
    else .ok ⟨p, start.toNat, duration.toNat, v, c⟩

end NoteEvent

end ChordSymbols
