import ChordSymbols.Proofs.Playback.Timeline

/-!
# Replaying a track

A player keeps a count for each pitch: a start adds one, a stop takes one away.
The counts after a tick depend on which messages are due by then and not on
their order, so that for a built track they count the events that sound at the
tick: those that have started and have not stopped.
-/

namespace ChordSymbols

/-- One message, for the counts of all pitches. -/
def Message.play (m : Message) (counts : Int → Int) : Int → Int :=
  match m with
  | .noteOn _ p _ => fun q => if q = p.val then counts q + 1 else counts q
  | .noteOff _ p _ => fun q => if q = p.val then counts q - 1 else counts q
  | .tempo _ | .endOfTrack => counts

/-- The counts after the messages that are due by a tick, from silence on. -/
def Track.countsAt (track : Track) (t : Nat) : Int → Int :=
  (track.timeline.filter (·.time ≤ t)).foldl (fun counts c => c.message.play counts) fun _ => 0

/-- What one message adds to the number of notes on, among those that are counted. -/
def Message.change (counted : Fin 16 → Fin 128 → Bool) : Message → Int
  | .noteOn c p _ => if counted c p then 1 else 0
  | .noteOff c p _ => if counted c p then -1 else 0
  | .tempo _ | .endOfTrack => 0

/-- Starts less stops. -/
def net (counted : Fin 16 → Fin 128 → Bool) : List Cue → Int
  | [] => 0
  | c :: cs => c.message.change counted + net counted cs

def hasPitch (q : Int) : Fin 16 → Fin 128 → Bool :=
  fun _ p => q = p.val

/-- Whether an event is counted and sounds at a tick. -/
def NoteEvent.sounds (counted : Fin 16 → Fin 128 → Bool) (t : Nat) (e : NoteEvent) : Bool :=
  counted e.channel e.pitch && (e.start ≤ t && t < e.stop)

/-- A message moves the count of a pitch by what it adds to the notes of that pitch. -/
theorem Message.play_eq (m : Message) (counts : Int → Int) (q : Int) :
    m.play counts q = counts q + m.change (hasPitch q) := by
  cases m with
  | noteOn c p v =>
    by_cases same : q = p.val
    · simp [play, change, hasPitch, same]
    · simp [play, change, hasPitch, same]
  | noteOff c p v =>
    by_cases same : q = p.val
    · simp [play, change, hasPitch, same, Int.sub_eq_add_neg]
    · simp [play, change, hasPitch, same]
  | tempo t => simp [play, change]
  | endOfTrack => simp [play, change]

section Counting

variable (counted : Fin 16 → Fin 128 → Bool)

theorem net_nil : net counted [] = 0 := rfl

theorem net_cons (c : Cue) (cs : List Cue) :
    net counted (c :: cs) = c.message.change counted + net counted cs := rfl

theorem net_append (a b : List Cue) : net counted (a ++ b) = net counted a + net counted b := by
  induction a with
  | nil => simp [net_nil]
  | cons c cs ih => rw [List.cons_append, net_cons, net_cons, ih, Int.add_assoc]

theorem net_perm {a b : List Cue} (perm : a.Perm b) : net counted a = net counted b := by
  induction perm with
  | nil => rfl
  | cons c _ ih => rw [net_cons, net_cons, ih]
  | swap c d cs =>
    rw [net_cons, net_cons, net_cons, net_cons]
    omega
  | trans _ _ first second => exact first.trans second

/-- By a tick an event has added its start and, once it is over, taken it back. -/
theorem net_cues (e : NoteEvent) (t : Nat) :
    net counted (e.cues.filter (·.time ≤ t)) = if e.sounds counted t then 1 else 0 := by
  have order : e.start ≤ e.stop := Nat.le_add_right _ _
  by_cases stopped : e.stop ≤ t
  · have started : e.start ≤ t := Nat.le_trans order stopped
    cases c : counted e.channel e.pitch <;>
      simp [NoteEvent.cues, NoteEvent.sounds, net_cons, net_nil, Message.change, started,
        stopped, c]
  · by_cases started : e.start ≤ t
    · cases c : counted e.channel e.pitch <;>
        simp [NoteEvent.cues, NoteEvent.sounds, net_cons, net_nil, Message.change, started,
          stopped, c]
    · simp [NoteEvent.cues, NoteEvent.sounds, net_nil, started, stopped]

theorem net_events (events : List NoteEvent) (t : Nat) :
    net counted ((events.flatMap NoteEvent.cues).filter (·.time ≤ t)) =
      events.countP (NoteEvent.sounds counted t) := by
  induction events with
  | nil => rfl
  | cons e es ih =>
    rw [List.flatMap_cons, List.filter_append, net_append, net_cues, ih, List.countP_cons]
    cases e.sounds counted t <;> simp [Int.add_comm]

/-- What is on after a tick, in a built track, are the events that sound at the tick. -/
theorem net_timeline {tempo : Quantity} {events : List NoteEvent} {track : Track}
    (built : Track.ofEvents tempo events = .ok track) (t : Nat) :
    net counted (track.timeline.filter (·.time ≤ t)) =
      events.countP (NoteEvent.sounds counted t) := by
  obtain ⟨beat, stop, same⟩ := timeline_ofEvents built
  have perm := (cueList_perm events).filter (·.time ≤ t)
  rw [← net_events, ← net_perm counted perm, same, List.filter_cons_of_pos (by simp), net_cons,
    List.filter_append, net_append]
  by_cases ended : stop ≤ t <;> simp [ended, net_cons, net_nil, Message.change]

end Counting

theorem replay_eq (cues : List Cue) (counts : Int → Int) (q : Int) :
    cues.foldl (fun counts c => c.message.play counts) counts q =
      counts q + net (hasPitch q) cues := by
  induction cues generalizing counts with
  | nil => simp [net_nil]
  | cons c cs ih => rw [List.foldl_cons, ih, Message.play_eq, net_cons, Int.add_assoc]

theorem countsAt_ofEvents {tempo : Quantity} {events : List NoteEvent} {track : Track}
    (built : Track.ofEvents tempo events = .ok track) (t : Nat) (q : Int) :
    track.countsAt t q = events.countP (NoteEvent.sounds (hasPitch q) t) := by
  rw [Track.countsAt, replay_eq, net_timeline (hasPitch q) built, Int.zero_add]

end ChordSymbols
