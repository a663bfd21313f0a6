import ChordSymbols.Proofs.Playback.Ordering
import ChordSymbols.Proofs.Playback.Replay

/-!
# Starts and stops in balance

Events may overlap and repeat on one key, that is one pitch on one channel. If
each of them lasts at least a tick, a player that counts starts and stops never
counts more stops than starts, at no message of the track and not only between
ticks: what has stopped by a tick has started before it.
-/

namespace ChordSymbols

def isKey (channel : Fin 16) (pitch : Fin 128) : Fin 16 → Fin 128 → Bool :=
  fun c p => c = channel && p = pitch

def Message.starts (counted : Fin 16 → Fin 128 → Bool) : Message → Bool
  | .noteOn c p _ => counted c p
  | _ => false

def Message.stops (counted : Fin 16 → Fin 128 → Bool) : Message → Bool
  | .noteOff c p _ => counted c p
  | _ => false

theorem NoteEvent.sounds_isKey (e : NoteEvent) (channel : Fin 16) (pitch : Fin 128) (t : Nat) :
    e.sounds (isKey channel pitch) t = decide (e.channel = channel ∧ e.pitch = pitch ∧
      e.start ≤ t ∧ t < e.start + e.duration) := by
  have stop : e.stop = e.start + e.duration := rfl
  rw [← stop]
  apply Bool.eq_iff_iff.mpr
  simp [sounds, isKey, and_assoc]

theorem Message.isChannel_of_starts {counted : Fin 16 → Fin 128 → Bool} {m : Message}
    (starts : m.starts counted = true) : m.isChannel = true := by
  cases m with
  | noteOn c p v => rfl
  | tempo t | noteOff c p v | endOfTrack => contradiction

theorem Message.isChannel_of_stops {counted : Fin 16 → Fin 128 → Bool} {m : Message}
    (stops : m.stops counted = true) : m.isChannel = true := by
  cases m with
  | noteOff c p v => rfl
  | tempo t | noteOn c p v | endOfTrack => contradiction

section Counting

variable (counted : Fin 16 → Fin 128 → Bool)

theorem Message.change_eq (m : Message) :
    m.change counted = (if m.starts counted then 1 else 0) - if m.stops counted then 1 else 0 := by
  cases m with
  | tempo t => rfl
  | noteOn c p v => cases h : counted c p <;> simp [change, starts, stops, h]
  | noteOff c p v => cases h : counted c p <;> simp [change, starts, stops, h]
  | endOfTrack => rfl

theorem net_eq_countP (cues : List Cue) :
    net counted cues = (cues.countP fun c => c.message.starts counted : Int) -
      cues.countP fun c => c.message.stops counted := by
  induction cues with
  | nil => rfl
  | cons c cues ih =>
    rw [net_cons, ih, Message.change_eq, List.countP_cons, List.countP_cons]
    cases c.message.starts counted <;> cases c.message.stops counted <;> simp <;> omega

variable {tempo : Quantity} {events : List NoteEvent} {track : Track}

theorem countP_timeline (built : Track.ofEvents tempo events = .ok track) {q : Cue → Bool}
    (sounding : ∀ c, q c = true → c.message.isChannel = true) :
    track.timeline.countP q =
      events.countP (q ∘ NoteEvent.startCue) + events.countP (q ∘ NoteEvent.stopCue 0) := by
  obtain ⟨beat, stop, same⟩ := timeline_ofEvents built
  have silent (c : Cue) (other : c.message.isChannel = false) : ¬ q c = true := by
    intro h
    rw [sounding c h] at other
    cases other
  rw [same, List.countP_cons_of_neg (silent _ rfl), List.countP_append,
    List.countP_singleton, if_neg (silent _ rfl), (playingOrder_cueList events).complete.countP_eq,
    List.countP_append, List.countP_map, List.countP_map]
  rfl

/-- The starts that are due at certain ticks are those of the events that start then. -/
theorem countP_starts (built : Track.ofEvents tempo events = .ok track) (due : Nat → Bool) :
    track.timeline.countP (fun c => c.message.starts counted && due c.time) =
      events.countP fun e => counted e.channel e.pitch && due e.start := by
  have sounding (c : Cue) (h : (c.message.starts counted && due c.time) = true) :
      c.message.isChannel = true :=
    Message.isChannel_of_starts (Bool.and_eq_true_iff.mp h).1
  have none : events.countP
      ((fun c => c.message.starts counted && due c.time) ∘ NoteEvent.stopCue 0) = 0 := by
    apply List.countP_eq_zero.mpr
    intro e _
    exact Bool.false_ne_true
  rw [countP_timeline built sounding, none]
  rfl

theorem countP_stops (built : Track.ofEvents tempo events = .ok track) (due : Nat → Bool) :
    track.timeline.countP (fun c => c.message.stops counted && due c.time) =
      events.countP fun e => counted e.channel e.pitch && due e.stop := by
  have sounding (c : Cue) (h : (c.message.stops counted && due c.time) = true) :
      c.message.isChannel = true :=
    Message.isChannel_of_stops (Bool.and_eq_true_iff.mp h).1
  have none : events.countP
      ((fun c => c.message.stops counted && due c.time) ∘ NoteEvent.startCue) = 0 := by
    apply List.countP_eq_zero.mpr
    intro e _
    exact Bool.false_ne_true
  rw [countP_timeline built sounding, none, Nat.zero_add]
  rfl

/-- An event that lasts and has stopped by a tick started before that tick. -/
theorem countP_stopped_le (lasting : ∀ e ∈ events, 1 ≤ e.duration) (t : Nat) :
    (events.countP fun e => counted e.channel e.pitch && decide (e.stop ≤ t)) ≤
      events.countP fun e => counted e.channel e.pitch && decide (e.start < t) := by
  apply List.countP_mono_left
  intro e member stopped
  have long := lasting e member
  have stop : e.stop = e.start + e.duration := rfl
  simp only [Bool.and_eq_true, decide_eq_true_eq] at stopped ⊢
  obtain ⟨key, past⟩ := stopped
  exact ⟨key, by omega⟩

/-- Cut anywhere, a timeline is cut at the tick of the last cue before the cut: no cue before
it is later, and none behind it is earlier. -/
theorem timeline_cut {before rest : List Cue} {last : Cue}
    (split : track.timeline = before ++ [last] ++ rest) :
    (∀ c ∈ before ++ [last], c.time ≤ last.time) ∧ ∀ c ∈ rest, last.time ≤ c.time := by
  have ordered := timelineFrom_ordered 0 track
  rw [← Track.timeline, split] at ordered
  obtain ⟨within, -, across⟩ := List.pairwise_append.mp ordered
  have behind := (List.pairwise_append.mp within).2.2
  constructor
  · intro c member
    rcases List.mem_append.mp member with member | member
    · exact behind c member last List.mem_cons_self
    · exact Nat.le_of_eq (congrArg Cue.time (List.mem_singleton.mp member))
  · exact across last (List.mem_append_right before List.mem_cons_self)

/-- Where a prefix of the timeline ends, all that started on an earlier tick has been played,
and nothing that stops on a later one. -/
theorem stops_le_starts (built : Track.ofEvents tempo events = .ok track)
    (lasting : ∀ e ∈ events, 1 ≤ e.duration) {played rest : List Cue}
    (split : track.timeline = played ++ rest) :
    played.countP (fun c => c.message.stops counted) ≤
      played.countP fun c => c.message.starts counted := by
  rcases List.eq_nil_or_concat played with rfl | ⟨before, last, rfl⟩
  · exact Nat.le_refl 0
  rw [List.concat_eq_append] at split ⊢
  obtain ⟨early, late⟩ := timeline_cut split
  calc (before ++ [last]).countP (fun c => c.message.stops counted)
    _ ≤ (before ++ [last]).countP fun c =>
          c.message.stops counted && decide (c.time ≤ last.time) := by
        apply List.countP_mono_left
        intro c member stops
        exact Bool.and_eq_true_iff.mpr ⟨stops, decide_eq_true (early c member)⟩
    _ ≤ track.timeline.countP fun c =>
          c.message.stops counted && decide (c.time ≤ last.time) := by
        rw [split]
        exact (List.sublist_append_left _ rest).countP_le
    _ = events.countP fun e => counted e.channel e.pitch && decide (e.stop ≤ last.time) :=
        countP_stops counted built fun t => decide (t ≤ last.time)
    _ ≤ events.countP fun e => counted e.channel e.pitch && decide (e.start < last.time) :=
        countP_stopped_le counted lasting last.time
    _ = track.timeline.countP fun c =>
          c.message.starts counted && decide (c.time < last.time) :=
        (countP_starts counted built fun t => decide (t < last.time)).symm
    _ = (before ++ [last]).countP fun c =>
          c.message.starts counted && decide (c.time < last.time) := by
        have none : rest.countP (fun c =>
            c.message.starts counted && decide (c.time < last.time)) = 0 := by
          apply List.countP_eq_zero.mpr
          intro c member starts
          have past := of_decide_eq_true (Bool.and_eq_true_iff.mp starts).2
          exact absurd past (Nat.not_lt.mpr (late c member))
        rw [split, List.countP_append, none, Nat.add_zero]
    _ ≤ (before ++ [last]).countP fun c => c.message.starts counted := by
        apply List.countP_mono_left
        intro c _ starts
        exact (Bool.and_eq_true_iff.mp starts).1

theorem starts_eq_stops (built : Track.ofEvents tempo events = .ok track) :
    track.timeline.countP (fun c => c.message.starts counted) =
      track.timeline.countP fun c => c.message.stops counted := by
  have starts := countP_starts counted built fun _ => true
  have stops := countP_stops counted built fun _ => true
  simp only [Bool.and_true] at starts stops
  exact starts.trans stops.symm

end Counting

theorem timelineFrom_messages (now : Nat) (track : Track) :
    (timelineFrom now track).map Cue.message = track.map Timed.message := by
  induction track generalizing now with
  | nil => rfl
  | cons m rest ih => rw [timelineFrom, List.map_cons, List.map_cons, ih]

theorem Track.countP_timeline_message (track : Track) (q : Message → Bool) :
    track.timeline.countP (fun c => q c.message) = track.countP fun m => q m.message := by
  have same := congrArg (List.countP q) (timelineFrom_messages 0 track)
  rw [List.countP_map, List.countP_map] at same
  exact same

/-- On every key a built track of events that last never stops more than it has started, by
each tick has on what sounds then, and is silent at its end. -/
theorem playback_well_bracketed {tempo : Quantity} {events : List NoteEvent} {track : Track}
    (built : Track.ofEvents tempo events = .ok track) (lasting : ∀ e ∈ events, 1 ≤ e.duration)
    (channel : Fin 16) (pitch : Fin 128) :
    (∀ played, played <+: track →
      (played.countP fun m => m.message.stops (isKey channel pitch)) ≤
        played.countP fun m => m.message.starts (isKey channel pitch)) ∧
    (∀ t, ((track.timeline.filter (·.time ≤ t)).countP
          fun c => c.message.starts (isKey channel pitch) : Int) -
        (track.timeline.filter (·.time ≤ t)).countP
          (fun c => c.message.stops (isKey channel pitch)) =
      events.countP fun e => decide (e.channel = channel ∧ e.pitch = pitch ∧
        e.start ≤ t ∧ t < e.start + e.duration)) ∧
    (track.countP fun m => m.message.starts (isKey channel pitch)) =
      track.countP fun m => m.message.stops (isKey channel pitch) := by
  refine ⟨?_, ?_, ?_⟩
  · rintro played ⟨rest, rfl⟩
    rw [← Track.countP_timeline_message, ← Track.countP_timeline_message]
    exact stops_le_starts _ built lasting (timelineFrom_append 0 played rest)
  · intro t
    rw [← net_eq_countP, net_timeline _ built]
    congr 2
    funext e
    exact e.sounds_isKey channel pitch t
  · rw [← Track.countP_timeline_message, ← Track.countP_timeline_message]
    exact starts_eq_stops _ built

/-- On one key, one event inside another and a third that starts where the first one stops. -/
theorem playback_well_bracketed_overlapping :
    ∃ track, Track.ofEvents (.whole 120)
        [⟨60, 0, 480, 100, 0⟩, ⟨60, 120, 240, 90, 0⟩, ⟨60, 480, 240, 80, 0⟩] = .ok track ∧
      (∀ played, played <+: track →
        (played.countP fun m => m.message.stops (isKey 0 60)) ≤
          played.countP fun m => m.message.starts (isKey 0 60)) ∧
      ((track.timeline.filter (·.time ≤ 240)).countP
            fun c => c.message.starts (isKey 0 60) : Int) -
          (track.timeline.filter (·.time ≤ 240)).countP
            (fun c => c.message.stops (isKey 0 60)) = 2 ∧
      (track.countP fun m => m.message.starts (isKey 0 60)) =
        track.countP fun m => m.message.stops (isKey 0 60) := by
  obtain ⟨track, built⟩ : ∃ track, Track.ofEvents (.whole 120)
      [⟨60, 0, 480, 100, 0⟩, ⟨60, 120, 240, 90, 0⟩, ⟨60, 480, 240, 80, 0⟩] = .ok track :=
    ⟨_, rfl⟩
  obtain ⟨within, sounding, after⟩ := playback_well_bracketed built (by decide) 0 60
  exact ⟨track, built, within, sounding 240, after⟩

end ChordSymbols
