import ChordSymbols.Playback.File
import ChordSymbols.Proofs.Playback.Timeline
import Mathlib.Data.List.Perm.Basic

/-!
# The order of the messages of a track

Between its tempo and its end a built track has one start and one stop for every
event, each due at its tick. They come in ascending time, at one tick the stops
before the starts, and where tick and kind are the same in the order of their
events. That the running sum of the differences gives back every tick says also
that no difference was negative: one that is would have been cut off at zero.
-/

namespace ChordSymbols

def NoteEvent.startCue (e : NoteEvent) : Cue :=
  ⟨e.start, .noteOn e.channel e.pitch e.velocity⟩

def NoteEvent.stopCue (velocity : Fin 128) (e : NoteEvent) : Cue :=
  ⟨e.stop, .noteOff e.channel e.pitch velocity⟩

/-- Whether a cue is due at a tick, and a stop or not. -/
def Cue.isAt (stops : Bool) (t : Nat) (c : Cue) : Bool :=
  c.time = t && c.message.isNoteOff == stops

structure PlayingOrder (events : List NoteEvent) (cues : List Cue) : Prop where
  complete : cues.Perm (events.map NoteEvent.startCue ++ events.map (NoteEvent.stopCue 0))
  ordered : cues.Pairwise fun a b => a.time < b.time ∨
    a.time = b.time ∧ (b.message.isNoteOff = true → a.message.isNoteOff = true)
  startsStable : ∀ t, cues.filter (Cue.isAt false t) =
    (events.map NoteEvent.startCue).filter (·.time = t)
  stopsStable : ∀ t, cues.filter (Cue.isAt true t) =
    (events.map (NoteEvent.stopCue 0)).filter (·.time = t)

theorem Cue.notAfter_iff {a b : Cue} : a.notAfter b = true ↔ a.time < b.time ∨
    a.time = b.time ∧ (b.message.isNoteOff = true → a.message.isNoteOff = true) := by
  simp only [notAfter, Bool.or_eq_true, Bool.and_eq_true, decide_eq_true_eq]
  cases a.message.isNoteOff <;> cases b.message.isNoteOff <;> simp

/-- At one tick, cues of one kind may stand in either order. -/
theorem Cue.notAfter_of_isAt {stops : Bool} {t : Nat} {a b : Cue} (ha : a.isAt stops t = true)
    (hb : b.isAt stops t = true) : a.notAfter b = true := by
  simp only [isAt, Bool.and_eq_true, decide_eq_true_eq, beq_iff_eq] at ha hb
  refine notAfter_iff.mpr (.inr ⟨ha.1.trans hb.1.symm, fun stop => ?_⟩)
  rw [ha.2, ← hb.2]
  exact stop

/-- Sorting leaves such cues where they stand among each other. -/
theorem filter_cueList (events : List NoteEvent) (stops : Bool) (t : Nat) :
    (cueList events).filter (Cue.isAt stops t) =
      (events.flatMap NoteEvent.cues).filter (Cue.isAt stops t) := by
  have even : ((events.flatMap NoteEvent.cues).filter (Cue.isAt stops t)).Pairwise
      fun a b => a.notAfter b = true := by
    apply List.pairwise_of_forall_mem_list
    intro a ha b hb
    exact Cue.notAfter_of_isAt (List.mem_filter.mp ha).2 (List.mem_filter.mp hb).2
  have kept := List.sublist_mergeSort Cue.notAfter_trans Cue.notAfter_total even
    List.filter_sublist
  have within := kept.filter (Cue.isAt stops t)
  rw [List.filter_filter] at within
  simp only [Bool.and_self] at within
  have length := ((cueList_perm events).filter (Cue.isAt stops t)).length_eq
  exact (within.eq_of_length length.symm).symm

theorem NoteEvent.filter_starts (e : NoteEvent) (t : Nat) :
    e.cues.filter (Cue.isAt false t) = [e.startCue].filter (·.time = t) := by
  by_cases now : e.start = t
  · simp [cues, startCue, Cue.isAt, Message.isNoteOff, now]
  · simp [cues, startCue, Cue.isAt, Message.isNoteOff, now]

theorem NoteEvent.filter_stops (e : NoteEvent) (t : Nat) :
    e.cues.filter (Cue.isAt true t) = [e.stopCue 0].filter (·.time = t) := by
  by_cases now : e.stop = t
  · simp [cues, stopCue, Cue.isAt, Message.isNoteOff, now]
  · simp [cues, stopCue, Cue.isAt, Message.isNoteOff, now]

/-- If each event has one cue that passes a filter, those of all events pass in their order. -/
theorem filter_cues {q p : Cue → Bool} {cue : NoteEvent → Cue}
    (single : ∀ e : NoteEvent, e.cues.filter q = [cue e].filter p) (events : List NoteEvent) :
    (events.flatMap NoteEvent.cues).filter q = (events.map cue).filter p := by
  induction events with
  | nil => rfl
  | cons e es ih =>
    rw [List.flatMap_cons, List.filter_append, single e, ih, List.map_cons, ← List.filter_append]
    rfl

theorem cues_perm (events : List NoteEvent) :
    (events.flatMap NoteEvent.cues).Perm
      (events.map NoteEvent.startCue ++ events.map (NoteEvent.stopCue 0)) := by
  rw [List.map_eq_flatMap, List.map_eq_flatMap]
  exact (List.flatMap_append_perm events (fun e => [e.startCue]) fun e => [e.stopCue 0]).symm

theorem playingOrder_cueList (events : List NoteEvent) :
    PlayingOrder events (cueList events) where
  complete := (cueList_perm events).trans (cues_perm events)
  ordered := (cueList_ordered events).imp Cue.notAfter_iff.mp
  startsStable t := (filter_cueList events false t).trans <|
    filter_cues (fun e => e.filter_starts t) events
  stopsStable t := (filter_cueList events true t).trans <|
    filter_cues (fun e => e.filter_stops t) events

theorem deltas_messages (now : Nat) (cues : List Cue) :
    (deltas now cues).map Timed.message = cues.map Cue.message := by
  induction cues generalizing now with
  | nil => rfl
  | cons c cues ih => rw [deltas, List.map_cons, List.map_cons, ih]

theorem isChannel_of_mem_cueList {events : List NoteEvent} {c : Cue}
    (member : c ∈ cueList events) : c.message.isChannel = true := by
  have found := (playingOrder_cueList events).complete.mem_iff.mp member
  rcases List.mem_append.mp found with found | found
  · obtain ⟨e, -, rfl⟩ := List.mem_map.mp found
    rfl
  · obtain ⟨e, -, rfl⟩ := List.mem_map.mp found
    rfl

theorem isChannel_of_mem_deltas {now : Nat} {events : List NoteEvent} {m : Timed}
    (member : m ∈ deltas now (cueList events)) : m.message.isChannel = true := by
  have message : m.message ∈ (deltas now (cueList events)).map Timed.message :=
    List.mem_map_of_mem member
  rw [deltas_messages] at message
  obtain ⟨c, found, same⟩ := List.mem_map.mp message
  rw [← same]
  exact isChannel_of_mem_cueList found

/-- A built track is its tempo, a start and a stop for every event in playing order, and its
end. -/
theorem built_track_in_order {tempo : Quantity} {events : List NoteEvent} {track : Track}
    (built : Track.ofEvents tempo events = .ok track) :
    ∃ beat body, beatLength tempo = .ok beat ∧
      track = ⟨0, .tempo beat⟩ :: (body ++ [⟨0, .endOfTrack⟩]) ∧
      body.length = 2 * events.length ∧ (∀ m ∈ body, m.message.isChannel = true) ∧
      PlayingOrder events (timelineFrom 0 body) := by
  obtain ⟨beat, cut, same⟩ := bind_eq_ok.mp built
  cases same
  have ordered := (cueList_ordered events).imp Cue.time_le_of_notAfter
  have due := timelineFrom_deltas ordered fun c _ => Nat.zero_le c.time
  refine ⟨beat, deltas 0 (cueList events), cut, rfl, ?_, fun m => isChannel_of_mem_deltas, ?_⟩
  · have count := (playingOrder_cueList events).complete.length_eq
    have same := congrArg List.length (deltas_messages 0 (cueList events))
    simp only [List.length_append, List.length_map] at count same
    omega
  · rw [due]
    exact playingOrder_cueList events

/-- Unsorted events on one key, two of them equal and one of no length at all. -/
theorem built_track_in_order_crowded :
    ∃ track, Track.ofEvents (.whole 120)
        [⟨60, 480, 240, 100, 0⟩, ⟨60, 0, 480, 90, 0⟩, ⟨60, 480, 240, 100, 0⟩,
          ⟨60, 480, 0, 80, 0⟩] = .ok track ∧
      ∃ beat body, beatLength (.whole 120) = .ok beat ∧
        track = ⟨0, .tempo beat⟩ :: (body ++ [⟨0, .endOfTrack⟩]) ∧
        body.length = 8 ∧ (∀ m ∈ body, m.message.isChannel = true) ∧
        PlayingOrder [⟨60, 480, 240, 100, 0⟩, ⟨60, 0, 480, 90, 0⟩, ⟨60, 480, 240, 100, 0⟩,
          ⟨60, 480, 0, 80, 0⟩] (timelineFrom 0 body) := by
  obtain ⟨track, built⟩ : ∃ track, Track.ofEvents (.whole 120)
      [⟨60, 480, 240, 100, 0⟩, ⟨60, 0, 480, 90, 0⟩, ⟨60, 480, 240, 100, 0⟩,
        ⟨60, 480, 0, 80, 0⟩] = .ok track := ⟨_, rfl⟩
  exact ⟨track, built, built_track_in_order built⟩

end ChordSymbols
