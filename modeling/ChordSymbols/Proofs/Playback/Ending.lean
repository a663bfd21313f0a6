import ChordSymbols.Proofs.Playback.Ordering

/-!
# The end of a written track

A track is written with a single end, behind everything else. The ends inside it
are dropped, and the delay of each goes over to the message behind it, so that
all other messages stay due at their ticks and the track takes as long as before.
A built track has its only end there already, and is written as it is.
-/

namespace ChordSymbols

/-- A written track is due as it was, without its ends, and ends when all of it is over. -/
theorem timelineFrom_closeFrom (now waiting : Nat) (track : Track) :
    timelineFrom now (closeFrom waiting track) =
      (timelineFrom (now + waiting) track).filter (·.message ≠ .endOfTrack) ++
        [⟨endFrom (now + waiting) track, .endOfTrack⟩] := by
  induction track generalizing now waiting with
  | nil => rfl
  | cons m rest ih =>
    obtain ⟨delta, m⟩ := m
    have due : timelineFrom (now + waiting) (⟨delta, m⟩ :: rest) =
        ⟨now + waiting + delta, m⟩ :: timelineFrom (now + waiting + delta) rest := rfl
    have stops : endFrom (now + waiting) (⟨delta, m⟩ :: rest) =
        endFrom (now + waiting + delta) rest := rfl
    rw [closeFrom, due, stops, List.filter_cons]
    by_cases stop : m = .endOfTrack
    · rw [if_pos stop, if_neg (by simpa using stop), ih, Nat.add_assoc]
    · rw [if_neg stop, if_pos (by simpa using stop), timelineFrom, ih, Nat.add_zero, Nat.add_assoc]
      rfl

/-- Nothing is done to a track with its only end behind everything else. -/
theorem closeFrom_concat {body : Track} (inner : ∀ m ∈ body, m.message ≠ .endOfTrack) :
    closeFrom 0 (body ++ [⟨0, .endOfTrack⟩]) = body ++ [⟨0, .endOfTrack⟩] := by
  induction body with
  | nil => rfl
  | cons m rest ih =>
    obtain ⟨first, others⟩ := List.forall_mem_cons.mp inner
    rw [List.cons_append, closeFrom, if_neg first, ih others, Nat.zero_add]

theorem Message.ne_endOfTrack_of_isChannel {m : Message} (channel : m.isChannel = true) :
    m ≠ .endOfTrack := by
  rintro rfl
  cases channel

/-- A built track is written as it is. -/
theorem Track.closed_of_built {tempo : Quantity} {events : List NoteEvent} {track : Track}
    (built : Track.ofEvents tempo events = .ok track) : track.closed = track := by
  obtain ⟨beat, -, same⟩ := bind_eq_ok.mp built
  cases same
  have inner : ∀ m ∈ deltas 0 (cueList events), m.message ≠ .endOfTrack := fun m member =>
    Message.ne_endOfTrack_of_isChannel (isChannel_of_mem_deltas member)
  rw [closed, closeFrom, if_neg (by intro tempo; cases tempo), closeFrom_concat inner]

end ChordSymbols
