import ChordSymbols.Playback.Track
import ChordSymbols.Proofs.Outcome

/-!
# The timeline of a track

A track holds differences of ticks; the running sum of them is the tick at which
a message is due. Taking differences of sorted cues loses nothing, so that the
timeline of a built track is its tempo, its cues in playing order, and its end.
-/

namespace ChordSymbols

def timelineFrom : Nat → Track → List Cue
  | _, [] => []
  | now, m :: rest => ⟨now + m.delta, m.message⟩ :: timelineFrom (now + m.delta) rest

/-- The messages of a track at the ticks at which they are due. -/
def Track.timeline (track : Track) : List Cue :=
  timelineFrom 0 track

/-- The tick after all messages of a track. -/
def endFrom : Nat → Track → Nat
  | now, [] => now
  | now, m :: rest => endFrom (now + m.delta) rest

theorem timelineFrom_append (now : Nat) (a b : Track) :
    timelineFrom now (a ++ b) = timelineFrom now a ++ timelineFrom (endFrom now a) b := by
  induction a generalizing now with
  | nil => rfl
  | cons m rest ih =>
    rw [List.cons_append, timelineFrom, ih, timelineFrom, endFrom]
    rfl

theorem le_time_of_mem_timelineFrom {now : Nat} {track : Track} :
    ∀ c ∈ timelineFrom now track, now ≤ c.time := by
  induction track generalizing now with
  | nil => simp [timelineFrom]
  | cons m rest ih =>
    intro c hc
    rw [timelineFrom] at hc
    rcases List.mem_cons.mp hc with rfl | hc
    · exact Nat.le_add_right now m.delta
    · have later := ih c hc
      omega

theorem timelineFrom_ordered (now : Nat) (track : Track) :
    (timelineFrom now track).Pairwise fun a b => a.time ≤ b.time := by
  induction track generalizing now with
  | nil => exact .nil
  | cons m rest ih => exact .cons le_time_of_mem_timelineFrom (ih _)

/-- What is due at a later tick comes later in a track. -/
theorem Track.lt_of_time_lt {track : Track} {i j : Nat} {a b : Cue}
    (first : track.timeline[i]? = some a) (second : track.timeline[j]? = some b)
    (earlier : a.time < b.time) : i < j := by
  obtain ⟨hi, rfl⟩ := List.getElem?_eq_some_iff.mp first
  obtain ⟨hj, rfl⟩ := List.getElem?_eq_some_iff.mp second
  have ordered := List.pairwise_iff_getElem.mp (timelineFrom_ordered 0 track)
  rcases Nat.lt_trichotomy i j with before | same | after
  · exact before
  · subst same
    exact absurd earlier (Nat.lt_irrefl _)
  · have back := ordered j i hj hi after
    exact absurd earlier (Nat.not_lt_of_le back)

theorem Cue.time_le_of_notAfter {a b : Cue} (h : a.notAfter b = true) : a.time ≤ b.time := by
  simp only [notAfter, Bool.or_eq_true, Bool.and_eq_true, decide_eq_true_eq] at h
  omega

theorem timelineFrom_deltas {now : Nat} {cs : List Cue}
    (ordered : cs.Pairwise fun a b => a.time ≤ b.time) (due : ∀ c ∈ cs, now ≤ c.time) :
    timelineFrom now (deltas now cs) = cs := by
  induction ordered generalizing now with
  | nil => rfl
  | @cons c cs first rest ih =>
    have next : now + (c.time - now) = c.time := by
      have := due c List.mem_cons_self
      omega
    rw [deltas, timelineFrom, next, ih first]

/-- Between its tempo and its end a track of sorted cues has them at their ticks. -/
theorem timeline_deltas (beat : Fin 0x1000000) {cues : List Cue}
    (ordered : cues.Pairwise fun a b => a.time ≤ b.time) :
    Track.timeline (⟨0, .tempo beat⟩ :: (deltas 0 cues ++ [⟨0, .endOfTrack⟩])) =
      ⟨0, .tempo beat⟩ :: (cues ++ [⟨endFrom 0 (deltas 0 cues), .endOfTrack⟩]) := by
  have due := timelineFrom_deltas ordered fun c _ => Nat.zero_le c.time
  have behind := timelineFrom_append 0 (deltas 0 cues) [⟨0, .endOfTrack⟩]
  rw [due] at behind
  exact congrArg (List.cons (Cue.mk 0 (.tempo beat))) behind

theorem timeline_ofEvents {tempo : Quantity} {events : List NoteEvent} {track : Track}
    (built : Track.ofEvents tempo events = .ok track) :
    ∃ beat stop, track.timeline =
      ⟨0, .tempo beat⟩ :: (cueList events ++ [⟨stop, .endOfTrack⟩]) := by
  obtain ⟨beat, -, same⟩ := bind_eq_ok.mp built
  cases same
  exact ⟨beat, _, timeline_deltas beat ((cueList_ordered events).imp Cue.time_le_of_notAfter)⟩

end ChordSymbols
