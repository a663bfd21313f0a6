import ChordSymbols.Proofs.Playback.Ordering
import Mathlib.Data.Multiset.Defs

/-!
# Events in another order

A track is sorted by tick and kind alone, so that events in another order can
change places only where both are the same. The sequence of ticks and kinds is
therefore the same for all orders of the same events, and so are the differences
that are taken of it. Which messages of a kind are due at a tick does not depend on
the order either, only how they follow each other there.
-/

namespace ChordSymbols

inductive MessageKind where
  | tempo | noteOn | noteOff | endOfTrack
deriving DecidableEq, Repr

def Message.kind : Message → MessageKind
  | .tempo _ => .tempo
  | .noteOn .. => .noteOn
  | .noteOff .. => .noteOff
  | .endOfTrack => .endOfTrack

def MessageKind.IsNote (k : MessageKind) : Prop := k = .noteOn ∨ k = .noteOff

/-- What a message of a track shows without its key and loudness. -/
def Timed.shape (m : Timed) : MessageKind × Nat := (m.message.kind, m.delta)

/-- The messages of a kind that are due at a tick, in no order. -/
def Track.due (track : Track) (kind : MessageKind) (t : Nat) : Multiset Message :=
  ((track.timeline.filter fun c => c.time = t ∧ c.message.kind = kind).map Cue.message :
    List Message)

/-- What cues are sorted by. -/
structure Stamp where
  time : Nat
  kind : MessageKind

def Cue.stamp (c : Cue) : Stamp := ⟨c.time, c.message.kind⟩

def Stamp.NotAfter (p q : Stamp) : Prop :=
  p.time < q.time ∨ p.time = q.time ∧ (q.kind = .noteOff → p.kind = .noteOff)

theorem Message.isNoteOff_iff (m : Message) : m.isNoteOff = true ↔ m.kind = .noteOff := by
  cases m <;> simp [isNoteOff, kind]

theorem Cue.notAfter_iff_stamp {a b : Cue} :
    a.notAfter b = true ↔ a.stamp.NotAfter b.stamp := by
  rw [notAfter_iff, Message.isNoteOff_iff, Message.isNoteOff_iff]
  rfl

theorem Message.isNote_kind {m : Message} (channel : m.isChannel = true) : m.kind.IsNote := by
  cases m with
  | noteOn c p v => exact .inl rfl
  | noteOff c p v => exact .inr rfl
  | tempo t | endOfTrack => cases channel

/-- Among starts and stops, two stamps of which neither comes after the other are the same. -/
theorem Stamp.NotAfter.antisymm {p q : Stamp} (note : p.kind.IsNote) (note' : q.kind.IsNote)
    (before : p.NotAfter q) (after : q.NotAfter p) : p = q := by
  obtain ⟨t, k⟩ := p
  obtain ⟨t', k'⟩ := q
  simp only [NotAfter] at before after
  obtain rfl : t = t' := by omega
  have back := (before.resolve_left (Nat.lt_irrefl t)).2
  have forth := (after.resolve_left (Nat.lt_irrefl t)).2
  rcases note with rfl | rfl <;> rcases note' with rfl | rfl
  · rfl
  · cases back rfl
  · cases forth rfl
  · rfl

theorem isNote_of_mem_stamps {events : List NoteEvent} {p : Stamp}
    (member : p ∈ (cueList events).map Cue.stamp) : p.kind.IsNote := by
  obtain ⟨c, found, rfl⟩ := List.mem_map.mp member
  exact Message.isNote_kind (isChannel_of_mem_cueList found)

theorem stamps_ordered (events : List NoteEvent) :
    ((cueList events).map Cue.stamp).Pairwise Stamp.NotAfter :=
  List.pairwise_map.mpr ((cueList_ordered events).imp Cue.notAfter_iff_stamp.mp)

section Reordered

variable {events reordered : List NoteEvent}

theorem cueList_perm_cueList (perm : events.Perm reordered) :
    (cueList events).Perm (cueList reordered) :=
  (cueList_perm events).trans ((perm.flatMap_right _).trans (cueList_perm reordered).symm)

/-- The order of the events leaves no trace in what their cues are sorted by. -/
theorem stamps_eq (perm : events.Perm reordered) :
    (cueList events).map Cue.stamp = (cueList reordered).map Cue.stamp := by
  refine List.Perm.eq_of_pairwise ?_ (stamps_ordered events)
    (stamps_ordered reordered) ((cueList_perm_cueList perm).map Cue.stamp)
  intro p q found found'
  exact Stamp.NotAfter.antisymm (isNote_of_mem_stamps found) (isNote_of_mem_stamps found')

end Reordered

/-- Differences are taken of the ticks alone. -/
theorem shapes_deltas {a b : List Cue} (same : a.map Cue.stamp = b.map Cue.stamp) (now : Nat) :
    (deltas now a).map Timed.shape = (deltas now b).map Timed.shape := by
  induction a generalizing b now with
  | nil =>
    obtain rfl := List.map_eq_nil_iff.mp same.symm
    rfl
  | cons c a ih =>
    obtain ⟨d, b, rfl, first, rest⟩ := List.map_eq_cons_iff.mp same.symm
    obtain ⟨time, kind⟩ := Stamp.mk.inj first
    rw [deltas, deltas, List.map_cons, List.map_cons, time, ih rest.symm, Timed.shape, Timed.shape,
      kind]

theorem endFrom_eq {a b : Track} (same : a.map Timed.shape = b.map Timed.shape) (now : Nat) :
    endFrom now a = endFrom now b := by
  induction a generalizing b now with
  | nil =>
    obtain rfl := List.map_eq_nil_iff.mp same.symm
    rfl
  | cons m a ih =>
    obtain ⟨n, b, rfl, first, rest⟩ := List.map_eq_cons_iff.mp same.symm
    rw [endFrom, endFrom, (Prod.mk.inj first).2, ih rest.symm]

/-- Events in another order give a track of the same length, with the same sequence of kinds and
differences, and at every tick with the same messages of each kind. -/
theorem reordered_events_same_timing {tempo : Quantity} {events reordered : List NoteEvent}
    {track : Track} (perm : events.Perm reordered)
    (built : Track.ofEvents tempo events = .ok track) :
    ∃ other, Track.ofEvents tempo reordered = .ok other ∧
      other.length = track.length ∧ other.map Timed.shape = track.map Timed.shape ∧
      ∀ kind t, other.due kind t = track.due kind t := by
  obtain ⟨beat, cut, same⟩ := bind_eq_ok.mp built
  cases same
  have shapes := shapes_deltas (stamps_eq perm) 0
  have ordered (es : List NoteEvent) := (cueList_ordered es).imp Cue.time_le_of_notAfter
  refine ⟨_, bind_eq_ok.mpr ⟨beat, cut, rfl⟩, ?_, ?_, fun kind t => ?_⟩
  · have count := congrArg List.length shapes
    simp only [List.length_map] at count
    simp only [List.length_cons, List.length_append, count]
  · simp only [List.map_cons, List.map_append, shapes]
  · rw [Track.due, Track.due, timeline_deltas beat (ordered events),
      timeline_deltas beat (ordered reordered), endFrom_eq shapes, Multiset.coe_eq_coe]
    have cues := (cueList_perm_cueList perm).symm.append_right
      [⟨endFrom 0 (deltas 0 (cueList reordered)), .endOfTrack⟩]
    exact ((cues.cons _).filter _).map _

/-- Three events that start together, the last one without length, and the same in reverse. -/
theorem reordered_events_same_timing_reversed :
    ∃ track other,
      Track.ofEvents (.whole 90)
        [⟨60, 0, 480, 90, 0⟩, ⟨64, 0, 480, 80, 0⟩, ⟨67, 0, 0, 70, 1⟩] = .ok track ∧
      Track.ofEvents (.whole 90)
        [⟨67, 0, 0, 70, 1⟩, ⟨64, 0, 480, 80, 0⟩, ⟨60, 0, 480, 90, 0⟩] = .ok other ∧
      other.length = track.length ∧ other.map Timed.shape = track.map Timed.shape ∧
      other.due .noteOn 0 = track.due .noteOn 0 ∧
      other.due .noteOff 480 = track.due .noteOff 480 := by
  obtain ⟨track, built⟩ : ∃ track, Track.ofEvents (.whole 90)
      [⟨60, 0, 480, 90, 0⟩, ⟨64, 0, 480, 80, 0⟩, ⟨67, 0, 0, 70, 1⟩] = .ok track := ⟨_, rfl⟩
  have perm : List.Perm
      [⟨60, 0, 480, 90, 0⟩, ⟨64, 0, 480, 80, 0⟩, (⟨67, 0, 0, 70, 1⟩ : NoteEvent)]
      [⟨67, 0, 0, 70, 1⟩, ⟨64, 0, 480, 80, 0⟩, ⟨60, 0, 480, 90, 0⟩] := by decide
  obtain ⟨other, built', length, shapes, due⟩ := reordered_events_same_timing perm built
  exact ⟨track, other, built, built', length, shapes, due .noteOn 0, due .noteOff 480⟩

end ChordSymbols
