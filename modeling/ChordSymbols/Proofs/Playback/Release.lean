import ChordSymbols.Proofs.Number.Rounding
import ChordSymbols.Proofs.Playback.Laying
import ChordSymbols.Proofs.Playback.Timeline

/-!
# Notes that are released

A start is released when a stop of its channel and pitch is due at a later tick.
Every event brings its own stop, so all starts of a track are released if all
events last at least one tick. At one tick stops come before starts: a progression
laid out in slots of no ticks at all puts every stop before every start, and its
notes are never released.
-/

namespace ChordSymbols

/-- Every start is followed, at a later tick, by a stop of its channel and pitch. -/
def Track.Releases (track : Track) : Prop :=
  ∀ (i t : Nat) (c : Fin 16) (p v : Fin 128),
    track.timeline[i]? = some ⟨t, .noteOn c p v⟩ →
      ∃ j u w, i < j ∧ t < u ∧ track.timeline[j]? = some ⟨u, .noteOff c p w⟩

/-- There are starts, and none of them is followed by any stop. -/
def Track.Hangs (track : Track) : Prop :=
  (∃ t c p v, ⟨t, .noteOn c p v⟩ ∈ track.timeline) ∧
    ∀ (i t : Nat) (c : Fin 16) (p v : Fin 128),
      track.timeline[i]? = some ⟨t, .noteOn c p v⟩ →
        ∀ (j u : Nat) (d : Fin 16) (q w : Fin 128),
          track.timeline[j]? = some ⟨u, .noteOff d q w⟩ → j < i

theorem Track.Hangs.not_releases {track : Track} (hangs : track.Hangs) : ¬ track.Releases := by
  intro releases
  obtain ⟨⟨t, c, p, v, start⟩, last⟩ := hangs
  obtain ⟨i, start⟩ := List.mem_iff_getElem?.mp start
  obtain ⟨j, u, w, later, -, stop⟩ := releases i t c p v start
  have before := last i t c p v start j u c p w stop
  exact Nat.lt_asymm later before

section Built

variable {tempo : Quantity} {events : List NoteEvent} {track : Track}

theorem mem_cueList {c : Cue} : c ∈ cueList events ↔ ∃ e ∈ events, c ∈ e.cues := by
  rw [(cueList_perm events).mem_iff, List.mem_flatMap]

theorem start_mem_timeline (built : Track.ofEvents tempo events = .ok track) {t : Nat}
    {c : Fin 16} {p v : Fin 128} :
    ⟨t, .noteOn c p v⟩ ∈ track.timeline ↔
      ∃ e ∈ events, e.start = t ∧ e.channel = c ∧ e.pitch = p ∧ e.velocity = v := by
  obtain ⟨beat, stop, same⟩ := timeline_ofEvents built
  simp [same, mem_cueList, NoteEvent.cues, eq_comm]

theorem stop_mem_timeline (built : Track.ofEvents tempo events = .ok track) {t : Nat}
    {c : Fin 16} {p v : Fin 128} :
    ⟨t, .noteOff c p v⟩ ∈ track.timeline ↔
      ∃ e ∈ events, e.stop = t ∧ e.channel = c ∧ e.pitch = p ∧ 0 = v := by
  obtain ⟨beat, stop, same⟩ := timeline_ofEvents built
  simp [same, mem_cueList, NoteEvent.cues, eq_comm]

/-- A start comes before the stops of later ticks only. -/
theorem starts_ordered (built : Track.ofEvents tempo events = .ok track) :
    track.timeline.Pairwise fun a b =>
      ∀ c p v, a.message = .noteOn c p v → b.message.isNoteOff = true → a.time < b.time := by
  obtain ⟨beat, stop, same⟩ := timeline_ofEvents built
  rw [same, List.pairwise_cons, List.pairwise_append]
  refine ⟨?_, ?_, List.pairwise_singleton _ _, ?_⟩
  · intro b _ c p v start
    cases start
  · refine (cueList_ordered events).imp fun {a b} order c p v start stops => ?_
    have notStop : a.message.isNoteOff = false := by rw [start]; rfl
    simpa [Cue.notAfter, notStop, stops] using order
  · intro a _ b hb c p v _ stops
    obtain rfl := List.mem_singleton.mp hb
    cases stops

/-- At one tick, stops come before starts. -/
theorem stop_lt_start (built : Track.ofEvents tempo events = .ok track) {i j t : Nat}
    {c d : Fin 16} {p q v w : Fin 128} (start : track.timeline[i]? = some ⟨t, .noteOn c p v⟩)
    (stop : track.timeline[j]? = some ⟨t, .noteOff d q w⟩) : j < i := by
  obtain ⟨hi, starts⟩ := List.getElem?_eq_some_iff.mp start
  obtain ⟨hj, stops⟩ := List.getElem?_eq_some_iff.mp stop
  rcases Nat.lt_trichotomy i j with before | same | after
  · have order := List.pairwise_iff_getElem.mp (starts_ordered built) i j hi hj before
    rw [starts, stops] at order
    exact absurd (order c p v rfl rfl) (Nat.lt_irrefl t)
  · subst same
    cases start.symm.trans stop
  · exact after

/-- Events that last at least a tick release all starts. -/
theorem releases_of_lasting (built : Track.ofEvents tempo events = .ok track)
    (lasting : ∀ e ∈ events, 1 ≤ e.duration) : track.Releases := by
  intro i t c p v start
  obtain ⟨e, he, rfl, rfl, rfl, rfl⟩ := (start_mem_timeline built).mp (List.mem_of_getElem? start)
  have stop : ⟨e.stop, .noteOff e.channel e.pitch 0⟩ ∈ track.timeline :=
    (stop_mem_timeline built).mpr ⟨e, he, rfl, rfl, rfl, rfl⟩
  obtain ⟨j, stop⟩ := List.mem_iff_getElem?.mp stop
  have later : e.start < e.stop := by
    have := lasting e he
    rw [NoteEvent.stop]
    omega
  exact ⟨j, e.stop, 0, Track.lt_of_time_lt start stop later, later, stop⟩

/-- Events that all start and stop at one tick leave every start without a stop after it. -/
theorem hangs_of_instant (built : Track.ofEvents tempo events = .ok track) (nonempty : events ≠ [])
    {t : Nat} (instant : ∀ e ∈ events, e.start = t ∧ e.stop = t) : track.Hangs := by
  constructor
  · obtain ⟨e, he⟩ := List.exists_mem_of_ne_nil events nonempty
    exact ⟨e.start, e.channel, e.pitch, e.velocity,
      (start_mem_timeline built).mpr ⟨e, he, rfl, rfl, rfl, rfl⟩⟩
  · intro i a c p v start j b d q w stop
    obtain ⟨e, he, rfl, -⟩ := (start_mem_timeline built).mp (List.mem_of_getElem? start)
    obtain ⟨f, hf, rfl, -⟩ := (stop_mem_timeline built).mp (List.mem_of_getElem? stop)
    rw [(instant e he).1] at start
    rw [(instant f hf).2] at stop
    exact stop_lt_start built start stop

/-- Chords laid out in slots of any number of ticks are released but for slots of none. -/
theorem laid_releases {s : Setting} {tonic : PitchClass} {chords : List Chord}
    {duration velocity : Int} (nonempty : chords ≠ [])
    (laid : eventsFrom s tonic duration velocity 0 chords = .ok events)
    (built : Track.ofEvents tempo events = .ok track) :
    ∃ d : Nat, duration = d ∧ (1 ≤ d → track.Releases) ∧ (d = 0 → track.Hangs) := by
  have filled := eventsFrom_ne_nil nonempty laid
  have placed := eventsFrom_placed laid
  obtain ⟨first, member⟩ := List.exists_mem_of_ne_nil events filled
  refine ⟨first.duration, (placed first member).1, ?_, ?_⟩
  · intro long
    refine releases_of_lasting built fun e he => ?_
    have same := (placed first member).1.symm.trans (placed e he).1
    omega
  · intro short
    refine hangs_of_instant built filled (t := 0) fun e he => ?_
    obtain ⟨lasts, k, begins⟩ := placed e he
    rw [(placed first member).1, short] at lasts begins
    rw [Nat.cast_zero, Int.mul_zero] at begins
    rw [NoteEvent.stop]
    omega

end Built

/-- A progression is released exactly if its slots have a tick at all. Up to half a step of
rounding this is so from a length of one tick on; below that, no start is followed by a stop. -/
theorem releases_iff_tick {s : Setting} {tempo : Quantity} {tonic : PitchClass}
    {chords : List Chord} {track : Track} (nonempty : chords ≠ [])
    (resolution : s.ticksPerBeat = defaultTicksPerBeat)
    (built : progressionTrack s tempo tonic chords = .ok track) :
    ∃ (d : Nat) (b : ℚ), beatTicks s.beats s.ticksPerBeat = .ok d ∧ s.beats.value? = some b ∧
      (1 ≤ d ↔ 1 - 1 / 2 ^ 54 ≤ 480 * b) ∧ (track.Releases ↔ 1 ≤ d) ∧ (d = 0 → track.Hangs) := by
  obtain ⟨events, played, made⟩ := progressionTrack_eq_ok.mp built
  obtain ⟨positive, duration, velocity, length, -, laid⟩ := progressionEvents_eq_ok.mp played
  obtain ⟨d, rfl, long, short⟩ := laid_releases nonempty laid made
  have cut : s.beats.timesWhole 480 = .ok (d : Int) := by
    rw [beatTicks, resolution] at length
    exact length
  obtain ⟨b, exact, threshold⟩ := one_le_ticks_iff positive cut
  have tick : (1 : Int) ≤ d ↔ 1 ≤ d := by omega
  rw [tick] at threshold
  refine ⟨d, b, length, exact, threshold, ⟨fun releases => ?_, long⟩, short⟩
  by_contra none
  exact (short (by omega)).not_releases releases

/-- Two chords of one tick each, of a length that is rounded itself. -/
theorem releases_iff_tick_shortest :
    ∃ track, progressionTrack { beats := .real (Binary64.ofRatio false 1 480) } (.whole 120) 0
        [⟨.ionian, .one, none, none⟩, ⟨.ionian, .five, none, none⟩] = .ok track ∧
      track.Releases := by
  obtain ⟨events, laid⟩ : ∃ events, progressionEvents
      { beats := .real (Binary64.ofRatio false 1 480) } 0
      [⟨.ionian, .one, none, none⟩, ⟨.ionian, .five, none, none⟩] = .ok events :=
    ⟨[⟨60, 0, 1, 101, 0⟩, ⟨64, 0, 1, 101, 0⟩, ⟨67, 0, 1, 101, 0⟩,
      ⟨67, 1, 1, 101, 0⟩, ⟨71, 1, 1, 101, 0⟩, ⟨74, 1, 1, 101, 0⟩], by decide⟩
  obtain ⟨track, made⟩ : ∃ track, Track.ofEvents (.whole 120) events = .ok track := ⟨_, rfl⟩
  have built := progressionTrack_eq_ok.mpr ⟨events, laid, made⟩
  have slot : beatTicks (.real (Binary64.ofRatio false 1 480)) 480 = .ok ((1 : Nat) : Int) := by
    decide
  obtain ⟨d, b, cut, -, -, released, -⟩ := releases_iff_tick (by decide) (by rfl) built
  have one : (d : Int) = (1 : Nat) := Except.ok.inj (cut.symm.trans slot)
  exact ⟨track, built, released.mpr (by omega)⟩

/-- A chord of a positive length of less than a tick: its notes start and never stop. -/
theorem short_chord_hangs :
    (Quantity.real (Binary64.ofRatio false 1 1024)).nonPositive = false ∧
      ∃ track, progressionTrack { beats := .real (Binary64.ofRatio false 1 1024) } (.whole 120) 0
          [⟨.ionian, .one, none, none⟩] = .ok track ∧ ¬ track.Releases := by
  have laid : progressionEvents { beats := .real (Binary64.ofRatio false 1 1024) } 0
      [⟨.ionian, .one, none, none⟩] =
        .ok [⟨60, 0, 0, 101, 0⟩, ⟨64, 0, 0, 101, 0⟩, ⟨67, 0, 0, 101, 0⟩] := by decide
  obtain ⟨track, made⟩ : ∃ track, Track.ofEvents (.whole 120)
      [⟨60, 0, 0, 101, 0⟩, ⟨64, 0, 0, 101, 0⟩, ⟨67, 0, 0, 101, 0⟩] = .ok track := ⟨_, rfl⟩
  have hangs : track.Hangs := hangs_of_instant made (by decide) (t := 0) (by decide)
  exact ⟨by decide, track, progressionTrack_eq_ok.mpr ⟨_, laid, made⟩, hangs.not_releases⟩

end ChordSymbols
