import ChordSymbols.Playback.Layout
import ChordSymbols.Proofs.Harmony.Voicing
import ChordSymbols.Proofs.Traversal

/-!
# The events of a progression

What it means for events to be built: integers in range for one event, a voicing
in range for the events of a chord, and both for all chords in a row.
-/

namespace ChordSymbols

/-- An event is built from exactly the integers that it holds. -/
theorem NoteEvent.ofInts_eq_ok {pitch start duration velocity channel : Int} {e : NoteEvent} :
    NoteEvent.ofInts pitch start duration velocity channel = .ok e ↔
      pitch = e.pitch.val ∧ start = e.start ∧ duration = e.duration ∧
        velocity = e.velocity.val ∧ channel = e.channel.val := by
  constructor
  · intro built
    rw [ofInts] at built
    split at built
    · cases built
    · cases built
    · cases built
    · rename_i p v c hp hv hc
      split at built
      · cases built
      · split at built
        · cases built
        · cases built
          have begins : start = start.toNat := by omega
          have lasts : duration = duration.toNat := by omega
          exact ⟨below?_eq_some_iff.mp hp, begins, lasts, below?_eq_some_iff.mp hv,
            below?_eq_some_iff.mp hc⟩
  · rintro ⟨rfl, rfl, rfl, rfl, rfl⟩
    have hp := below?_eq_some_iff.mpr (rfl : (e.pitch.val : Int) = e.pitch.val)
    have hv := below?_eq_some_iff.mpr (rfl : (e.velocity.val : Int) = e.velocity.val)
    have hc := below?_eq_some_iff.mpr (rfl : (e.channel.val : Int) = e.channel.val)
    have starts : ¬ (e.start : Int) < 0 := by omega
    have lasts : ¬ (e.duration : Int) < 0 := by omega
    rw [ofInts, hp, hv, hc]
    exact (if_neg starts).trans (if_neg lasts)

/-- Integers in their ranges build an event. -/
theorem NoteEvent.ofInts_ok {pitch start duration velocity channel : Int}
    (note : 0 ≤ pitch ∧ pitch ≤ 127) (begins : 0 ≤ start) (lasts : 0 ≤ duration)
    (loud : 0 ≤ velocity ∧ velocity ≤ 127) (track : 0 ≤ channel ∧ channel ≤ 15) :
    ∃ e, NoteEvent.ofInts pitch start duration velocity channel = .ok e := by
  refine ⟨⟨⟨pitch.toNat, by omega⟩, start.toNat, duration.toNat, ⟨velocity.toNat, by omega⟩,
    ⟨channel.toNat, by omega⟩⟩, NoteEvent.ofInts_eq_ok.mpr ?_⟩
  simp only
  omega

section Laying

variable {s : Setting} {tonic : PitchClass} {duration velocity : Int} {es : List NoteEvent}

/-- The events of a chord are those of its voicing, one for each note. -/
theorem chordEvents_eq_ok {start : Int} {c : Chord} :
    chordEvents s tonic start duration velocity c = .ok es ↔
      ∃ notes, c.voicing tonic s.octave = .ok notes ∧ List.Forall₂ (fun n e =>
        NoteEvent.ofInts n start duration velocity s.channel = .ok e) notes es := by
  rw [chordEvents, bind_eq_ok]
  simp only [mapError_eq_ok, mapM_eq_ok]

theorem eventsFrom_cons {i : Nat} {c : Chord} {cs : List Chord} :
    eventsFrom s tonic duration velocity i (c :: cs) = .ok es ↔
      ∃ now later, chordEvents s tonic (i * duration) duration velocity c = .ok now ∧
        eventsFrom s tonic duration velocity (i + 1) cs = .ok later ∧ es = now ++ later := by
  rw [eventsFrom, bind_eq_ok]
  constructor
  · rintro ⟨now, first, h⟩
    obtain ⟨later, rest, h⟩ := bind_eq_ok.mp h
    cases h
    exact ⟨now, later, first, rest, rfl⟩
  · rintro ⟨now, later, first, rest, rfl⟩
    exact ⟨now, first, bind_eq_ok.mpr ⟨later, rest, rfl⟩⟩

/-- Chords that are all voiced are laid out, for a length, a velocity and a channel in range. -/
theorem eventsFrom_ok {i : Nat} {cs : List Chord}
    (voiced : ∀ c ∈ cs, ∃ notes, c.voicing tonic s.octave = .ok notes) (lasts : 0 ≤ duration)
    (loud : 0 ≤ velocity ∧ velocity ≤ 127) (channel : 0 ≤ s.channel ∧ s.channel ≤ 15) :
    ∃ es, eventsFrom s tonic duration velocity i cs = .ok es := by
  induction cs generalizing i with
  | nil => exact ⟨[], rfl⟩
  | cons c cs ih =>
    obtain ⟨notes, chord⟩ := voiced c List.mem_cons_self
    have begins : 0 ≤ (i : Int) * duration := Int.mul_nonneg (Int.natCast_nonneg i) lasts
    have range := (Chord.voicing_eq_ok.mp chord).2
    obtain ⟨now, built⟩ := mapM_succeeds_iff.mpr fun n hn =>
      NoteEvent.ofInts_ok (range n hn) begins lasts loud channel
    have first : chordEvents s tonic (i * duration) duration velocity c = .ok now :=
      chordEvents_eq_ok.mpr ⟨notes, chord, mapM_eq_ok.mp built⟩
    obtain ⟨later, rest⟩ := ih (i := i + 1) fun b hb => voiced b (List.mem_cons_of_mem c hb)
    exact ⟨now ++ later, eventsFrom_cons.mpr ⟨now, later, first, rest, rfl⟩⟩

theorem eventsFrom_voiced {i : Nat} {cs : List Chord}
    (laid : eventsFrom s tonic duration velocity i cs = .ok es) :
    ∀ c ∈ cs, ∃ notes, c.voicing tonic s.octave = .ok notes := by
  induction cs generalizing i es with
  | nil => simp
  | cons c cs ih =>
    obtain ⟨now, later, first, rest, rfl⟩ := eventsFrom_cons.mp laid
    intro b hb
    rcases List.mem_cons.mp hb with rfl | hb
    · obtain ⟨notes, voiced, -⟩ := chordEvents_eq_ok.mp first
      exact ⟨notes, voiced⟩
    · exact ih rest b hb

/-- The events of a chord fill one slot. -/
theorem chordEvents_placed {start : Int} {c : Chord}
    (played : chordEvents s tonic start duration velocity c = .ok es) :
    ∀ e ∈ es, start = e.start ∧ duration = e.duration := by
  obtain ⟨notes, -, events⟩ := chordEvents_eq_ok.mp played
  clear played
  induction events with
  | nil => simp
  | @cons n e ns es made rest ih =>
    intro b hb
    rcases List.mem_cons.mp hb with rfl | hb
    · obtain ⟨-, begins, lasts, -⟩ := NoteEvent.ofInts_eq_ok.mp made
      exact ⟨begins, lasts⟩
    · exact ih b hb

theorem chordEvents_ne_nil {start : Int} {c : Chord}
    (played : chordEvents s tonic start duration velocity c = .ok es) : es ≠ [] := by
  obtain ⟨notes, voiced, events⟩ := chordEvents_eq_ok.mp played
  rintro rfl
  rw [List.forall₂_nil_right_iff] at events
  subst events
  exact c.closePosition_ne_nil tonic s.octave (Chord.closePosition_of_voicing voiced)

/-- Slots follow one another, all of one length. -/
theorem eventsFrom_placed {i : Nat} {cs : List Chord}
    (laid : eventsFrom s tonic duration velocity i cs = .ok es) :
    ∀ e ∈ es, duration = e.duration ∧ ∃ k : Nat, (e.start : Int) = k * duration := by
  induction cs generalizing i es with
  | nil =>
    cases laid
    simp
  | cons c cs ih =>
    obtain ⟨now, later, first, rest, rfl⟩ := eventsFrom_cons.mp laid
    intro e he
    rcases List.mem_append.mp he with he | he
    · obtain ⟨begins, lasts⟩ := chordEvents_placed first e he
      exact ⟨lasts, i, begins.symm⟩
    · exact ih rest e he

theorem eventsFrom_ne_nil {i : Nat} {cs : List Chord} (nonempty : cs ≠ [])
    (laid : eventsFrom s tonic duration velocity i cs = .ok es) : es ≠ [] := by
  cases cs with
  | nil => exact absurd rfl nonempty
  | cons c cs =>
    obtain ⟨now, later, first, rest, rfl⟩ := eventsFrom_cons.mp laid
    exact List.append_ne_nil_of_left_ne_nil (chordEvents_ne_nil first) later

theorem progressionEvents_eq_ok {chords : List Chord} :
    progressionEvents s tonic chords = .ok es ↔ s.beats.nonPositive = false ∧
      ∃ duration velocity, beatTicks s.beats s.ticksPerBeat = .ok duration ∧
        velocityOf s.loudness = .ok velocity ∧
        eventsFrom s tonic duration velocity 0 chords = .ok es := by
  rw [progressionEvents]
  cases s.beats.nonPositive with
  | true => simp
  | false => simp [bind_eq_ok, mapError_eq_ok]

theorem progressionTrack_eq_ok {tempo : Quantity} {chords : List Chord} {track : Track} :
    progressionTrack s tempo tonic chords = .ok track ↔
      ∃ es, progressionEvents s tonic chords = .ok es ∧ Track.ofEvents tempo es = .ok track := by
  rw [progressionTrack, bind_eq_ok]
  simp only [mapError_eq_ok]

end Laying

end ChordSymbols
