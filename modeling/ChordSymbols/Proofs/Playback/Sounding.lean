import ChordSymbols.Proofs.Playback.Laying
import ChordSymbols.Proofs.Playback.Replay

/-!
# What a progression sounds like

The chords of a progression take slots of equal length. Slots do not overlap,
and where one ends its stops are counted before the starts of the next, so at
every tick exactly the notes of the chord of its slot are on, each of them once,
and after the last slot none are.
-/

namespace ChordSymbols

/-- The notes of a slot, with the first chord in slot 0. -/
def slotNotes (s : Setting) (tonic : PitchClass) (chords : List Chord) (slot : Nat) : List Int :=
  match chords[slot]? with
  | some c => c.closePosition tonic s.octave
  | none => []

section Slots

variable {s : Setting} {tonic : PitchClass} {velocity : Int} {es : List NoteEvent}

theorem slotNotes_cons_zero (c : Chord) (cs : List Chord) :
    slotNotes s tonic (c :: cs) 0 = c.closePosition tonic s.octave := rfl

theorem slotNotes_cons_succ (c : Chord) (cs : List Chord) (slot : Nat) :
    slotNotes s tonic (c :: cs) (slot + 1) = slotNotes s tonic cs slot := rfl

theorem NoteEvent.sounds_of_ofInts {n : Int} {start duration : Nat} {channel : Int} {e : NoteEvent}
    (made : NoteEvent.ofInts n start duration velocity channel = .ok e) (t : Nat) (q : Int) :
    e.sounds (hasPitch q) t = true ↔ (start ≤ t ∧ t < start + duration) ∧ n = q := by
  obtain ⟨pitch, begins, lasts, -, -⟩ := NoteEvent.ofInts_eq_ok.mp made
  have beginsAt : e.start = start := by omega
  have stopsAt : e.stop = start + duration := by
    rw [NoteEvent.stop]
    omega
  simp only [NoteEvent.sounds, hasPitch, beginsAt, stopsAt, pitch, Bool.and_eq_true,
    decide_eq_true_eq]
  constructor
  · rintro ⟨same, inside⟩
    exact ⟨inside, same.symm⟩
  · rintro ⟨inside, same⟩
    exact ⟨same.symm, inside⟩

/-- The notes of a chord sound in its slot, each as often as it is voiced. -/
theorem countP_chordEvents_inside {start duration : Nat} {c : Chord}
    (played : chordEvents s tonic start duration velocity c = .ok es) {t : Nat}
    (begun : start ≤ t) (lasting : t < start + duration) (q : Int) :
    es.countP (NoteEvent.sounds (hasPitch q) t) = (c.closePosition tonic s.octave).count q := by
  obtain ⟨notes, voiced, events⟩ := chordEvents_eq_ok.mp played
  rw [Chord.closePosition_of_voicing voiced]
  clear played voiced
  induction events with
  | nil => rfl
  | @cons n e ns es made rest ih =>
    have sounding := NoteEvent.sounds_of_ofInts made t q
    rw [List.countP_cons, List.count_cons, ih]
    by_cases same : n = q
    · rw [if_pos (sounding.mpr ⟨⟨begun, lasting⟩, same⟩), if_pos (beq_iff_eq.mpr same)]
    · have silent : ¬ e.sounds (hasPitch q) t = true := fun h => same (sounding.mp h).2
      rw [if_neg silent, if_neg (fun h => same (beq_iff_eq.mp h))]

theorem countP_chordEvents_outside {start duration : Nat} {c : Chord}
    (played : chordEvents s tonic start duration velocity c = .ok es) {t : Nat}
    (outside : t < start ∨ start + duration ≤ t) (q : Int) :
    es.countP (NoteEvent.sounds (hasPitch q) t) = 0 := by
  obtain ⟨notes, -, events⟩ := chordEvents_eq_ok.mp played
  rw [List.countP_eq_zero]
  clear played
  induction events with
  | nil => simp
  | @cons n e ns es made rest ih =>
    intro b hb
    rcases List.mem_cons.mp hb with rfl | hb
    · intro sounding
      have inside := ((NoteEvent.sounds_of_ofInts made t q).mp sounding).1
      omega
    · exact ih b hb

/-- Nothing sounds before the first slot. -/
theorem countP_eventsFrom_before {i d : Nat} {cs : List Chord}
    (laid : eventsFrom s tonic d velocity i cs = .ok es) {t : Nat} (early : t < i * d) (q : Int) :
    es.countP (NoteEvent.sounds (hasPitch q) t) = 0 := by
  induction cs generalizing i es with
  | nil =>
    cases laid
    rfl
  | cons c cs ih =>
    obtain ⟨now, later, first, rest, rfl⟩ := eventsFrom_cons.mp laid
    rw [← Int.natCast_mul] at first
    have next : (i + 1) * d = i * d + d := Nat.succ_mul i d
    rw [List.countP_append, countP_chordEvents_outside first (.inl early),
      ih rest (by omega)]

/-- At every tick the notes of its slot sound. -/
theorem countP_eventsFrom {i d : Nat} {cs : List Chord} (long : 0 < d)
    (laid : eventsFrom s tonic d velocity i cs = .ok es) (u : Nat) (q : Int) :
    es.countP (NoteEvent.sounds (hasPitch q) (i * d + u)) =
      (slotNotes s tonic cs (u / d)).count q := by
  induction cs generalizing i es u with
  | nil =>
    cases laid
    rfl
  | cons c cs ih =>
    obtain ⟨now, later, first, rest, rfl⟩ := eventsFrom_cons.mp laid
    rw [← Int.natCast_mul] at first
    have next : (i + 1) * d = i * d + d := Nat.succ_mul i d
    rw [List.countP_append]
    by_cases inside : u < d
    · have slot : u / d = 0 := Nat.div_eq_of_lt inside
      rw [countP_chordEvents_inside first (by omega) (by omega),
        countP_eventsFrom_before rest (by omega), slot, slotNotes_cons_zero, Nat.add_zero]
    · obtain ⟨v, rfl⟩ : ∃ v, u = d + v := ⟨u - d, by omega⟩
      have slot : (d + v) / d = v / d + 1 := Nat.add_div_left v long
      have shift : i * d + (d + v) = (i + 1) * d + v := by omega
      rw [countP_chordEvents_outside first (.inr (by omega)), shift, ih rest v, slot,
        slotNotes_cons_succ, Nat.zero_add]

end Slots

/-- Replayed, a progression has on at every tick of its slot `i` the notes of its
chord `i`, once each, and from the end of its last slot on no note at all. -/
theorem progression_plays_its_chords {s : Setting} {tonic : PitchClass} {chords : List Chord}
    {tempo : Quantity} {events : List NoteEvent} {track : Track} {d : Nat}
    (laid : progressionEvents s tonic chords = .ok events)
    (built : Track.ofEvents tempo events = .ok track)
    (slot : beatTicks s.beats s.ticksPerBeat = .ok (d : Int)) (long : 1 ≤ d) :
    (∀ (i : Nat) (hi : i < chords.length) (t : Nat), i * d ≤ t → t < (i + 1) * d →
      ∃ notes, chords[i].voicing tonic s.octave = .ok notes ∧
        ∀ p : Int, track.countsAt t p = if p ∈ notes then 1 else 0) ∧
      ∀ t, chords.length * d ≤ t → ∀ p : Int, track.countsAt t p = 0 := by
  obtain ⟨-, duration, velocity, length, -, placed⟩ := progressionEvents_eq_ok.mp laid
  obtain rfl : duration = d := Except.ok.inj (length.symm.trans slot)
  have counts (t : Nat) (p : Int) :
      track.countsAt t p = (slotNotes s tonic chords (t / d)).count p := by
    have placedAt := countP_eventsFrom long placed t p
    rw [Nat.zero_mul, Nat.zero_add] at placedAt
    rw [countsAt_ofEvents built, placedAt]
  constructor
  · intro i hi t begun lasting
    obtain ⟨notes, voiced⟩ := eventsFrom_voiced placed chords[i] (List.getElem_mem hi)
    have inSlot : t / d = i := Nat.div_eq_of_lt_le begun lasting
    have here : slotNotes s tonic chords (t / d) = notes := by
      rw [inSlot, slotNotes, List.getElem?_eq_getElem hi]
      exact Chord.closePosition_of_voicing voiced
    have once : notes.Nodup := by
      rw [← Chord.closePosition_of_voicing voiced]
      exact chords[i].closePosition_nodup tonic s.octave
    refine ⟨notes, voiced, fun p => ?_⟩
    rw [counts, here, once.count]
    split
    · rfl
    · rfl
  · intro t past p
    have beyond : chords.length ≤ t / d := (Nat.le_div_iff_mul_le long).mpr past
    have none : slotNotes s tonic chords (t / d) = [] := by
      rw [slotNotes, List.getElem?_eq_none beyond]
    rw [counts, none]
    rfl

/-- The fifth of the first chord is the root of the second: it stops and starts again. -/
theorem progression_plays_its_chords_common_note :
    ∃ events track,
      progressionEvents { beats := .whole 1, loudness := .whole 1 } 0
        [⟨.ionian, .one, none, none⟩, ⟨.ionian, .five, none, none⟩] = .ok events ∧
      Track.ofEvents (.whole 120) events = .ok track ∧
      beatTicks (.whole 1) 480 = .ok ((480 : Nat) : Int) ∧
      (∀ p : Int, track.countsAt 479 p = if p ∈ ([60, 64, 67] : List Int) then 1 else 0) ∧
      (∀ p : Int, track.countsAt 480 p = if p ∈ ([67, 71, 74] : List Int) then 1 else 0) ∧
      ∀ p : Int, track.countsAt 960 p = 0 := by
  obtain ⟨events, laid⟩ : ∃ events, progressionEvents { beats := .whole 1, loudness := .whole 1 } 0
      [⟨.ionian, .one, none, none⟩, ⟨.ionian, .five, none, none⟩] = .ok events :=
    ⟨[⟨60, 0, 480, 127, 0⟩, ⟨64, 0, 480, 127, 0⟩, ⟨67, 0, 480, 127, 0⟩,
      ⟨67, 480, 480, 127, 0⟩, ⟨71, 480, 480, 127, 0⟩, ⟨74, 480, 480, 127, 0⟩], by decide⟩
  obtain ⟨track, built⟩ : ∃ track, Track.ofEvents (.whole 120) events = .ok track := ⟨_, rfl⟩
  have slot : beatTicks (.whole 1) 480 = .ok ((480 : Nat) : Int) := rfl
  obtain ⟨during, after⟩ := progression_plays_its_chords laid built slot (by decide)
  obtain ⟨first, voiced, firstCounts⟩ := during 0 (by decide) 479 (by decide) (by decide)
  obtain ⟨second, voicedNext, secondCounts⟩ := during 1 (by decide) 480 (by decide) (by decide)
  cases voiced
  cases voicedNext
  exact ⟨events, track, laid, built, slot, firstCounts, secondCounts, after 960 (by decide)⟩

end ChordSymbols
