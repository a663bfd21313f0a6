import ChordSymbols.Proofs.Tool.ChordNotes

/-!
# Blanks around a tonic

A tonic is read without the blanks at its ends, but whether it asks for flats is
told by the characters after its first as it was given. The two readings part
for one name alone: in a small `b` with a blank in front of it the letter itself
is taken for a flat sign. Then every answer is another text, since every chord
over that tonic has a note between the plain letters; for all other tonics the
blanks do not matter.
-/

namespace ChordSymbols

/-- A small `b` with at least one blank in front. -/
def IsIndentedB (t : Text) : Prop :=
  ∃ before after, before ≠ [] ∧ (∀ c ∈ before, isBlank c = true) ∧
    (∀ c ∈ after, isBlank c = true) ∧ t = before ++ 'b' :: after

section Signs

variable {t : Text}

theorem prefersFlats_iff : prefersFlats t = true ↔ 'b' ∈ t.tail := by
  simp [prefersFlats]

namespace IsIndentedB

theorem strip_eq (indented : IsIndentedB t) : strip t = ['b'] := by
  obtain ⟨before, after, -, front, back, rfl⟩ := indented
  exact strip_eq_iff.mpr ⟨by decide, before, after, by simp, front, back⟩

/-- As it was given it asks for flats, -/
theorem flats (indented : IsIndentedB t) : prefersFlats t = true := by
  obtain ⟨before, after, filled, -, -, rfl⟩ := indented
  obtain ⟨c, cs, rfl⟩ := List.exists_cons_of_ne_nil filled
  simp [prefersFlats_iff]

/-- and without its blanks it does not. -/
theorem sharps (indented : IsIndentedB t) : prefersFlats (strip t) = false := by
  rw [indented.strip_eq]
  rfl

end IsIndentedB

theorem not_mem_of_blank {blanks : Text} (blank : ∀ c ∈ blanks, isBlank c = true) :
    'b' ∉ blanks := by
  intro letter
  exact absurd (blank 'b' letter) (by decide)

/-- Only a blank in front can bring the first letter of a text behind the first place. -/
theorem mem_tail_padded {before after s : Text} (front : ∀ c ∈ before, isBlank c = true)
    (back : ∀ c ∈ after, isBlank c = true) :
    'b' ∈ (before ++ s ++ after).tail ↔ if before = [] then 'b' ∈ s.tail else 'b' ∈ s := by
  have ahead := not_mem_of_blank front
  have behind := not_mem_of_blank back
  cases before with
  | nil =>
    cases s with
    | nil => simpa using fun letter => behind (List.mem_of_mem_tail letter)
    | cons c s => simp [behind]
  | cons c before =>
    rw [List.mem_cons, not_or] at ahead
    simp [ahead.2, behind]

theorem prefersFlats_strip {p : PitchClass} (named : p.NamedBy (strip t)) :
    prefersFlats t = prefersFlats (strip t) ↔ ¬ IsIndentedB t := by
  constructor
  · intro same indented
    rw [indented.flats, indented.sharps] at same
    cases same
  · intro other
    obtain ⟨before, after, cut, front, back⟩ := pads_strip t
    have given := mem_tail_padded (s := strip t) front back
    rw [← cut] at given
    rw [Bool.eq_iff_iff, prefersFlats_iff, prefersFlats_iff, given]
    by_cases flush : before = []
    · rw [if_pos flush]
    · rw [if_neg flush]
      refine ⟨fun letter => ?_, List.mem_of_mem_tail⟩
      rcases named.flat_or_small letter with sign | small
      · exact sign
      · rw [small, List.append_assoc] at cut
        exact absurd ⟨before, after, flush, front, back, cut⟩ other

end Signs

/-- The names of a chord over `B`, as they are written. -/
def namesOverB (flats : Bool) (offsets : List Nat) : Text :=
  jsonItems ((offsets.map fun o : Nat => PitchClass.transpose 11 o).map
    fun p => .text (p.spell flats))

/-- Every chord over `B` has a note that is written with a sign. -/
theorem namesOverB_offsets (c : Chord) : namesOverB true c.offsets ≠ namesOverB false c.offsets := by
  have table : ∀ k < 7, ∀ n ∈ [3, 4],
      namesOverB true ((thirds k n).map (· % 12)) ≠
        namesOverB false ((thirds k n).map (· % 12)) := by decide
  have start : c.rootStep < 7 := Nat.mod_lt _ (by decide)
  have size : c.sounding.length ∈ [3, 4] := by
    rcases c.sounding_cases with three | four
    · rw [three]
      decide
    · rw [four]
      decide
  rw [c.offsets_eq_thirds]
  exact table c.rootStep start c.sounding.length size

/-- The two spellings of an answer over `B` are two texts. -/
theorem notesAnswer_signs (symbol : Text) (c : Chord) (notes : List Int) :
    (notesAnswer symbol c 11 true notes).json ≠ (notesAnswer symbol c 11 false notes).json := by
  intro same
  have tonic : PitchClass.spell true 11 = PitchClass.spell false 11 := rfl
  apply namesOverB_offsets c
  -- All other fields are written alike, before the names and behind them.
  simp only [notesAnswer, success, Value.json, jsonFields, tonic, List.cons_append,
    List.append_assoc, List.cons.injEq, true_and, List.append_cancel_left_eq,
    List.append_cancel_right_eq] at same
  exact same

/-- An answer is the same for a tonic with and without the blanks at its ends, except for an answer
of success over a small `b` with a blank in front. -/
theorem stripped_tonic_same_text_iff (symbol tonic : Text) (octave : Int) :
    (chordNotesReply (.text symbol) (.text tonic) octave).text =
        (chordNotesReply (.text symbol) (.text (strip tonic)) octave).text ↔
      ¬ (IsIndentedB tonic ∧ (chordNotesReply (.text symbol) (.text tonic) octave).Succeeds) := by
  constructor
  · rintro same ⟨indented, succeeds⟩
    obtain ⟨c, root, notes, parsed, keyed, voiced⟩ := chordNotes_succeeds_iff.mp succeeds
    have keyed' := (PitchClass.parse_strip tonic).trans keyed
    have root_eq : root = 11 := by
      rw [indented.strip_eq] at keyed'
      exact (Except.ok.inj keyed').symm
    subst root_eq
    rw [Reply.text, Reply.text, chordNotes_voiced parsed keyed voiced,
      chordNotes_voiced parsed keyed' voiced, indented.flats, indented.sharps] at same
    exact notesAnswer_signs symbol c notes same
  · intro other
    rw [Reply.text, Reply.text]
    refine congrArg Value.json (chordNotes_answer_congr (PitchClass.parse_strip tonic).symm ?_)
    intro succeeds
    obtain ⟨c, root, notes, -, keyed, -⟩ := chordNotes_succeeds_iff.mp succeeds
    have named := PitchClass.parse_eq_ok.mp keyed
    exact (prefersFlats_strip named).mpr fun indented => other ⟨indented, succeeds⟩

/-- With a blank in front of the tonic the triad of `B` is written in flats, without it in sharps. -/
theorem padded_tonic_changes_names :
    strip [' ', 'b'] = ['b'] ∧
      (chordNotesReply (.text ['1']) (.text [' ', 'b']) 4).answer.field? "names" =
        some (.list [.text ['B'], .text ['E', 'b'], .text ['G', 'b']]) ∧
      (chordNotesReply (.text ['1']) (.text ['b']) 4).answer.field? "names" =
        some (.list [.text ['B'], .text ['D', '#'], .text ['F', '#']]) ∧
      (chordNotesReply (.text ['1']) (.text [' ', 'b']) 4).text ≠
        (chordNotesReply (.text ['1']) (.text (strip [' ', 'b'])) 4).text :=
  ⟨by decide, rfl, rfl, by decide⟩

end ChordSymbols
