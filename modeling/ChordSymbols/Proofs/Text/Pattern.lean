import ChordSymbols.Text.Pattern

/-!
# What a pattern takes

The texts of a pattern are given by sequence, choice and repetition. What is left
of a pattern after a character has the rests of those that begin with it. So to
try a text one character at a time is to decide whether it is among them.
-/

namespace ChordSymbols

namespace Pattern

/-- The texts of a pattern. -/
inductive Matches : Pattern → Text → Prop where
  | nothing : Matches .nothing []
  | one {p : Char → Bool} {c : Char} (fits : p c = true) : Matches (.one p) [c]
  | seq {a b : Pattern} {s t : Text} (front : Matches a s) (back : Matches b t) :
      Matches (.seq a b) (s ++ t)
  | left {a b : Pattern} {t : Text} (taken : Matches a t) : Matches (.either a b) t
  | right {a b : Pattern} {t : Text} (taken : Matches b t) : Matches (.either a b) t
  | done {a : Pattern} : Matches (.many a) []
  | again {a : Pattern} {s t : Text} (first : Matches a s) (rest : Matches (.many a) t) :
      Matches (.many a) (s ++ t)

variable {a b r : Pattern} {c : Char} {t : Text}

theorem matches_nothing : nothing.Matches t ↔ t = [] := by
  constructor
  · rintro ⟨⟩
    rfl
  · rintro rfl
    exact .nothing

theorem matches_one {p : Char → Bool} : (one p).Matches t ↔ ∃ c, t = [c] ∧ p c = true := by
  constructor
  · rintro ⟨⟩
    exact ⟨_, rfl, ‹_›⟩
  · rintro ⟨c, rfl, fits⟩
    exact .one fits

theorem matches_seq :
    (seq a b).Matches t ↔ ∃ u v, t = u ++ v ∧ a.Matches u ∧ b.Matches v := by
  constructor
  · rintro ⟨⟩
    exact ⟨_, _, rfl, ‹_›, ‹_›⟩
  · rintro ⟨u, v, rfl, front, back⟩
    exact .seq front back

theorem matches_either : (either a b).Matches t ↔ a.Matches t ∨ b.Matches t := by
  constructor
  · rintro (_ | _)
    · exact .inl ‹_›
    · exact .inr ‹_›
  · rintro (taken | taken)
    · exact .left taken
    · exact .right taken

theorem matches_one_cons {p : Char → Bool} : (one p).Matches (c :: t) ↔ t = [] ∧ p c = true := by
  rw [matches_one]
  constructor
  · rintro ⟨d, same, fits⟩
    cases same
    exact ⟨rfl, fits⟩
  · rintro ⟨rfl, fits⟩
    exact ⟨c, rfl, fits⟩

/-- A character is taken by the first part, or by the second if the first takes nothing. -/
theorem matches_seq_cons :
    (seq a b).Matches (c :: t) ↔
      (∃ u v, t = u ++ v ∧ a.Matches (c :: u) ∧ b.Matches v) ∨
        a.Matches [] ∧ b.Matches (c :: t) := by
  rw [matches_seq]
  constructor
  · rintro ⟨u, v, parted, front, back⟩
    cases u with
    | nil =>
      rw [List.nil_append] at parted
      exact .inr ⟨front, parted ▸ back⟩
    | cons d u =>
      cases parted
      exact .inl ⟨u, v, rfl, front, back⟩
  · rintro (⟨u, v, rfl, front, back⟩ | ⟨front, back⟩)
    · exact ⟨c :: u, v, rfl, front, back⟩
    · exact ⟨[], c :: t, rfl, front, back⟩

/-- The first turn of a repetition that takes something begins with the text. -/
theorem matches_many_cons :
    (many a).Matches (c :: t) ↔ ∃ u v, t = u ++ v ∧ a.Matches (c :: u) ∧ (many a).Matches v := by
  constructor
  · intro taken
    generalize whole : many a = r at taken
    generalize text : c :: t = w at taken
    induction taken with
    | done => cases text
    | @again a' s w first rest _ ih =>
      cases whole
      cases s with
      | nil => exact ih rfl text
      | cons d s =>
        cases text
        exact ⟨s, w, rfl, first, rest⟩
    | _ => cases whole
  · rintro ⟨u, v, rfl, first, rest⟩
    exact .again first rest

theorem takesEmpty_iff : r.takesEmpty = true ↔ r.Matches [] := by
  induction r with
  | never => exact ⟨(nomatch ·), (nomatch ·)⟩
  | nothing => exact ⟨fun _ => .nothing, fun _ => rfl⟩
  | one p => exact ⟨(nomatch ·), fun taken => by simp [matches_one] at taken⟩
  | seq a b iha ihb =>
    rw [takesEmpty, Bool.and_eq_true, iha, ihb, matches_seq]
    constructor
    · rintro ⟨front, back⟩
      exact ⟨[], [], rfl, front, back⟩
    · rintro ⟨u, v, empty, front, back⟩
      obtain ⟨rfl, rfl⟩ := List.append_eq_nil_iff.mp empty.symm
      exact ⟨front, back⟩
  | either a b iha ihb => rw [takesEmpty, Bool.or_eq_true, iha, ihb, matches_either]
  | many a _ => exact ⟨fun _ => .done, fun _ => rfl⟩

theorem not_matches_never : ¬ never.Matches t :=
  (nomatch ·)

theorem matches_followedBy : (a.followedBy b).Matches t ↔ (seq a b).Matches t := by
  cases a with
  | never =>
    rw [followedBy, matches_seq]
    constructor
    · intro taken
      exact absurd taken not_matches_never
    · rintro ⟨u, v, -, front, -⟩
      exact absurd front not_matches_never
  | nothing =>
    rw [followedBy, matches_seq]
    constructor
    · intro taken
      exact ⟨[], t, rfl, .nothing, taken⟩
    · rintro ⟨u, v, rfl, front, back⟩
      rw [matches_nothing.mp front]
      exact back
  | _ => exact Iff.rfl

/-- Where the rests of a first part are known, so are those of the parts in sequence. -/
theorem matches_followedBy_after (rests : ∀ {u}, (a.after c).Matches u ↔ a.Matches (c :: u)) :
    ((a.after c).followedBy b).Matches t ↔
      ∃ u v, t = u ++ v ∧ a.Matches (c :: u) ∧ b.Matches v := by
  rw [matches_followedBy, matches_seq]
  constructor
  · rintro ⟨u, v, parted, front, back⟩
    exact ⟨u, v, parted, rests.mp front, back⟩
  · rintro ⟨u, v, parted, front, back⟩
    exact ⟨u, v, parted, rests.mpr front, back⟩

theorem matches_orElse : (a.orElse b).Matches t ↔ a.Matches t ∨ b.Matches t := by
  rw [orElse.eq_def]
  split
  · simp [not_matches_never]
  · simp [not_matches_never]
  · exact matches_either

/-- What is left after a character has the rests of the texts that begin with it. -/
theorem matches_after : (r.after c).Matches t ↔ r.Matches (c :: t) := by
  induction r generalizing t with
  | never => exact ⟨(nomatch ·), (nomatch ·)⟩
  | nothing => exact ⟨(nomatch ·), (nomatch ·)⟩
  | one p =>
    rw [after, matches_one_cons]
    by_cases fits : p c = true
    · rw [if_pos fits, matches_nothing]
      exact (and_iff_left fits).symm
    · rw [if_neg fits]
      exact iff_of_false not_matches_never fun taken => fits taken.2
  | seq a b iha ihb =>
    rw [after, matches_seq_cons]
    by_cases empty : a.takesEmpty = true
    · rw [if_pos empty, matches_orElse, matches_followedBy_after iha, ihb]
      simp [takesEmpty_iff.mp empty]
    · rw [if_neg empty, matches_followedBy_after iha]
      simp [mt takesEmpty_iff.mpr empty]
  | either a b iha ihb => rw [after, matches_orElse, iha, ihb, matches_either]
  | many a ih => rw [after, matches_followedBy_after ih, matches_many_cons]

/-- A pattern takes its texts and no others. -/
theorem takes_iff : r.takes t = true ↔ r.Matches t := by
  induction t generalizing r with
  | nil => exact takesEmpty_iff
  | cons c t ih => exact ih.trans matches_after

end Pattern

end ChordSymbols
