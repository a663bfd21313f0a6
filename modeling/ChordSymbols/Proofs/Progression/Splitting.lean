import ChordSymbols.Progression
import ChordSymbols.Proofs.Symbol.Language
import ChordSymbols.Proofs.Text.Stripping

/-!
# Splitting and joining progressions

A comma parts a progression in two: its symbols are those before the comma and
those after it. Splitting a joined list of symbols follows from this one
equation, for symbols that could have been the outcome of a split: these are
those that hold no comma, are not empty, and have no blank at an end. Accepted
symbols are of this kind, since they hold no comma and no blank at all. The
other way round, a text is joined again from its symbols if nothing in it was
idle.
-/

namespace ChordSymbols

theorem pieces_append (sep : Char) (a b : Text) :
    pieces sep (a ++ sep :: b) = pieces sep a ++ pieces sep b := by
  induction a with
  | nil => simp [pieces]
  | cons c cs ih =>
    by_cases h : c = sep
    · simp [pieces, h, ih]
    · cases front : pieces sep cs with
      | nil => exact absurd front (pieces_ne_nil sep cs)
      | cons p ps => simp [pieces, h, ih, front]

theorem pieces_eq_singleton {sep : Char} {t : Text} (absent : sep ∉ t) : pieces sep t = [t] := by
  induction t with
  | nil => rfl
  | cons c cs ih =>
    have other : c ≠ sep := by
      rintro rfl
      exact absent List.mem_cons_self
    have tail := ih fun h => absent (List.mem_cons_of_mem c h)
    simp [pieces, other, tail]

theorem pieces_intercalate {sep : Char} {xs : List Text} (nonempty : xs ≠ [])
    (whole : ∀ x ∈ xs, sep ∉ x) : pieces sep ([sep].intercalate xs) = xs := by
  induction xs with
  | nil => exact absurd rfl nonempty
  | cons x xs ih =>
    have first := pieces_eq_singleton (whole x List.mem_cons_self)
    cases xs with
    | nil => simpa using first
    | cons y ys =>
      have rest := ih (List.cons_ne_nil y ys) fun z hz => whole z (List.mem_cons_of_mem x hz)
      have parted : [sep].intercalate (x :: y :: ys) = x ++ sep :: [sep].intercalate (y :: ys) := by
        simp [List.intercalate_cons_cons]
      rw [parted, pieces_append, first, rest]
      rfl

theorem intercalate_pieces (sep : Char) (t : Text) : [sep].intercalate (pieces sep t) = t := by
  induction t with
  | nil => rfl
  | cons c cs ih =>
    cases rest : pieces sep cs with
    | nil => exact absurd rest (pieces_ne_nil sep cs)
    | cons p ps =>
      rw [rest] at ih
      by_cases h : c = sep
      · rw [pieces, if_pos h, rest, List.intercalate_cons_cons, ih, h]
        rfl
      · have tail : [sep].intercalate ((c :: p) :: ps) = c :: [sep].intercalate (p :: ps) := by
          cases ps with
          | nil => rfl
          | cons q qs => simp [List.intercalate_cons_cons]
        simp only [pieces, if_neg h, rest, tail, ih]

/-- The symbols before a comma and the symbols after it. -/
theorem splitProgression_append (a b : Text) :
    splitProgression (a ++ ',' :: b) = splitProgression a ++ splitProgression b := by
  simp only [splitProgression, pieces_append, List.map_append, List.filter_append]

theorem not_mem_of_mem_pieces {sep : Char} {t : Text} : ∀ p ∈ pieces sep t, sep ∉ p := by
  induction t with
  | nil => simp [pieces]
  | cons c cs ih =>
    by_cases h : c = sep
    · intro p hp
      rw [pieces, if_pos h] at hp
      rcases List.mem_cons.mp hp with rfl | hp
      · exact List.not_mem_nil
      · exact ih p hp
    · cases rest : pieces sep cs with
      | nil => exact absurd rest (pieces_ne_nil sep cs)
      | cons q qs =>
        rw [rest] at ih
        intro p hp
        rw [pieces, if_neg h, rest] at hp
        rcases List.mem_cons.mp hp with rfl | hp
        · intro sepIn
          rcases List.mem_cons.mp sepIn with same | sepIn
          · exact h same.symm
          · exact ih q List.mem_cons_self sepIn
        · exact ih p (List.mem_cons_of_mem q hp)

/-- A text that stands for itself between commas. -/
structure IsItem (t : Text) : Prop where
  nonempty : t ≠ []
  whole : ',' ∉ t
  stripped : strip t = t

theorem splitProgression_nil : splitProgression [] = [] := by
  decide

theorem IsItem.split {t : Text} (item : IsItem t) : splitProgression t = [t] := by
  rw [splitProgression, pieces_eq_singleton item.whole]
  simp [item.stripped, item.nonempty]

theorem joinSymbols_cons (x y : Text) (ys : List Text) :
    joinSymbols (x :: y :: ys) = x ++ ',' :: joinSymbols (y :: ys) := by
  simp [joinSymbols, List.intercalate_cons_cons]

theorem splitProgression_joinSymbols {xs : List Text} (items : ∀ x ∈ xs, IsItem x) :
    splitProgression (joinSymbols xs) = xs := by
  induction xs with
  | nil => exact splitProgression_nil
  | cons x xs ih =>
    have first := (items x List.mem_cons_self).split
    have rest := ih fun y hy => items y (List.mem_cons_of_mem x hy)
    cases xs with
    | nil => simpa [joinSymbols] using first
    | cons y ys =>
      rw [joinSymbols_cons, splitProgression_append, first, rest]
      rfl

/-- A split leaves only such symbols. -/
theorem isItem_of_mem_splitProgression {t : Text} : ∀ x ∈ splitProgression t, IsItem x := by
  intro x hx
  obtain ⟨hx, filled⟩ := List.mem_filter.mp hx
  obtain ⟨p, hp, rfl⟩ := List.mem_map.mp hx
  refine ⟨of_decide_eq_true filled, ?_, strip_strip p⟩
  intro comma
  exact not_mem_of_mem_pieces p hp (mem_of_mem_strip comma)

theorem InAlphabet.isBlank_eq {c : Char} (known : InAlphabet c) : isBlank c = false := by
  have range : c.toNat = 47 ∨ (48 ≤ c.toNat ∧ c.toNat ≤ 57) ∨ (65 ≤ c.toNat ∧ c.toNat ≤ 90) ∨
      (97 ≤ c.toNat ∧ c.toNat ≤ 122) := by
    rcases known with alpha | digit | rfl
    · exact Or.inr (Or.inr (isAlpha_iff_toNat.mp alpha))
    · exact Or.inr (Or.inl (Char.isDigit_iff_toNat.mp digit))
    · exact Or.inl rfl
  simp [isBlank, isWhiteSpace, whiteSpaceRanges, inRanges]
  omega

/-- An accepted symbol stands for itself in a progression. -/
theorem Spells.isItem {s : Text} {c : Chord} (spelled : Spells s c) : IsItem s := by
  obtain ⟨ts, lexed, reading⟩ := spelled.lexes
  have known := lexed.inAlphabet
  refine ⟨?_, ?_, strip_of_not_blank fun x hx => (known x hx).isBlank_eq⟩
  · rintro rfl
    cases lexed
    cases reading
  · intro comma
    rcases known ',' comma with alpha | digit | slash
    · exact absurd alpha (by decide)
    · exact absurd digit (by decide)
    · exact absurd slash (by decide)

/-- A text in which nothing is idle: it is empty, or the stretches between its commas all stand
for themselves. -/
def Tidy (t : Text) : Prop :=
  t = [] ∨ ∀ p ∈ pieces ',' t, IsItem p

theorem splitProgression_of_items {t : Text} (items : ∀ p ∈ pieces ',' t, IsItem p) :
    splitProgression t = pieces ',' t := by
  have same : (pieces ',' t).map strip = pieces ',' t := by
    conv_rhs => rw [← List.map_id (pieces ',' t)]
    exact List.map_congr_left fun p hp => (items p hp).stripped
  rw [splitProgression, same, List.filter_eq_self]
  intro p hp
  exact decide_eq_true (items p hp).nonempty

/-- Joining undoes splitting for the tidy texts alone. -/
theorem joinSymbols_splitProgression {t : Text} :
    joinSymbols (splitProgression t) = t ↔ Tidy t := by
  constructor
  · intro same
    cases symbols : splitProgression t with
    | nil =>
      rw [symbols] at same
      exact .inl same.symm
    | cons x xs =>
      have items := isItem_of_mem_splitProgression (t := t)
      rw [symbols] at same items
      have read : pieces ',' t = x :: xs := by
        rw [← same]
        exact pieces_intercalate (List.cons_ne_nil x xs) fun y hy => (items y hy).whole
      exact .inr (read ▸ items)
  · rintro (rfl | items)
    · rw [splitProgression_nil]
      rfl
    · rw [splitProgression_of_items items, joinSymbols, intercalate_pieces]

/-- Splitting leaves texts that stand for themselves, and gives back every list of such texts that
was joined, so that a second round changes nothing. Joining in turn gives back just the tidy texts.
A comma parts a text in two that are split by themselves. -/
theorem split_join_inverse :
    (∀ t, ∀ x ∈ splitProgression t, IsItem x) ∧
      (∀ xs : List Text, (∀ x ∈ xs, IsItem x) → splitProgression (joinSymbols xs) = xs) ∧
      (∀ t, splitProgression (joinSymbols (splitProgression t)) = splitProgression t) ∧
      (∀ t, joinSymbols (splitProgression t) = t ↔ Tidy t) ∧
      ∀ a b, splitProgression (a ++ ',' :: b) = splitProgression a ++ splitProgression b :=
  ⟨fun _ => isItem_of_mem_splitProgression,
    fun _ => splitProgression_joinSymbols,
    fun _ => splitProgression_joinSymbols isItem_of_mem_splitProgression,
    fun _ => joinSymbols_splitProgression,
    splitProgression_append⟩

/-- Blanks inside a symbol stay, whether or not it parses; those around it go, and so do the empty
places. -/
theorem split_join_inverse_inner_blank :
    splitProgression (joinSymbols [['1'], ['x', ' ', '9']]) = [['1'], ['x', ' ', '9']] ∧
      ¬ Tidy ['\u3000', '1', ',', ',', 'x', ' ', '9'] := by
  have items : ∀ x ∈ [['1'], ['x', ' ', '9']], IsItem x := by
    intro x hx
    rcases List.mem_cons.mp hx with rfl | hx
    · exact ⟨by decide, by decide, by decide⟩
    · obtain rfl := List.mem_singleton.mp hx
      exact ⟨by decide, by decide, by decide⟩
  refine ⟨split_join_inverse.2.1 _ items, fun tidy => ?_⟩
  exact absurd ((split_join_inverse.2.2.2.1 _).mpr tidy) (by decide)

end ChordSymbols
