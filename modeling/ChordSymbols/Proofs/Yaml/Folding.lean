import ChordSymbols.Yaml.Scalar

/-!
# Folded lines are joined again

A reader takes a line feed inside a scalar for a blank, several in a row for all
but the first, and blanks behind them for indentation. That undoes the folding of
a text in which no blank stands next to a line feed, for then a fold is the only
line feed by itself, and no blank of the text is behind one.
-/

namespace ChordSymbols.Yaml

/-- What line feeds in a row stand for. -/
def gap : Nat → Text
  | 0 => []
  | 1 => [' ']
  | k + 2 => List.replicate (k + 1) '\n'

/-- The text of folded lines, behind a number of line feeds. -/
def joined (feeds : Nat) : Text → Text
  | [] => gap feeds
  | c :: rest =>
    if c = '\n' then joined (feeds + 1) rest
    else if c = ' ' ∧ feeds ≠ 0 then joined feeds rest
    else gap feeds ++ c :: joined 0 rest

variable {written : Char → Text} {c : Char} {feeds : Nat}

theorem isGap_eq_false : isGap c = false ↔ c ≠ ' ' ∧ c ≠ '\n' := by
  simp [isGap]

theorem joined_feed (rest : Text) : joined feeds ('\n' :: rest) = joined (feeds + 1) rest := by
  rw [joined, if_pos rfl]

theorem joined_blank (rest : Text) : joined 0 (' ' :: rest) = ' ' :: joined 0 rest := by
  rw [joined, if_neg (by decide), if_neg (fun both => both.2 rfl)]
  rfl

theorem joined_solid (solid : isGap c = false) (rest : Text) :
    joined feeds (c :: rest) = gap feeds ++ c :: joined 0 rest := by
  obtain ⟨blank, feed⟩ := isGap_eq_false.mp solid
  rw [joined, if_neg feed, if_neg (fun both => blank both.1)]

theorem joined_indented (inLine : feeds ≠ 0) (indent : Nat) (rest : Text) :
    joined feeds (List.replicate indent ' ' ++ rest) = joined feeds rest := by
  induction indent with
  | zero => rfl
  | succ indent ih =>
    rw [List.replicate_succ, List.cons_append, joined, if_neg (by decide), if_pos ⟨rfl, inLine⟩, ih]

theorem joined_newLine (indent : Nat) (rest : Text) :
    joined feeds (newLine indent ++ rest) = joined (feeds + 1) rest := by
  rw [newLine, List.cons_append, joined_feed, joined_indented (Nat.succ_ne_zero feeds)]

/-- A run of characters that are no gaps is read as it is. -/
theorem joined_run {s : Text} (filled : s ≠ []) (solid : ∀ d ∈ s, isGap d = false) (rest : Text) :
    joined feeds (s ++ rest) = gap feeds ++ s ++ joined 0 rest := by
  induction s generalizing feeds with
  | nil => exact absurd rfl filled
  | cons d s ih =>
    obtain ⟨first, others⟩ := List.forall_mem_cons.mp solid
    rw [List.cons_append, joined_solid first]
    cases s with
    | nil => simp
    | cons e s =>
      rw [ih (List.cons_ne_nil e s) others]
      simp [gap]

theorem mixedGap_cons {t : Text} : mixedGap (c :: t) = false ↔
    (c = ' ' → t.head? ≠ some '\n') ∧ (c = '\n' → t.head? ≠ some ' ') ∧ mixedGap t = false := by
  cases t with
  | nil => simp [mixedGap]
  | cons d t => simp [mixedGap, and_assoc]

/-- A way to write characters that leaves gaps to the folding. -/
structure Seamless (written : Char → Text) : Prop where
  gaps : ∀ c, isGap c = true → written c = [c]
  filled : ∀ c, written c ≠ []
  solid : ∀ c, isGap c = false → ∀ d ∈ written c, isGap d = false

/-- What is known of the text to come when a reader has met so many line feeds in a row. -/
inductive Pending : Nat → Char → Text → Prop where
  | inside {last : Char} {t : Text} (other : last ≠ '\n') : Pending 0 last t
  | fold {c : Char} {t : Text} (solid : isGap c = false) : Pending 1 ' ' (c :: t)
  | feeds {k : Nat} {t : Text} (unindented : t.head? ≠ some ' ') : Pending (k + 2) '\n' t

/-- One more line feed of the text, from whatever was pending before it. -/
theorem Pending.feed {last : Char} {t : Text} (pending : Pending feeds last ('\n' :: t))
    (rest : Text) : ∃ k, joined feeds ((if last = '\n' then [] else ['\n']) ++ '\n' :: rest) =
      joined (k + 2) rest ∧ gap (k + 2) = gap feeds ++ ['\n'] := by
  cases pending with
  | inside other =>
    rw [if_neg other, List.singleton_append, joined_feed, joined_feed]
    exact ⟨0, rfl, rfl⟩
  | fold solid => cases solid
  | @feeds k _ unindented =>
    rw [if_pos rfl, List.nil_append, joined_feed]
    exact ⟨k + 1, rfl, List.replicate_succ'⟩

/-- Nothing is pending before a blank of the text. -/
theorem Pending.eq_zero {last : Char} {t : Text} (pending : Pending feeds last (' ' :: t)) :
    feeds = 0 := by
  cases pending with
  | inside other => rfl
  | fold solid => cases solid
  | feeds unindented => exact absurd rfl unindented

theorem Seamless.flatMap_gap (seamless : Seamless written) (isGap : isGap c = true) (rest : Text) :
    (c :: rest).flatMap written = c :: rest.flatMap written := by
  rw [List.flatMap_cons, seamless.gaps c isGap]
  rfl

/-- Joining undoes folding. -/
theorem joined_folded (seamless : Seamless written) (indent : Nat) {t : Text}
    (apart : mixedGap t = false) {last : Char} (column : Nat) (pending : Pending feeds last t) :
    joined feeds (folded written indent last column t) = gap feeds ++ t.flatMap written := by
  induction t generalizing feeds last column with
  | nil => rw [folded, joined, List.flatMap_nil, List.append_nil]
  | cons c rest ih =>
    obtain ⟨afterBlank, afterFeed, later⟩ := mixedGap_cons.mp apart
    by_cases feed : c = '\n'
    · subst feed
      have next (k : Nat) : Pending (k + 2) '\n' rest := .feeds (afterFeed rfl)
      rw [folded, if_neg (fun met => absurd met.1 (by decide)), if_pos rfl,
        seamless.flatMap_gap rfl, List.append_cons]
      dsimp only
      split
      · obtain ⟨k, read, same⟩ := pending.feed (folded written indent '\n' 0 rest)
        rw [read, ih later 0 (next k), same]
      · rw [List.append_assoc, newLine, List.cons_append]
        obtain ⟨k, read, same⟩ :=
          pending.feed (List.replicate indent ' ' ++ folded written indent '\n' indent rest)
        rw [read, joined_indented (Nat.succ_ne_zero _), ih later indent (next k), same]
    · by_cases blank : c = ' '
      · subst blank
        obtain rfl := pending.eq_zero
        rw [folded, seamless.flatMap_gap rfl, gap, List.nil_append]
        by_cases folds : ' ' = ' ' ∧ last ≠ ' ' ∧ otherThanBlank rest ∧ lineWidth < column
        · rw [if_pos folds]
          cases rest with
          | nil => cases folds.2.2.1
          | cons d rest =>
            have other : d ≠ ' ' := by simpa [otherThanBlank] using folds.2.2.1
            have solid : isGap d = false :=
              isGap_eq_false.mpr ⟨other, fun same => afterBlank rfl (congrArg some same)⟩
            rw [joined_newLine, ih later indent (.fold solid)]
            rfl
        · rw [if_neg folds, if_neg feed, seamless.gaps ' ' rfl, List.singleton_append,
            joined_blank, ih later _ (.inside feed)]
          rfl
      · have solid : isGap c = false := isGap_eq_false.mpr ⟨blank, feed⟩
        rw [folded, if_neg (fun met => blank met.1), if_neg feed,
          joined_run (seamless.filled c) (seamless.solid c solid), ih later _ (.inside feed),
          List.flatMap_cons]
        simp [gap]

theorem seamless_same : Seamless ([·]) where
  gaps _ _ := rfl
  filled c := List.cons_ne_nil c []
  solid c solid d member := by rwa [List.mem_singleton.mp member]

theorem seamless_inSingle : Seamless inSingle where
  gaps c gap := by
    have other : c ≠ apostrophe := by
      rintro rfl
      cases gap
    rw [inSingle, if_neg other]
  filled c := by
    rw [inSingle]
    split <;> exact List.cons_ne_nil _ _
  solid c solid d member := by
    rw [inSingle] at member
    split at member
    · have same : d = c := by simpa using member
      rwa [same]
    · rwa [List.mem_singleton.mp member]

/-- A text in which every apostrophe was doubled; `second` says that one was just read. -/
def undoubled (second : Bool) : Text → Text
  | [] => []
  | c :: rest =>
    if c = apostrophe ∧ second = false then undoubled true rest else c :: undoubled false rest

theorem undoubled_inSingle (t : Text) : undoubled false (t.flatMap inSingle) = t := by
  induction t with
  | nil => rfl
  | cons c t ih =>
    rw [List.flatMap_cons, inSingle]
    by_cases quote : c = apostrophe
    · rw [if_pos quote, List.cons_append, List.singleton_append, undoubled, if_pos ⟨quote, rfl⟩,
        undoubled, if_neg (fun met => nomatch met.2), ih]
    · rw [if_neg quote, List.singleton_append, undoubled, if_neg (fun met => quote met.1), ih]

end ChordSymbols.Yaml
