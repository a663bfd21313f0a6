import ChordSymbols.Harmony.PitchClass
import ChordSymbols.Proofs.Text.Stripping
import Mathlib.Data.Option.Basic

/-!
# Names of pitch classes

A text names a pitch class if it is its sharp or its flat name, or its plain
name in any case of the letters. No text names two of them, so the order in
which the three kinds of names are tried does not matter, and reading a text is
the same as asking what it names without the blanks at its ends. A small `b`
is the only name in which that letter is no flat sign.
-/

namespace ChordSymbols

namespace PitchClass

/-- The kinds of names that a pitch class has. -/
inductive NamedBy (p : PitchClass) : Text → Prop where
  | spelled (flats : Bool) : NamedBy p (p.spell flats)
  | plain {t : Text} (same : t.map capital = p.plainName.map capital) : NamedBy p t

variable {p q : PitchClass} {t : Text}

/-- The tables of names have an entry for every class. -/
theorem spell_read (flats : Bool) (p : PitchClass) :
    (if flats then flatNames else sharpNames)[p.val]? = some (p.spell flats) := by
  revert flats p
  decide

theorem spell_injective {flats flats' : Bool} (same : p.spell flats = q.spell flats') : p = q := by
  revert flats flats' p q
  decide

/-- A sharp or flat name is a plain name only of the same class. -/
theorem eq_of_capitals {flats : Bool}
    (same : (p.spell flats).map capital = q.plainName.map capital) : p = q := by
  revert flats p q
  decide

theorem capitals_injective (same : p.plainName.map capital = q.plainName.map capital) : p = q := by
  revert p q
  decide

theorem NamedBy.unique (left : p.NamedBy t) (right : q.NamedBy t) : p = q := by
  cases left with
  | spelled flats =>
    generalize spelled : p.spell flats = t at right
    cases right with
    | spelled flats' => exact spell_injective spelled
    | plain same =>
      rw [← spelled] at same
      exact eq_of_capitals same
  | plain same =>
    cases right with
    | spelled flats => exact (eq_of_capitals same).symm
    | plain same' => exact capitals_injective (same.symm.trans same')

theorem namedIn_eq_some {names : List Text} (found : namedIn names t = some p) :
    names.getD p.val [] = t := by
  have entry := List.find?_some (p := fun p : PitchClass => names.getD p.val [] = t) found
  exact of_decide_eq_true entry

theorem namedIn_ne_none {names : List Text} (p : PitchClass) :
    namedIn names (names.getD p.val []) ≠ none := by
  intro missed
  have other := List.find?_eq_none.mp missed p (List.mem_finRange p)
  exact other (decide_eq_true rfl)

theorem capitals_read (p : PitchClass) :
    (plainNames.map (·.map capital)).getD p.val [] = p.plainName.map capital := by
  revert p
  decide

theorem namedBy_of_sharp (found : namedIn sharpNames t = some p) : p.NamedBy t :=
  namedIn_eq_some found ▸ .spelled false

theorem namedBy_of_flat (found : namedIn flatNames t = some p) : p.NamedBy t :=
  namedIn_eq_some found ▸ .spelled true

theorem namedBy_of_plain
    (found : namedIn (plainNames.map (·.map capital)) (t.map capital) = some p) : p.NamedBy t :=
  .plain ((namedIn_eq_some found).symm.trans (capitals_read p))

theorem parse?_eq (name : Text) :
    parse? name = (namedIn sharpNames (strip name) <|> namedIn flatNames (strip name) <|>
      namedIn (plainNames.map (·.map capital)) ((strip name).map capital)) := rfl

/-- Reading a text gives the class that it names, once the blanks at its ends are gone. -/
theorem parse?_eq_some {name : Text} : parse? name = some p ↔ p.NamedBy (strip name) := by
  rw [parse?_eq, Option.orElse_eq_some, Option.orElse_eq_some]
  generalize strip name = t
  constructor
  · rintro (sharp | ⟨-, flat | ⟨-, plain⟩⟩)
    · exact namedBy_of_sharp sharp
    · exact namedBy_of_flat flat
    · exact namedBy_of_plain plain
  · intro named
    cases sharp : namedIn sharpNames t with
    | some q => exact .inl (congrArg some ((namedBy_of_sharp sharp).unique named))
    | none =>
      cases flat : namedIn flatNames t with
      | some q =>
        exact .inr ⟨rfl, .inl (congrArg some ((namedBy_of_flat flat).unique named))⟩
      | none =>
        refine .inr ⟨rfl, .inr ⟨rfl, ?_⟩⟩
        cases plain : namedIn (plainNames.map (·.map capital)) (t.map capital) with
        | some q => exact congrArg some ((namedBy_of_plain plain).unique named)
        | none =>
          -- A name is found at least in the table of its own kind.
          cases named with
          | spelled flats =>
            cases flats with
            | false => exact absurd sharp (namedIn_ne_none p)
            | true => exact absurd flat (namedIn_ne_none p)
          | plain same =>
            rw [same, ← capitals_read] at plain
            exact absurd plain (namedIn_ne_none p)

theorem parse_eq_ok {name : Text} : parse name = .ok p ↔ p.NamedBy (strip name) := by
  rw [← parse?_eq_some, parse]
  cases parse? name with
  | none => simp
  | some q => simp

/-- A class is read from its sharp and from its flat name. -/
theorem parse_spell (flats : Bool) (p : PitchClass) : parse (p.spell flats) = .ok p := by
  have whole : strip (p.spell flats) = p.spell flats := by
    revert flats p
    decide
  rw [parse_eq_ok, whole]
  exact .spelled flats

theorem parse_strip (name : Text) : parse (strip name) = parse name := by
  rw [parse, parse, parse?_eq, parse?_eq, strip_strip]

/-- Only one class has a plain name with a `B` in it, and that is all of the name. -/
theorem capitals_of_mem (letter : capital 'b' ∈ p.plainName.map capital) :
    p.plainName.map capital = [capital 'b'] := by
  revert p
  decide

/-- In sharps and flats a small `b` is a flat sign. -/
theorem flat_of_mem {flats : Bool} (letter : 'b' ∈ p.spell flats) :
    'b' ∈ (p.spell flats).tail := by
  revert flats p
  decide

theorem NamedBy.flat_or_small (named : p.NamedBy t) (letter : 'b' ∈ t) :
    'b' ∈ t.tail ∨ t = ['b'] := by
  cases named with
  | spelled flats => exact .inl (flat_of_mem letter)
  | plain same =>
    have capitals := same.trans (capitals_of_mem (same ▸ List.mem_map_of_mem letter))
    obtain ⟨c, rfl, -⟩ := List.map_eq_singleton_iff.mp capitals
    obtain rfl := List.mem_singleton.mp letter
    exact .inr rfl

end PitchClass

end ChordSymbols
