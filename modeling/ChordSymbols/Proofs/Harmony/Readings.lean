import ChordSymbols.Proofs.Harmony.Naming

/-!
# Readings of a name

Each of the three ways to read a name is told here by itself: the sharp and the
flat name are taken as they stand, the plain name in either case of its letters.
Case is that of ASCII letters, with one exception: the long s has the capital of
the s, and so it stands for an s in a plain name. More is accepted for that
reason than the case of ASCII letters accounts for.
-/

namespace ChordSymbols

/-- Texts that differ at most in the case of ASCII letters. -/
def EqualUpToCase (t u : Text) : Prop := t.map Char.toUpper = u.map Char.toUpper

instance (t u : Text) : Decidable (EqualUpToCase t u) :=
  inferInstanceAs (Decidable (t.map Char.toUpper = u.map Char.toUpper))

/-- A long s is written as a small s, and any other character as it is. -/
def roundS (c : Char) : Char := if c = 'ſ' then 's' else c

namespace PitchClass

/-- The ways in which a name can be read. -/
inductive Reading where
  | sharp | flat | plain
deriving DecidableEq, Repr

/-- Whether a text is the name of a class in one way of reading. -/
def ReadAs (p : PitchClass) : Reading → Text → Prop
  | .sharp, t => t = p.spell false
  | .flat, t => t = p.spell true
  | .plain, t => EqualUpToCase (t.map roundS) p.plainName

variable {p q : PitchClass} {t : Text}

theorem capital_eq (c : Char) : capital c = (roundS c).toUpper := by
  by_cases long : c = 'ſ'
  · subst long
    decide
  · rw [capital, roundS, if_neg long, if_neg long]

theorem map_capital (t : Text) : t.map capital = (t.map roundS).map Char.toUpper := by
  rw [List.map_map]
  exact List.map_congr_left fun c _ => capital_eq c

theorem roundS_plainName (p : PitchClass) : p.plainName.map roundS = p.plainName := by
  revert p
  decide

/-- In capitals two names are the same if they are so up to case. -/
theorem map_capital_eq_iff :
    t.map capital = p.plainName.map capital ↔ EqualUpToCase (t.map roundS) p.plainName := by
  rw [map_capital, map_capital, roundS_plainName]
  rfl

theorem namedBy_iff_readAs : p.NamedBy t ↔ ∃ r, p.ReadAs r t := by
  constructor
  · intro named
    cases named with
    | spelled flats =>
      cases flats with
      | false => exact ⟨.sharp, rfl⟩
      | true => exact ⟨.flat, rfl⟩
    | plain same => exact ⟨.plain, map_capital_eq_iff.mp same⟩
  · rintro ⟨r, read⟩
    cases r with
    | sharp =>
      obtain rfl : t = p.spell false := read
      exact .spelled false
    | flat =>
      obtain rfl : t = p.spell true := read
      exact .spelled true
    | plain => exact .plain (map_capital_eq_iff.mpr read)

theorem parse_eq_ok_iff_readAs {name : Text} :
    parse name = .ok p ↔ ∃ r, p.ReadAs r (strip name) := by
  rw [parse_eq_ok, namedBy_iff_readAs]

theorem ReadAs.unique {r r' : Reading} (read : p.ReadAs r t) (other : q.ReadAs r' t) : p = q :=
  (namedBy_iff_readAs.mpr ⟨r, read⟩).unique (namedBy_iff_readAs.mpr ⟨r', other⟩)

theorem parse_of_pads {flats : Bool} (padded : Pads t (p.spell flats)) : parse t = .ok p := by
  rw [← parse_strip, strip_of_pads padded, parse_strip, parse_spell]

/-- A text is accepted exactly if without the blanks at its ends it can be read in one of the three
ways, and then for the class so named; no two readings disagree. Blanks around a name in sharps or
in flats make no difference. -/
theorem accepted_names :
    (∀ (name : Text) (p : PitchClass), parse name = .ok p ↔ ∃ r, p.ReadAs r (strip name)) ∧
    (∀ (t : Text) (p q : PitchClass) (r r' : Reading), p.ReadAs r t → q.ReadAs r' t → p = q) ∧
    ∀ (p : PitchClass) (flats : Bool) (before after : Text),
      (∀ c ∈ before, isBlank c = true) → (∀ c ∈ after, isBlank c = true) →
        parse (before ++ p.spell flats ++ after) = .ok p :=
  ⟨fun _ _ => parse_eq_ok_iff_readAs, fun _ _ _ _ _ => ReadAs.unique,
    fun _ _ before after front back => parse_of_pads ⟨before, after, rfl, front, back⟩⟩

/-- A plain name with a long s, two classes with one name, and a flat name between a blank that
does not break and the end of a line. -/
theorem accepted_names_long_s :
    parse [' ', 'f', 'ſ'] = .ok 6 ∧ transpose 9 7 = transpose 0 4 ∧
      parse (['\u00a0'] ++ spell true 10 ++ ['\n']) = .ok 10 :=
  ⟨(accepted_names.1 _ _).mpr ⟨.plain, rfl⟩,
    accepted_names.2.1 ['E'] (transpose 9 7) (transpose 0 4) .sharp .plain rfl rfl,
    accepted_names.2.2 10 true ['\u00a0'] ['\n'] (List.forall_mem_singleton.mpr rfl)
      (List.forall_mem_singleton.mpr rfl)⟩

/-- With a long s for its last letter a text is accepted, though it is no name up to the case of
ASCII letters. -/
theorem long_s_accepted :
    parse ['C', 'ſ'] = .ok 1 ∧
      ¬ ∃ p : PitchClass, strip ['C', 'ſ'] = p.spell false ∨ strip ['C', 'ſ'] = p.spell true ∨
        EqualUpToCase (strip ['C', 'ſ']) p.plainName := by
  decide

end PitchClass

end ChordSymbols
