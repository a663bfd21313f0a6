import ChordSymbols.Proofs.Symbol.Canonical
import ChordSymbols.Proofs.Symbol.Lookup

/-!
# Parsing any tokens

A list of tokens need not be that of a text: it may hold slashes and any text at
all. Parsing it still comes to one of four ends, and each of them is told here by
the list alone. The chords that it can come to are those with settled modes.
-/

namespace ChordSymbols

section Ends

variable {ts us : List Token} {v : Vocabulary} {code : Text}

theorem firstMiss_eq_none {asked : List (Vocabulary × Text)} :
    firstMiss asked = none ↔ ∀ q ∈ asked, q.2 ∈ q.1.codes := by
  simp [firstMiss]

/-- How parsing can end, and why. -/
theorem parseTokens_cases (ts : List Token) :
    ((ts.length = 0 ∨ 3 < ts.length) ∧ parseTokens ts = .error (.tokenCount ts)) ∨
      (¬ (ts.length = 0 ∨ 3 < ts.length) ∧ ts.map Token.kind ∉ shapes ∧
        parseTokens ts = .error (.unexpectedPattern ts)) ∨
      (ts.map Token.kind ∈ shapes ∧ ∃ v code, firstMiss (lookups ts) = some (v, code) ∧
        parseTokens ts = .error (.unresolved v code)) ∨
      (ts.map Token.kind ∈ shapes ∧ firstMiss (lookups ts) = none ∧
        ∃ c, parseTokens ts = .ok c) := by
  by_cases count : ts.length = 0 ∨ 3 < ts.length
  · exact .inl ⟨count, parseTokens_of_length count⟩
  · by_cases shaped : ts.map Token.kind ∈ shapes
    · cases asked : firstMiss (lookups ts) with
      | some q => exact .inr (.inr (.inl ⟨shaped, _, _, rfl, parseTokens_of_miss shaped asked⟩))
      | none => exact .inr (.inr (.inr ⟨shaped, rfl, parseTokens_of_found shaped asked⟩))
    · exact .inr (.inl ⟨count, shaped, parseTokens_of_not_shape count shaped⟩)

theorem parseTokens_eq_tokenCount :
    parseTokens ts = .error (.tokenCount us) ↔ (ts.length = 0 ∨ 3 < ts.length) ∧ us = ts := by
  constructor
  · intro ended
    rcases parseTokens_cases ts with ⟨count, other⟩ | ⟨-, -, other⟩ | ⟨-, _, _, -, other⟩ |
      ⟨-, -, _, other⟩ <;> cases ended.symm.trans other
    exact ⟨count, rfl⟩
  · rintro ⟨count, rfl⟩
    exact parseTokens_of_length count

theorem parseTokens_eq_unexpectedPattern :
    parseTokens ts = .error (.unexpectedPattern us) ↔
      (¬ (ts.length = 0 ∨ 3 < ts.length) ∧ ts.map Token.kind ∉ shapes) ∧ us = ts := by
  constructor
  · intro ended
    rcases parseTokens_cases ts with ⟨-, other⟩ | ⟨few, strange, other⟩ | ⟨-, _, _, -, other⟩ |
      ⟨-, -, _, other⟩ <;> cases ended.symm.trans other
    exact ⟨⟨few, strange⟩, rfl⟩
  · rintro ⟨⟨few, strange⟩, rfl⟩
    exact parseTokens_of_not_shape few strange

theorem parseTokens_eq_unresolved :
    parseTokens ts = .error (.unresolved v code) ↔
      ts.map Token.kind ∈ shapes ∧ firstMiss (lookups ts) = some (v, code) := by
  constructor
  · intro ended
    rcases parseTokens_cases ts with ⟨-, other⟩ | ⟨-, -, other⟩ | ⟨shaped, _, _, miss, other⟩ |
      ⟨-, -, _, other⟩ <;> cases ended.symm.trans other
    exact ⟨shaped, miss⟩
  · rintro ⟨shaped, miss⟩
    exact parseTokens_of_miss shaped miss

theorem parseTokens_succeeds_iff :
    (∃ c, parseTokens ts = .ok c) ↔
      ts.map Token.kind ∈ shapes ∧ ∀ q ∈ lookups ts, q.2 ∈ q.1.codes := by
  rw [← firstMiss_eq_none]
  constructor
  · rintro ⟨c, ended⟩
    rcases parseTokens_cases ts with ⟨-, other⟩ | ⟨-, -, other⟩ | ⟨-, _, _, -, other⟩ |
      ⟨shaped, found, -⟩
    case inr.inr.inr => exact ⟨shaped, found⟩
    all_goals cases ended.symm.trans other
  · rintro ⟨shaped, found⟩
    exact parseTokens_of_found shaped found

end Ends

/-- The case of a letter does not decide whether it is a mode. -/
theorem mem_codes_mode_of_lower {t u : Text} (same : t.map Char.toLower = u.map Char.toLower) :
    t ∈ Vocabulary.mode.codes ↔ u ∈ Vocabulary.mode.codes := by
  have read : Mode.ofCode? t = Mode.ofCode? u := by
    match t, u with
    | [], [] => rfl
    | [c], [d] =>
      have lower : c.toLower = d.toLower := by simpa using same
      simp only [Mode.ofCode?, lower]
    | c :: c' :: t, d :: d' :: u => rfl
    | [], d :: u => cases same
    | c :: t, [] => cases same
    | [c], d :: d' :: u => simp at same
    | c :: c' :: t, [d] => simp at same
  rw [mem_codes_mode, mem_codes_mode, read]

/-- An applied chord is Ionian, and of the others only those on the first degree are. -/
def Chord.Settled (c : Chord) : Prop :=
  (c.secondary ≠ none → c.mode = .ionian) ∧
    (c.secondary = none → c.mode = .ionian → c.degree = .one)

theorem Denotes.settled {ts : List Token} {c : Chord} (reading : Denotes ts c) : c.Settled := by
  cases reading with
  | @lettered m l letter d f =>
    refine ⟨fun applied => absurd rfl applied, fun _ ionian => ?_⟩
    obtain rfl : m = .ionian := ionian
    cases letter
  | plain d f =>
    exact ⟨fun applied => absurd rfl applied, fun _ => Degree.defaultMode_eq_ionian.mp⟩
  | applied s f d => exact ⟨fun _ => rfl, fun simple => nomatch simple⟩

theorem Mode.exists_mem_letters {m : Mode} (other : m ≠ .ionian) : ∃ l, l ∈ m.letters := by
  cases m with
  | ionian => exact absurd rfl other
  | _ => exact ⟨_, List.mem_cons_self⟩

theorem Chord.Settled.denoted {c : Chord} (settled : c.Settled) : ∃ ts, Denotes ts c := by
  obtain ⟨m, d, f, secondary⟩ := c
  cases secondary with
  | some s =>
    obtain rfl : m = .ionian := settled.1 (Option.some_ne_none s)
    exact ⟨_, .applied s f d⟩
  | none =>
    by_cases ionian : m = .ionian
    · obtain rfl : d = .one := settled.2 rfl ionian
      subst ionian
      exact ⟨_, .plain .one f⟩
    · obtain ⟨l, letter⟩ := Mode.exists_mem_letters ionian
      exact ⟨_, .lettered letter d f⟩

/-- Any list of tokens is refused for its length, or else for its kinds, or else for the first of
its codes that is in no case in its vocabulary; and if all this is in order there is a chord, of a
settled mode. Every chord of a settled mode comes of some list. -/
theorem parse_any_tokens :
    (∀ ts : List Token,
      (∀ us, parseTokens ts = .error (.tokenCount us) ↔
        (ts.length = 0 ∨ 3 < ts.length) ∧ us = ts) ∧
      (∀ us, parseTokens ts = .error (.unexpectedPattern us) ↔
        (¬ (ts.length = 0 ∨ 3 < ts.length) ∧ ts.map Token.kind ∉ shapes) ∧ us = ts) ∧
      (∀ v code, parseTokens ts = .error (.unresolved v code) ↔
        ts.map Token.kind ∈ shapes ∧ firstMiss (lookups ts) = some (v, code)) ∧
      ((∃ c, parseTokens ts = .ok c) ↔
        ts.map Token.kind ∈ shapes ∧ ∀ q ∈ lookups ts, q.2 ∈ q.1.codes) ∧
      ∀ c, parseTokens ts = .ok c ↔ Denotes ts c) ∧
    (∀ t u : Text, t.map Char.toLower = u.map Char.toLower →
      (t ∈ Vocabulary.mode.codes ↔ u ∈ Vocabulary.mode.codes)) ∧
    ∀ c : Chord, (∃ ts, parseTokens ts = .ok c) ↔
      (c.secondary ≠ none → c.mode = .ionian) ∧
        (c.secondary = none → c.mode = .ionian → c.degree = .one) := by
  refine ⟨fun ts => ?_, fun t u => mem_codes_mode_of_lower, fun c => ?_⟩
  · exact ⟨fun us => parseTokens_eq_tokenCount, fun us => parseTokens_eq_unexpectedPattern,
      fun v code => parseTokens_eq_unresolved, parseTokens_succeeds_iff,
      fun c => parseTokens_eq_ok⟩
  · constructor
    · rintro ⟨ts, parsed⟩
      exact (parseTokens_eq_ok.mp parsed).settled
    · intro settled
      obtain ⟨ts, reading⟩ := Chord.Settled.denoted settled
      exact ⟨ts, parseTokens_eq_ok.mpr reading⟩

/-- No text has the tokens of these lists: further digits that are none, and a slash. -/
theorem parse_any_tokens_unscanned :
    parseTokens [⟨.number, ['2']⟩, ⟨.further, []⟩, ⟨.number, ['7']⟩] =
        .error (.unresolved .inversion []) ∧
      parseTokens [⟨.letter, ['d']⟩, ⟨.slash, ['/']⟩] =
        .error (.unexpectedPattern [⟨.letter, ['d']⟩, ⟨.slash, ['/']⟩]) ∧
      (['D'] ∈ Vocabulary.mode.codes ↔ ['d'] ∈ Vocabulary.mode.codes) ∧
      ∃ ts, parseTokens ts = .ok ⟨.ionian, .two, none, some .five⟩ :=
  ⟨((parse_any_tokens.1 _).2.2.1 _ _).mpr ⟨by decide, rfl⟩,
    ((parse_any_tokens.1 _).2.1 _).mpr ⟨by decide, rfl⟩,
    parse_any_tokens.2.1 ['D'] ['d'] rfl,
    (parse_any_tokens.2.2 _).mpr ⟨fun _ => rfl, fun simple => nomatch simple⟩⟩

end ChordSymbols
