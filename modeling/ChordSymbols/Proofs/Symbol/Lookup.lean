import ChordSymbols.Proofs.Symbol.Grammar

/-!
# How a list of tokens fails

Parsing checks how many tokens there are, then their kinds, and then looks up
their codes one after the other. What is reported is the first of these that
fails; if none does there is a chord. This holds of every list of tokens, also of
one that no text has.
-/

namespace ChordSymbols

/-- The members of a vocabulary as they are written, in each case of a letter. -/
def Vocabulary.codes : Vocabulary → List Text
  | .mode => Mode.all.flatMap fun m => m.letters.map fun l => [l]
  | .numeral => Degree.all.map fun d => [d.digit]
  | .inversion => Figure.all.map Figure.code
  | .function => Secondary.all.map Secondary.code

/-- The six shapes of a symbol. -/
def shapes : List (List TokenKind) :=
  [[.letter, .number, .further], [.number, .further, .number], [.letter, .number],
    [.number, .further], [.number, .number], [.number]]

/-- The codes that are looked up, in this order. A function is asked for last, although it
is written first. -/
def lookups : List Token → List (Vocabulary × Text)
  | [⟨.letter, m⟩, ⟨.number, d⟩, ⟨.further, f⟩] => [(.mode, m), (.numeral, d), (.inversion, f)]
  | [⟨.number, s⟩, ⟨.further, f⟩, ⟨.number, d⟩] => [(.numeral, d), (.inversion, f), (.function, s)]
  | [⟨.letter, m⟩, ⟨.number, d⟩] => [(.mode, m), (.numeral, d)]
  | [⟨.number, d⟩, ⟨.further, f⟩] => [(.numeral, d), (.inversion, f)]
  | [⟨.number, s⟩, ⟨.number, d⟩] => [(.numeral, d), (.function, s)]
  | [⟨.number, d⟩] => [(.numeral, d)]
  | _ => []

/-- The first code that is not in its vocabulary. -/
def firstMiss (asked : List (Vocabulary × Text)) : Option (Vocabulary × Text) :=
  asked.find? fun q => q.2 ∉ q.1.codes

/-- A chord if all codes are found, and otherwise the first that is not. -/
def Answers (asked : List (Vocabulary × Text)) (r : Except SymbolError Chord) : Prop :=
  match firstMiss asked with
  | some (v, code) => r = .error (.unresolved v code)
  | none => ∃ c, r = .ok c

theorem mem_codes_mode {t : Text} : t ∈ Vocabulary.mode.codes ↔ (Mode.ofCode? t).isSome := by
  rw [Option.isSome_iff_exists]
  constructor
  · intro member
    obtain ⟨m, -, written⟩ := List.mem_flatMap.mp member
    obtain ⟨l, letter, rfl⟩ := List.mem_map.mp written
    exact ⟨m, Mode.ofCode?_of_mem letter⟩
  · rintro ⟨m, found⟩
    obtain ⟨l, letter, rfl⟩ := Mode.ofCode?_eq_some.mp found
    have all : m ∈ Mode.all := by cases m <;> decide
    exact List.mem_flatMap.mpr ⟨m, all, List.mem_map.mpr ⟨l, letter, rfl⟩⟩

theorem mem_codes_numeral {t : Text} :
    t ∈ Vocabulary.numeral.codes ↔ (Degree.ofCode? t).isSome := by
  simp [Vocabulary.codes, Degree.ofCode?, List.find?_isSome]

theorem mem_codes_inversion {t : Text} :
    t ∈ Vocabulary.inversion.codes ↔ (Figure.ofCode? t).isSome := by
  simp [Vocabulary.codes, Figure.ofCode?, List.find?_isSome]

theorem mem_codes_function {t : Text} :
    t ∈ Vocabulary.function.codes ↔ (Secondary.ofCode? t).isSome := by
  simp [Vocabulary.codes, Secondary.ofCode?, List.find?_isSome]

theorem answers_found (c : Chord) : Answers [] (.ok c) :=
  ⟨c, rfl⟩

/-- A look-up reports its own miss, or leaves the answer to those after it. -/
theorem answers_resolve {α : Type} {v : Vocabulary} {find : Text → Option α} {code : Text}
    {asked : List (Vocabulary × Text)} {next : α → Except SymbolError Chord}
    (held : code ∈ v.codes ↔ (find code).isSome) (rest : ∀ a, Answers asked (next a)) :
    Answers ((v, code) :: asked) (resolve v find code >>= next) := by
  cases found : find code with
  | none =>
    have missing : code ∉ v.codes := by simp [held, found]
    have first : firstMiss ((v, code) :: asked) = some (v, code) :=
      List.find?_cons_of_pos (by simpa using missing)
    rw [Answers, first, resolve, found]
    rfl
  | some a =>
    have known : code ∈ v.codes := by simp [held, found]
    have later : firstMiss ((v, code) :: asked) = firstMiss asked :=
      List.find?_cons_of_neg (by simpa using known)
    rw [Answers, later, resolve, found]
    exact rest a

theorem shape_cases {ts : List Token} (shaped : ts.map Token.kind ∈ shapes) :
    (∃ m d f, ts = [⟨.letter, m⟩, ⟨.number, d⟩, ⟨.further, f⟩]) ∨
      (∃ s f d, ts = [⟨.number, s⟩, ⟨.further, f⟩, ⟨.number, d⟩]) ∨
      (∃ m d, ts = [⟨.letter, m⟩, ⟨.number, d⟩]) ∨
      (∃ d f, ts = [⟨.number, d⟩, ⟨.further, f⟩]) ∨
      (∃ s d, ts = [⟨.number, s⟩, ⟨.number, d⟩]) ∨ ∃ d, ts = [⟨.number, d⟩] := by
  simp only [shapes, List.mem_cons, List.not_mem_nil, or_false, List.map_eq_cons_iff,
    List.map_eq_nil_iff] at shaped
  obtain ⟨⟨_, m⟩, _, rfl, rfl, ⟨_, d⟩, _, rfl, rfl, ⟨_, f⟩, _, rfl, rfl, rfl⟩ |
    ⟨⟨_, s⟩, _, rfl, rfl, ⟨_, f⟩, _, rfl, rfl, ⟨_, d⟩, _, rfl, rfl, rfl⟩ |
    ⟨⟨_, m⟩, _, rfl, rfl, ⟨_, d⟩, _, rfl, rfl, rfl⟩ |
    ⟨⟨_, d⟩, _, rfl, rfl, ⟨_, f⟩, _, rfl, rfl, rfl⟩ |
    ⟨⟨_, s⟩, _, rfl, rfl, ⟨_, d⟩, _, rfl, rfl, rfl⟩ |
    ⟨⟨_, d⟩, _, rfl, rfl, rfl⟩ := shaped
  · exact .inl ⟨m, d, f, rfl⟩
  · exact .inr (.inl ⟨s, f, d, rfl⟩)
  · exact .inr (.inr (.inl ⟨m, d, rfl⟩))
  · exact .inr (.inr (.inr (.inl ⟨d, f, rfl⟩)))
  · exact .inr (.inr (.inr (.inr (.inl ⟨s, d, rfl⟩))))
  · exact .inr (.inr (.inr (.inr (.inr ⟨d, rfl⟩))))

theorem parseTokens_of_length {ts : List Token} (count : ts.length = 0 ∨ 3 < ts.length) :
    parseTokens ts = .error (.tokenCount ts) :=
  if_pos count

theorem parseTokens_of_not_shape {ts : List Token} (count : ¬ (ts.length = 0 ∨ 3 < ts.length))
    (other : ts.map Token.kind ∉ shapes) : parseTokens ts = .error (.unexpectedPattern ts) := by
  unfold parseTokens
  rw [if_neg count]
  split
  case h_7 => rfl
  all_goals exact absurd (by simp [shapes]) other

theorem parseTokens_answers {ts : List Token} (shaped : ts.map Token.kind ∈ shapes) :
    Answers (lookups ts) (parseTokens ts) := by
  obtain ⟨m, d, f, rfl⟩ | ⟨s, f, d, rfl⟩ | ⟨m, d, rfl⟩ | ⟨d, f, rfl⟩ | ⟨s, d, rfl⟩ | ⟨d, rfl⟩ :=
    shape_cases shaped
  · apply answers_resolve mem_codes_mode
    intro mode
    apply answers_resolve mem_codes_numeral
    intro degree
    apply answers_resolve mem_codes_inversion
    intro figure
    exact answers_found _
  · apply answers_resolve mem_codes_numeral
    intro degree
    apply answers_resolve mem_codes_inversion
    intro figure
    apply answers_resolve mem_codes_function
    intro secondary
    exact answers_found _
  · apply answers_resolve mem_codes_mode
    intro mode
    apply answers_resolve mem_codes_numeral
    intro degree
    exact answers_found _
  · apply answers_resolve mem_codes_numeral
    intro degree
    apply answers_resolve mem_codes_inversion
    intro figure
    exact answers_found _
  · apply answers_resolve mem_codes_numeral
    intro degree
    apply answers_resolve mem_codes_function
    intro secondary
    exact answers_found _
  · apply answers_resolve mem_codes_numeral
    intro degree
    exact answers_found _

theorem parseTokens_of_miss {ts : List Token} {v : Vocabulary} {code : Text}
    (shaped : ts.map Token.kind ∈ shapes)
    (miss : firstMiss (lookups ts) = some (v, code)) :
    parseTokens ts = .error (.unresolved v code) := by
  have answers := parseTokens_answers shaped
  rwa [Answers, miss] at answers

theorem parseTokens_of_found {ts : List Token} (shaped : ts.map Token.kind ∈ shapes)
    (found : firstMiss (lookups ts) = none) : ∃ c, parseTokens ts = .ok c := by
  have answers := parseTokens_answers shaped
  rwa [Answers, found] at answers

end ChordSymbols
