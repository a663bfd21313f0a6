import ChordSymbols.Proofs.Symbol.Grammar

/-!
# The language of chord symbols

`Spells` gives the texts that spell a chord, as the words of three forms over
slashes, letters and digits. Slashes may stand almost anywhere, but only an
applied chord needs one, which keeps its two numbers apart, and none may stand
between a degree and its figure. Parsing accepts these words and no others.
-/

namespace ChordSymbols

inductive Spells : Text → Chord → Prop where
  | lettered (i j k : Nat) {m : Mode} {l : Char} (letter : l ∈ m.letters) (d : Degree)
      (f : Option Figure) :
      Spells (slashes i ++ l :: (slashes j ++ d.digit :: (figureText f ++ slashes k)))
        ⟨m, d, f, none⟩
  | plain (i k : Nat) (d : Degree) (f : Option Figure) :
      Spells (slashes i ++ d.digit :: (figureText f ++ slashes k)) ⟨d.defaultMode, d, f, none⟩
  | applied (i j k : Nat) (s : Secondary) (f : Option Figure) (d : Degree) :
      Spells (slashes i ++ s.digit :: (figureText f ++ slashes (j + 1) ++ d.digit :: slashes k))
        ⟨.ionian, d, f, some s⟩

theorem Mode.isAlpha_of_mem {m : Mode} {l : Char} (letter : l ∈ m.letters) :
    l.isAlpha = true := by
  have all : m.letters.all Char.isAlpha = true := by
    cases m <;> rfl
  exact List.all_eq_true.mp all l letter

theorem Degree.isDigit_digit (d : Degree) : d.digit.isDigit = true := by
  cases d <;> rfl

theorem Secondary.isDigit_digit (s : Secondary) : s.digit.isDigit = true := by
  cases s <;> rfl

theorem isDigit_figureText (f : Option Figure) : ∀ x ∈ figureText f, x.isDigit = true := by
  have all : (figureText f).all Char.isDigit = true := by
    rcases f with _ | f
    · rfl
    · cases f <;> rfl
  exact List.all_eq_true.mp all

/-- A digit and a figure are one run, where no digit follows. -/
theorem Lexes.figured {d : Char} (digit : d.isDigit = true) (f : Option Figure) {s : Text}
    {ts : List Token} (maximal : OffDigits s) (rest : Lexes s ts) :
    Lexes (d :: (figureText f ++ s)) (.number d :: (furtherTokens (figureText f) ++ ts)) := by
  refine .run ?_ maximal rest
  intro x hx
  rcases List.mem_cons.mp hx with rfl | hx
  · exact digit
  · exact isDigit_figureText f x hx

theorem Spells.lexes {s : Text} {c : Chord} (spelled : Spells s c) :
    ∃ ts, Lexes s ts ∧ Denotes ts c := by
  cases spelled with
  | @lettered i j k m l letter d f =>
    have numeral := Lexes.figured d.isDigit_digit f (offDigits_slashes k) (.slashes_nil k)
    rw [List.append_nil] at numeral
    have behind := Lexes.letter (Mode.isAlpha_of_mem letter) (.slashes_append j numeral)
    exact ⟨_, .slashes_append i behind, .lettered letter d f⟩
  | plain i k d f =>
    have numeral := Lexes.figured d.isDigit_digit f (offDigits_slashes k) (.slashes_nil k)
    rw [List.append_nil] at numeral
    exact ⟨_, .slashes_append i numeral, .plain d f⟩
  | applied i j k s f d =>
    have last := Lexes.figured d.isDigit_digit none (offDigits_slashes k) (.slashes_nil k)
    have apart : OffDigits (slashes (j + 1) ++ d.digit :: slashes k) :=
      offDigits_cons (by decide) _
    have numeral := Lexes.figured s.isDigit_digit f apart (.slashes_append (j + 1) last)
    refine ⟨_, .slashes_append i ?_, .applied s f d⟩
    rw [List.append_assoc]
    exact numeral

/-- Only a word of the three forms has the tokens of a reading. -/
theorem Spells.of_lexes {s : Text} {ts : List Token} {c : Chord} (whole : Lexes s ts)
    (reading : Denotes ts c) : Spells s c := by
  cases reading with
  | @lettered m l letter d f =>
    obtain ⟨i, c, behind, rfl, single, numeral⟩ := whole.letter_first
    cases single
    rw [← List.append_nil (furtherTokens _)] at numeral
    obtain ⟨j, rest, rfl, -, last⟩ := numeral.run_first offFurther_nil
    obtain ⟨k, rfl⟩ := last.eq_slashes
    exact .lettered i j k letter d f
  | plain d f =>
    rw [← List.append_nil (furtherTokens _)] at whole
    obtain ⟨i, rest, rfl, -, last⟩ := whole.run_first offFurther_nil
    obtain ⟨k, rfl⟩ := last.eq_slashes
    exact .plain i k d f
  | applied s f d =>
    have off : OffFurther [.number d.digit] := by
      intro v first
      cases first
    obtain ⟨i, rest, rfl, apart, degree⟩ := whole.run_first off
    have alone : Lexes rest (.number d.digit :: (furtherTokens [] ++ [])) := degree
    obtain ⟨j, rest, rfl, -, last⟩ := alone.run_first offFurther_nil
    obtain ⟨k, rfl⟩ := last.eq_slashes
    cases j with
    | zero =>
      -- Without a slash the degree would have lengthened the run before it.
      have notDigit := apart d.digit rfl
      rw [d.isDigit_digit] at notDigit
      cases notDigit
    | succ j =>
      have word := Spells.applied i j k s f d
      rwa [List.append_assoc] at word

theorem parseSymbol_eq_ok {s : Text} {c : Chord} : parseSymbol s = .ok c ↔ Spells s c := by
  rw [parseSymbol, bind_eq_ok]
  constructor
  · rintro ⟨ts, scanned, parsed⟩
    exact .of_lexes (tokenize_eq_ok.mp scanned).1 (parseTokens_eq_ok.mp parsed)
  · intro spelled
    obtain ⟨ts, lexed, reading⟩ := spelled.lexes
    have nonempty : ts ≠ [] := by
      rintro rfl
      cases reading
    exact ⟨ts, tokenize_eq_ok.mpr ⟨lexed, nonempty⟩, parseTokens_eq_ok.mpr reading⟩

/-- The accepted texts are exactly the words of the three forms, each for the chord that it
spells; on every other text compiling ends with the fault of a symbol. -/
theorem parse_accepts_language (s : Text) :
    (∀ c, parseSymbol s = .ok c ↔ Spells s c) ∧
      ((∀ c, ¬ Spells s c) ↔ ∃ e : SymbolError, parseSymbol s = .error e) := by
  refine ⟨fun c => parseSymbol_eq_ok, ?_⟩
  rw [← not_ok_iff_error]
  constructor
  · intro none c parsed
    exact none c (parseSymbol_eq_ok.mp parsed)
  · intro none c spelled
    exact none c (parseSymbol_eq_ok.mpr spelled)

end ChordSymbols
