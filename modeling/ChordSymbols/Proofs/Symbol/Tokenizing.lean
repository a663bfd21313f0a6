import ChordSymbols.Proofs.Symbol.Lexemes

/-!
# Texts with tokens and texts without

A scan stops only at a character outside the alphabet, and at the first of them,
whatever stands in front. A text that is scanned to its end fails only for want
of tokens, which is when it holds nothing but slashes. All other texts have the
tokens of their lexemes.
-/

namespace ChordSymbols

/-- The first character outside the alphabet, and its place. -/
structure FirstForeign (s : Text) (c : Char) (i : Nat) : Prop where
  stands : s[i]? = some c
  foreign : ¬ InAlphabet c
  before : ∀ x ∈ s.take i, InAlphabet x

theorem classify_eq_other {c : Char} : classify c = .other ↔ ¬ InAlphabet c := by
  rw [InAlphabet, ← classify_eq_letter, ← classify_eq_digit, ← classify_eq_slash]
  cases classify c <;> simp

theorem firstForeign_cons_zero {c d : Char} {s : Text} :
    FirstForeign (d :: s) c 0 ↔ d = c ∧ ¬ InAlphabet c := by
  constructor
  · intro first
    exact ⟨Option.some.inj first.stands, first.foreign⟩
  · rintro ⟨rfl, foreign⟩
    exact ⟨rfl, foreign, by simp⟩

theorem firstForeign_cons_succ {c d : Char} {s : Text} {i : Nat} :
    FirstForeign (d :: s) c (i + 1) ↔ InAlphabet d ∧ FirstForeign s c i := by
  constructor
  · intro first
    have before := first.before
    rw [List.take_succ_cons] at before
    exact ⟨before d List.mem_cons_self, first.stands, first.foreign,
      fun x hx => before x (List.mem_cons_of_mem d hx)⟩
  · rintro ⟨known, first⟩
    refine ⟨first.stands, first.foreign, ?_⟩
    rw [List.take_succ_cons]
    intro x hx
    rcases List.mem_cons.mp hx with rfl | hx
    · exact known
    · exact first.before x hx

/-- A character of the alphabet is passed, whatever it is. -/
theorem scan_cons_eq_error {i : Nat} {c : Char} {s : Text} {e : SymbolError}
    (known : InAlphabet c) : scan i (c :: s) = .error e ↔ scan (i + 1) s = .error e := by
  rw [scan]
  cases hc : classify c with
  | other => exact absurd known (classify_eq_other.mp hc)
  | letter => exact map_eq_error
  | digit => exact map_eq_error
  | slash => exact map_eq_error

theorem scan_eq_error {i : Nat} {s : Text} {e : SymbolError} :
    scan i s = .error e ↔ ∃ c k, FirstForeign s c k ∧ e = .invalidCharacter c (i + k) := by
  induction s generalizing i with
  | nil =>
    constructor
    · intro stopped
      cases stopped
    · rintro ⟨c, k, first, -⟩
      cases first.stands
  | cons d s ih =>
    by_cases known : InAlphabet d
    · rw [scan_cons_eq_error known, ih]
      constructor
      · rintro ⟨c, k, first, rfl⟩
        exact ⟨c, k + 1, firstForeign_cons_succ.mpr ⟨known, first⟩, by congr 1; omega⟩
      · rintro ⟨c, k, first, rfl⟩
        cases k with
        | zero =>
          obtain ⟨rfl, foreign⟩ := firstForeign_cons_zero.mp first
          exact absurd known foreign
        | succ k =>
          exact ⟨c, k, (firstForeign_cons_succ.mp first).2, by congr 1; omega⟩
    · have stopped : scan i (d :: s) = .error (.invalidCharacter d i) := by
        rw [scan, classify_eq_other.mpr known]
      rw [stopped]
      constructor
      · intro same
        cases same
        exact ⟨d, 0, firstForeign_cons_zero.mpr ⟨rfl, known⟩, rfl⟩
      · rintro ⟨c, k, first, rfl⟩
        cases k with
        | zero =>
          obtain ⟨rfl, -⟩ := firstForeign_cons_zero.mp first
          rfl
        | succ k => exact absurd (firstForeign_cons_succ.mp first).1 known

theorem lexes_nil_iff {s : Text} : Lexes s [] ↔ ∀ x ∈ s, x = '/' := by
  constructor
  · intro lexed
    obtain ⟨n, rfl⟩ := lexed.eq_slashes
    exact fun x hx => List.eq_of_mem_replicate hx
  · intro only
    rw [List.eq_replicate_of_mem only]
    exact .slashes_nil s.length

/-- A character outside the alphabet is reported first; without one, only a text of slashes
fails. -/
theorem tokenize_eq_error {s : Text} {e : SymbolError} :
    tokenize s = .error e ↔ (∃ c i, FirstForeign s c i ∧ e = .invalidCharacter c i) ∨
      (∀ x ∈ s, x = '/') ∧ e = .noTokens s := by
  rw [tokenize, bind_eq_error, scan_eq_error]
  simp only [Nat.zero_add]
  apply or_congr_right
  constructor
  · rintro ⟨⟨run, later⟩, scanned, failed⟩
    have lexed := lexes_of_scan scanned
    cases found : runTokens run ++ later with
    | nil =>
      simp only [found] at failed
      cases failed
      rw [found] at lexed
      exact ⟨lexes_nil_iff.mp lexed, rfl⟩
    | cons t ts =>
      simp only [found] at failed
      cases failed
  · rintro ⟨only, rfl⟩
    obtain ⟨run, later, scanned, none⟩ := scan_complete (lexes_nil_iff.mpr only) 0
    exact ⟨(run, later), scanned, by simp only [none]⟩

/-- Texts over the alphabet that are not all slashes. -/
structure Legible (s : Text) : Prop where
  known : ∀ x ∈ s, InAlphabet x
  filled : ∃ x ∈ s, x ≠ '/'

theorem Legible.lexes {s : Text} (legible : Legible s) : Lexes s (tokensOf s) :=
  lexes_iff.mpr ⟨legible.known, rfl⟩

theorem Legible.tokensOf_ne_nil {s : Text} (legible : Legible s) : tokensOf s ≠ [] := by
  intro none
  have lexed := legible.lexes
  rw [none] at lexed
  obtain ⟨x, hx, other⟩ := legible.filled
  exact other (lexes_nil_iff.mp lexed x hx)

theorem tokenize_eq_tokensOf {s : Text} {ts : List Token} :
    tokenize s = .ok ts ↔ Legible s ∧ ts = tokensOf s := by
  rw [tokenize_eq_ok]
  constructor
  · rintro ⟨lexed, nonempty⟩
    obtain rfl := lexed.eq_tokensOf
    refine ⟨⟨lexed.inAlphabet, ?_⟩, rfl⟩
    by_contra none
    push Not at none
    exact nonempty (lexes_nil_iff.mpr none).eq_tokensOf.symm
  · rintro ⟨legible, rfl⟩
    exact ⟨legible.lexes, legible.tokensOf_ne_nil⟩

/-- Further digits stand directly behind a number. -/
def FurtherBehindNumber (ts : List Token) : Prop :=
  ∀ i v, ts[i]? = some ⟨.further, v⟩ → ∃ j d, i = j + 1 ∧ ts[j]? = some (.number d)

theorem FurtherBehindNumber.cons {t : Token} {ts : List Token} (other : t.kind ≠ .further)
    (rest : FurtherBehindNumber ts) : FurtherBehindNumber (t :: ts) := by
  intro i v stands
  cases i with
  | zero =>
    cases stands
    exact absurd rfl other
  | succ i =>
    obtain ⟨j, d, rfl, number⟩ := rest i v stands
    exact ⟨j + 1, d, rfl, number⟩

theorem FurtherBehindNumber.run (d : Char) {ds : Text} {ts : List Token}
    (rest : FurtherBehindNumber ts) :
    FurtherBehindNumber (.number d :: (furtherTokens ds ++ ts)) := by
  cases ds with
  | nil => exact rest.cons TokenKind.noConfusion
  | cons e es =>
    intro i v stands
    match i with
    | 0 => cases stands
    | 1 => exact ⟨0, d, rfl, rfl⟩
    | i + 2 =>
      obtain ⟨j, d', rfl, number⟩ := rest i v stands
      exact ⟨j + 2, d', rfl, number⟩

theorem furtherTokens_text (ds : Text) : (furtherTokens ds).flatMap Token.text = ds := by
  cases ds <;> simp [furtherTokens, Token.further]

namespace Lexes

variable {s : Text} {ts : List Token}

theorem furtherBehindNumber (lexed : Lexes s ts) : FurtherBehindNumber ts := by
  induction lexed with
  | nil =>
    intro i v stands
    cases stands
  | letter alpha rest ih => exact ih.cons TokenKind.noConfusion
  | slash rest ih => exact ih
  | run digits maximal rest ih => exact ih.run _

theorem no_slash (lexed : Lexes s ts) : ∀ t ∈ ts, t.kind ≠ .slash := by
  induction lexed with
  | nil => simp
  | @letter c s ts alpha rest ih =>
    have first : (Token.letter c).kind ≠ .slash := TokenKind.noConfusion
    exact List.forall_mem_cons.mpr ⟨first, ih⟩
  | slash rest ih => exact ih
  | @run d ds s ts digits maximal rest ih =>
    have first : (Token.number d).kind ≠ .slash := TokenKind.noConfusion
    have further : ∀ t ∈ furtherTokens ds, t.kind ≠ .slash := by
      cases ds <;> simp [furtherTokens, Token.further]
    exact List.forall_mem_cons.mpr ⟨first, List.forall_mem_append.mpr ⟨further, ih⟩⟩

theorem text (lexed : Lexes s ts) : ts.flatMap Token.text = s.filter (· ≠ '/') := by
  induction lexed with
  | nil => rfl
  | @letter c s ts alpha rest ih =>
    rw [List.flatMap_cons, ih, List.filter_cons_of_pos (by simpa using ne_slash_of_isAlpha alpha)]
    rfl
  | slash rest ih => exact ih
  | @run d ds s ts digits maximal rest ih =>
    have kept : (d :: ds).filter (· ≠ '/') = d :: ds := by
      apply List.filter_eq_self.mpr
      intro x hx
      simpa using ne_slash_of_isDigit (digits x hx)
    rw [List.flatMap_cons, List.flatMap_append, furtherTokens_text, ih, List.filter_append, kept]
    rfl

end Lexes

/-- A text has tokens exactly if it is over the alphabet and not all slashes. They are then
those of its one cut into letters, slashes and runs of digits. Otherwise the first character
outside the alphabet is reported, wherever it stands, and without one that there are no tokens. -/
theorem tokenize_reads_lexemes (s : Text) :
    ((∃ ts, tokenize s = .ok ts) ↔ (∀ x ∈ s, InAlphabet x) ∧ ∃ x ∈ s, x ≠ '/') ∧
      (∀ ts, tokenize s = .ok ts → ∃ ls, (∀ ms, LexemesOf s ms ↔ ms = ls) ∧ Parted ls ∧
        ts = ls.flatMap lexemeTokens ∧ (∀ t ∈ ts, t.kind ≠ .slash) ∧
        ts.flatMap Token.text = s.filter (· ≠ '/') ∧ FurtherBehindNumber ts) ∧
      ∀ e, tokenize s = .error e ↔ (∃ c i, FirstForeign s c i ∧ e = .invalidCharacter c i) ∨
        (∀ x ∈ s, x = '/') ∧ e = .noTokens s := by
  refine ⟨?_, ?_, fun e => tokenize_eq_error⟩
  · constructor
    · rintro ⟨ts, done⟩
      have legible := (tokenize_eq_tokensOf.mp done).1
      exact ⟨legible.known, legible.filled⟩
    · rintro ⟨known, filled⟩
      exact ⟨tokensOf s, tokenize_eq_tokensOf.mpr ⟨⟨known, filled⟩, rfl⟩⟩
  · intro ts done
    obtain ⟨legible, rfl⟩ := tokenize_eq_tokensOf.mp done
    have cut := lexemesOf_lexemes legible.known
    have only (ms : List Text) : LexemesOf s ms ↔ ms = lexemes s := by
      rw [lexemesOf_iff]
      exact and_iff_right legible.known
    have lexed := legible.lexes
    exact ⟨lexemes s, only, cut.parted, rfl, lexed.no_slash, lexed.text, lexed.furtherBehindNumber⟩

end ChordSymbols
