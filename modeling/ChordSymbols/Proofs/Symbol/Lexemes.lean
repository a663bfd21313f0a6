import ChordSymbols.Proofs.Symbol.Lexing
import Mathlib.Data.List.SplitBy

/-!
# Cutting a text into lexemes

A text is cut between any two characters that are not both digits. Over the
alphabet of chord symbols this is the only way to cut it into letters, slashes
and runs of digits such that no two runs touch. The lexemes give the tokens, one
by one and in order, and with them how many tokens there are.
-/

namespace ChordSymbols

def bothDigits (a b : Char) : Bool :=
  a.isDigit && b.isDigit

/-- Runs of digits that cannot be lengthened, and all other characters one by one. -/
def lexemes (s : Text) : List Text :=
  s.splitBy bothDigits

/-- A letter or a slash. -/
def IsSingle (l : Text) : Prop :=
  ∃ c, l = [c] ∧ (c.isAlpha = true ∨ c = '/')

def IsRun (l : Text) : Prop :=
  l ≠ [] ∧ ∀ x ∈ l, x.isDigit = true

structure LexemesOf (s : Text) (ls : List Text) : Prop where
  whole : ls.flatten = s
  each : ∀ l ∈ ls, IsSingle l ∨ IsRun l
  apart : ls.IsChain fun a b => ¬ (IsRun a ∧ IsRun b)

/-- Between any two runs of digits stands a letter or a slash. -/
def Parted (ls : List Text) : Prop :=
  ∀ before a between b after, ls = before ++ a :: (between ++ b :: after) →
    IsRun a → IsRun b → ∃ l ∈ between, IsSingle l

/-- A slash gives nothing, and all digits after the first of a run are one token. -/
def lexemeTokens : Text → List Token
  | [] => []
  | c :: cs =>
    if c.isDigit then .number c :: furtherTokens cs
    else if c = '/' then []
    else [.letter c]

def tokensOf (s : Text) : List Token :=
  (lexemes s).flatMap lexemeTokens

theorem ne_slash_of_isAlpha {c : Char} (alpha : c.isAlpha = true) : c ≠ '/' := by
  rintro rfl
  cases alpha

theorem ne_slash_of_isDigit {c : Char} (digit : c.isDigit = true) : c ≠ '/' := by
  rintro rfl
  cases digit

theorem lexemeTokens_letter {c : Char} (alpha : c.isAlpha = true) :
    lexemeTokens [c] = [.letter c] := by
  simp [lexemeTokens, not_isDigit_of_isAlpha alpha, ne_slash_of_isAlpha alpha]

theorem lexemeTokens_run {d : Char} (digit : d.isDigit = true) (ds : Text) :
    lexemeTokens (d :: ds) = .number d :: furtherTokens ds :=
  if_pos digit

theorem IsSingle.ne_nil {l : Text} (single : IsSingle l) : l ≠ [] := by
  obtain ⟨c, rfl, -⟩ := single
  exact List.cons_ne_nil c []

theorem IsSingle.isDigit_eq_false {l : Text} (single : IsSingle l) :
    ∀ x ∈ l, x.isDigit = false := by
  obtain ⟨c, rfl, alpha | rfl⟩ := single
  · intro x hx
    rw [List.mem_singleton.mp hx]
    exact not_isDigit_of_isAlpha alpha
  · intro x hx
    rw [List.mem_singleton.mp hx]
    rfl

theorem IsRun.isChain {l : Text} (run : IsRun l) : l.IsChain fun a b => bothDigits a b = true := by
  apply List.Pairwise.isChain
  apply List.pairwise_of_forall_mem_list
  intro a ha b hb
  exact Bool.and_eq_true_iff.mpr ⟨run.2 a ha, run.2 b hb⟩

/-- A stretch of more than one character that is nowhere cut is a run of digits. -/
theorem isRun_of_isChain {c d : Char} {l : Text}
    (uncut : (c :: d :: l).IsChain fun a b => bothDigits a b = true) : IsRun (c :: d :: l) := by
  refine ⟨List.cons_ne_nil c (d :: l), ?_⟩
  induction l generalizing c d with
  | nil =>
    obtain ⟨hc, hd⟩ := Bool.and_eq_true_iff.mp uncut.rel
    simp [hc, hd]
  | cons e l ih =>
    obtain ⟨first, rest⟩ := List.isChain_cons_cons.mp uncut
    intro x hx
    rcases List.mem_cons.mp hx with rfl | hx
    · exact (Bool.and_eq_true_iff.mp first).1
    · exact ih rest x hx

theorem lexemes_cons {c : Char} (other : c.isDigit = false) (s : Text) :
    lexemes (c :: s) = [c] :: lexemes s := by
  have cut : lexemes ([c] ++ s) = lexemes [c] ++ lexemes s := by
    apply List.splitBy_append
    intro x hx y _
    obtain rfl : c = x := Option.some.inj hx
    rw [bothDigits, other, Bool.false_and]
  exact cut

theorem lexemes_run {run s : Text} (digits : IsRun run) (off : OffDigits s) :
    lexemes (run ++ s) = run :: lexemes s := by
  have cut : lexemes (run ++ s) = lexemes run ++ lexemes s := by
    apply List.splitBy_append
    intro x _ y hy
    rw [bothDigits, off y hy, Bool.and_false]
  have uncut : lexemes run = [run] := List.splitBy_of_isChain digits.1 digits.isChain
  rw [cut, uncut]
  rfl

/-- Over the alphabet, the lexemes are letters, slashes and runs. -/
theorem lexemesOf_lexemes {s : Text} (known : ∀ x ∈ s, InAlphabet x) :
    LexemesOf s (lexemes s) where
  whole := List.flatten_splitBy bothDigits s
  each := by
    intro l member
    have uncut := List.isChain_of_mem_splitBy member
    match l with
    | [] => exact absurd rfl (List.ne_nil_of_mem_splitBy member)
    | c :: d :: l => exact .inr (isRun_of_isChain uncut)
    | [c] =>
      have inText : c ∈ s := by
        rw [← List.flatten_splitBy bothDigits s]
        exact List.mem_flatten_of_mem member List.mem_cons_self
      rcases known c inText with alpha | digit | slash
      · exact .inl ⟨c, rfl, .inl alpha⟩
      · exact .inr ⟨List.cons_ne_nil c [], by simpa using digit⟩
      · exact .inl ⟨c, rfl, .inr slash⟩
  apart := by
    apply List.IsChain.imp _ (List.isChain_getLast_head_splitBy bothDigits s)
    rintro a b ⟨ha, hb, cut⟩ ⟨first, second⟩
    rw [bothDigits, first.2 _ (List.getLast_mem ha), second.2 _ (List.head_mem hb)] at cut
    cases cut

namespace LexemesOf

variable {s : Text} {ls : List Text}

theorem inAlphabet (cut : LexemesOf s ls) : ∀ x ∈ s, InAlphabet x := by
  intro x hx
  rw [← cut.whole] at hx
  obtain ⟨l, member, hx⟩ := List.mem_flatten.mp hx
  rcases cut.each l member with ⟨c, rfl, alpha | slash⟩ | run
  · rw [List.mem_singleton.mp hx]
    exact .inl alpha
  · rw [List.mem_singleton.mp hx]
    exact .inr (.inr slash)
  · exact .inr (.inl (run.2 x hx))

theorem eq_lexemes (cut : LexemesOf s ls) : ls = lexemes s := by
  symm
  refine List.splitBy_eq_iff.mpr ⟨cut.whole.symm, ?_, ?_, ?_⟩
  · intro member
    rcases cut.each [] member with single | run
    · exact single.ne_nil rfl
    · exact run.1 rfl
  · intro l member
    rcases cut.each l member with ⟨c, rfl, -⟩ | run
    · exact .singleton c
    · exact run.isChain
  · refine cut.apart.imp_of_mem_imp fun a b ha hb apart => ?_
    have nonempty : ∀ l ∈ ls, l ≠ [] := fun l member =>
      (cut.each l member).elim IsSingle.ne_nil And.left
    refine ⟨nonempty a ha, nonempty b hb, ?_⟩
    -- A cut needs a lexeme without digits on one side, as two runs do not touch.
    rcases cut.each a ha with single | first
    · rw [bothDigits, single.isDigit_eq_false _ (List.getLast_mem _), Bool.false_and]
    · rcases cut.each b hb with single | second
      · rw [bothDigits, single.isDigit_eq_false _ (List.head_mem _), Bool.and_false]
      · exact absurd ⟨first, second⟩ apart

theorem parted (cut : LexemesOf s ls) : Parted ls := by
  intro before a between b after split first second
  have adjacent := List.isChain_iff_forall_rel_of_append_cons_cons.mp cut.apart
  cases between with
  | nil => exact absurd ⟨first, second⟩ (adjacent split)
  | cons l between =>
    refine ⟨l, List.mem_cons_self, ?_⟩
    have member : l ∈ ls := by simp [split]
    rcases cut.each l member with single | run
    · exact single
    · exact absurd ⟨first, run⟩ (adjacent split)

theorem tail {l : Text} (cut : LexemesOf s (l :: ls)) : LexemesOf ls.flatten ls where
  whole := rfl
  each m member := cut.each m (List.mem_cons_of_mem l member)
  apart := cut.apart.tail

theorem offDigits_tail {l : Text} (run : IsRun l) (cut : LexemesOf s (l :: ls)) :
    OffDigits ls.flatten := by
  cases ls with
  | nil => exact offDigits_nil
  | cons m ls =>
    rcases cut.each m (by simp) with single | second
    · have other := single.isDigit_eq_false
      obtain ⟨c, rfl, -⟩ := single
      exact offDigits_cons (other c List.mem_cons_self) ls.flatten
    · exact absurd ⟨run, second⟩ cut.apart.rel

theorem lexes (cut : LexemesOf s ls) : Lexes s (ls.flatMap lexemeTokens) := by
  induction ls generalizing s with
  | nil =>
    obtain rfl := cut.whole
    exact .nil
  | cons l ls ih =>
    have rest := ih cut.tail
    obtain rfl := cut.whole
    rcases cut.each l List.mem_cons_self with ⟨c, rfl, alpha | rfl⟩ | run
    · rw [List.flatMap_cons, lexemeTokens_letter alpha]
      exact .letter alpha rest
    · exact .slash rest
    · have maximal := cut.offDigits_tail run
      obtain ⟨nonempty, digits⟩ := run
      cases l with
      | nil => exact absurd rfl nonempty
      | cons d ds =>
        rw [List.flatMap_cons, lexemeTokens_run (digits d List.mem_cons_self)]
        exact .run digits maximal rest

end LexemesOf

theorem Lexes.eq_tokensOf {s : Text} {ts : List Token} (lexed : Lexes s ts) :
    ts = tokensOf s := by
  unfold tokensOf
  induction lexed with
  | nil => rfl
  | @letter c s ts alpha rest ih =>
    rw [lexemes_cons (not_isDigit_of_isAlpha alpha), List.flatMap_cons, lexemeTokens_letter alpha,
      ← ih]
    rfl
  | slash rest ih =>
    rw [lexemes_cons rfl, ih]
    rfl
  | @run d ds s ts digits maximal rest ih =>
    have run : IsRun (d :: ds) := ⟨List.cons_ne_nil d ds, digits⟩
    rw [lexemes_run run maximal, List.flatMap_cons, lexemeTokens_run (digits d List.mem_cons_self),
      ← ih]
    rfl

theorem lexes_iff {s : Text} {ts : List Token} :
    Lexes s ts ↔ (∀ x ∈ s, InAlphabet x) ∧ ts = tokensOf s := by
  constructor
  · intro lexed
    exact ⟨lexed.inAlphabet, lexed.eq_tokensOf⟩
  · rintro ⟨known, rfl⟩
    exact (lexemesOf_lexemes known).lexes

/-- A text over the alphabet has one cut into letters, slashes and runs that do not touch. -/
theorem lexemesOf_iff {s : Text} {ls : List Text} :
    LexemesOf s ls ↔ (∀ x ∈ s, InAlphabet x) ∧ ls = lexemes s := by
  constructor
  · intro cut
    exact ⟨cut.inAlphabet, cut.eq_lexemes⟩
  · rintro ⟨known, rfl⟩
    exact lexemesOf_lexemes known

def digitRuns (s : Text) : List Text :=
  (lexemes s).filter fun l => l.all Char.isDigit

/-- One for every letter and every run of digits, and one more for a run of two or more. -/
def tokenTally (s : Text) : Nat :=
  s.countP Char.isAlpha + (digitRuns s).length + (digitRuns s).countP fun l => 2 ≤ l.length

theorem digitRuns_cons {c : Char} (other : c.isDigit = false) (s : Text) :
    digitRuns (c :: s) = digitRuns s := by
  simp [digitRuns, lexemes_cons other, other]

theorem digitRuns_run {run s : Text} (digits : IsRun run) (off : OffDigits s) :
    digitRuns (run ++ s) = run :: digitRuns s := by
  rw [digitRuns, lexemes_run digits off]
  exact List.filter_cons_of_pos (List.all_eq_true.mpr digits.2)

theorem Lexes.length_eq {s : Text} {ts : List Token} (lexed : Lexes s ts) :
    ts.length = tokenTally s := by
  unfold tokenTally
  induction lexed with
  | nil => rfl
  | @letter c s ts alpha rest ih =>
    rw [digitRuns_cons (not_isDigit_of_isAlpha alpha), List.countP_cons_of_pos alpha,
      List.length_cons, ih]
    omega
  | slash rest ih =>
    rw [digitRuns_cons rfl, ih]
    rfl
  | @run d ds s ts digits maximal rest ih =>
    have run : IsRun (d :: ds) := ⟨List.cons_ne_nil d ds, digits⟩
    have letters : (d :: ds).countP Char.isAlpha = 0 := by
      apply List.countP_eq_zero.mpr
      intro x hx
      rw [isAlpha_of_isDigit (digits x hx)]
      exact Bool.false_ne_true
    rw [digitRuns_run run maximal, List.countP_append, letters, List.length_cons,
      List.length_append, ih, List.length_cons, List.countP_cons]
    cases ds with
    | nil => simp [furtherTokens]; omega
    | cons e es => simp [furtherTokens]; omega

end ChordSymbols
