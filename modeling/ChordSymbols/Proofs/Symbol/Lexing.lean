import ChordSymbols.Proofs.Outcome
import ChordSymbols.Symbol.Scan

/-!
# The lexemes of a chord symbol

A text over the alphabet of chord symbols falls apart into single letters,
single slashes and runs of digits that cannot be lengthened. `Lexes` says which
tokens a text has without a scan and without positions; scanning is exact for
it. Two runs of digits never touch, so a text has one list of tokens at most.
-/

namespace ChordSymbols

def InAlphabet (c : Char) : Prop :=
  c.isAlpha = true ∨ c.isDigit = true ∨ c = '/'

/-- No digit stands in front. -/
def OffDigits (s : Text) : Prop :=
  ∀ c, s.head? = some c → c.isDigit = false

/-- The digits of a run after its first, as one token if there are any. -/
def furtherTokens : Text → List Token
  | [] => []
  | d :: ds => [.further (d :: ds)]

inductive Lexes : Text → List Token → Prop where
  | nil : Lexes [] []
  | letter {c : Char} {s : Text} {ts : List Token} (alpha : c.isAlpha = true)
      (rest : Lexes s ts) : Lexes (c :: s) (.letter c :: ts)
  | slash {s : Text} {ts : List Token} (rest : Lexes s ts) : Lexes ('/' :: s) ts
  | run {d : Char} {ds s : Text} {ts : List Token} (digits : ∀ x ∈ d :: ds, x.isDigit = true)
      (maximal : OffDigits s) (rest : Lexes s ts) :
      Lexes (d :: ds ++ s) (.number d :: (furtherTokens ds ++ ts))

theorem runTokens_cons (d : Char) (ds : Text) :
    runTokens (d :: ds) = .number d :: furtherTokens ds := by
  cases ds <;> rfl

theorem isAlpha_iff_toNat {c : Char} : c.isAlpha = true ↔
    (65 ≤ c.toNat ∧ c.toNat ≤ 90) ∨ (97 ≤ c.toNat ∧ c.toNat ≤ 122) := by
  have upper : c.isUpper = true ↔ 65 ≤ c.toNat ∧ c.toNat ≤ 90 := decide_eq_true_iff
  have lower : c.isLower = true ↔ 97 ≤ c.toNat ∧ c.toNat ≤ 122 :=
    Bool.and_eq_true_iff.trans (and_congr decide_eq_true_iff decide_eq_true_iff)
  exact Bool.or_eq_true_iff.trans (or_congr upper lower)

theorem isAlpha_of_isDigit {c : Char} (digit : c.isDigit = true) : c.isAlpha = false := by
  have range := Char.isDigit_iff_toNat.mp digit
  have high : c.toNat ≤ 57 := range.2
  rw [Bool.eq_false_iff]
  intro alpha
  have := isAlpha_iff_toNat.mp alpha
  omega

theorem not_isDigit_of_isAlpha {c : Char} (alpha : c.isAlpha = true) : c.isDigit = false := by
  rw [Bool.eq_false_iff]
  intro digit
  rw [isAlpha_of_isDigit digit] at alpha
  cases alpha

theorem classify_eq_letter {c : Char} : classify c = .letter ↔ c.isAlpha = true := by
  rw [classify]
  constructor
  · intro h
    by_cases alpha : c.isAlpha = true
    · exact alpha
    · rw [if_neg alpha] at h
      split at h
      · cases h
      · split at h <;> cases h
  · intro alpha
    rw [if_pos alpha]

theorem classify_eq_digit {c : Char} : classify c = .digit ↔ c.isDigit = true := by
  rw [classify]
  constructor
  · intro h
    split at h
    · cases h
    · split at h
      · assumption
      · split at h <;> cases h
  · intro digit
    rw [isAlpha_of_isDigit digit, if_neg (by decide), if_pos digit]

theorem classify_eq_slash {c : Char} : classify c = .slash ↔ c = '/' := by
  constructor
  · unfold classify
    intro h
    split at h
    · cases h
    · split at h
      · cases h
      · split at h
        · assumption
        · cases h
  · intro slash
    subst slash
    rfl

theorem offDigits_nil : OffDigits [] := by
  intro c h
  cases h

theorem offDigits_cons {c : Char} (other : c.isDigit = false) (s : Text) : OffDigits (c :: s) := by
  intro d h
  cases h
  exact other

/-- A run of digits in front of a text is empty where no digit stands in front. -/
theorem OffDigits.run_eq_nil {run s : Text} (off : OffDigits (run ++ s))
    (digits : ∀ x ∈ run, x.isDigit = true) : run = [] := by
  cases run with
  | nil => rfl
  | cons d ds =>
    have isDigit := digits d List.mem_cons_self
    have notDigit := off d rfl
    rw [isDigit] at notDigit
    cases notDigit

theorem Lexes.of_run {run s : Text} {ts : List Token} (digits : ∀ x ∈ run, x.isDigit = true)
    (maximal : OffDigits s) (rest : Lexes s ts) : Lexes (run ++ s) (runTokens run ++ ts) := by
  cases run with
  | nil => exact rest
  | cons d ds =>
    rw [runTokens_cons]
    exact .run digits maximal rest

/-- What a scan leaves open is the whole run in front; the rest has been read. -/
theorem scan_sound {i : Nat} {s run : Text} {ts : List Token} (h : scan i s = .ok (run, ts)) :
    ∃ rest, s = run ++ rest ∧ (∀ x ∈ run, x.isDigit = true) ∧ OffDigits rest ∧ Lexes rest ts := by
  induction s generalizing i run ts with
  | nil =>
    cases h
    exact ⟨[], rfl, by simp, offDigits_nil, .nil⟩
  | cons c cs ih =>
    have whole : ∀ {run ts}, scan (i + 1) cs = .ok (run, ts) →
        Lexes cs (runTokens run ++ ts) := by
      intro run ts tail
      obtain ⟨rest, split, digits, off, lexed⟩ := ih tail
      exact split ▸ .of_run digits off lexed
    cases hc : classify c with
    | other =>
      rw [scan, hc] at h
      cases h
    | digit =>
      rw [scan, hc] at h
      obtain ⟨⟨run', ts'⟩, tail, same⟩ := map_eq_ok.mp h
      cases same
      obtain ⟨rest, split, digits, off, lexed⟩ := ih tail
      refine ⟨rest, by rw [split]; rfl, ?_, off, lexed⟩
      intro x hx
      rcases List.mem_cons.mp hx with rfl | hx
      · exact classify_eq_digit.mp hc
      · exact digits x hx
    | letter =>
      rw [scan, hc] at h
      obtain ⟨⟨run', ts'⟩, tail, same⟩ := map_eq_ok.mp h
      cases same
      have alpha := classify_eq_letter.mp hc
      have off := offDigits_cons (not_isDigit_of_isAlpha alpha) cs
      exact ⟨c :: cs, rfl, by simp, off, .letter alpha (whole tail)⟩
    | slash =>
      rw [scan, hc] at h
      obtain ⟨⟨run', ts'⟩, tail, same⟩ := map_eq_ok.mp h
      cases same
      have slash := classify_eq_slash.mp hc
      subst slash
      exact ⟨'/' :: cs, rfl, by simp, offDigits_cons (by decide) cs, .slash (whole tail)⟩

theorem lexes_of_scan {i : Nat} {s run : Text} {ts : List Token}
    (h : scan i s = .ok (run, ts)) : Lexes s (runTokens run ++ ts) := by
  obtain ⟨rest, split, digits, off, lexed⟩ := scan_sound h
  exact split ▸ .of_run digits off lexed

/-- A scan goes through digits in front without reading them. -/
theorem scan_digits {ds : Text} (digits : ∀ x ∈ ds, x.isDigit = true) (i : Nat) (s : Text) :
    scan i (ds ++ s) = (scan (i + ds.length) s).map fun (run, ts) => (ds ++ run, ts) := by
  induction ds generalizing i with
  | nil =>
    cases h : scan i s <;> simp [h, Except.map]
  | cons d ds ih =>
    have digit := classify_eq_digit.mpr (digits d List.mem_cons_self)
    have tail := ih (fun x hx => digits x (List.mem_cons_of_mem d hx)) (i + 1)
    have place : i + 1 + ds.length = i + (d :: ds).length := by
      rw [List.length_cons]
      omega
    rw [List.cons_append, scan, digit, tail, place]
    cases scan (i + (d :: ds).length) s <;> rfl

theorem scan_complete {s : Text} {ts : List Token} (lexed : Lexes s ts) (i : Nat) :
    ∃ run later, scan i s = .ok (run, later) ∧ runTokens run ++ later = ts := by
  induction lexed generalizing i with
  | nil => exact ⟨[], [], rfl, rfl⟩
  | @letter c s ts alpha rest ih =>
    obtain ⟨run, later, tail, same⟩ := ih (i + 1)
    refine ⟨[], .letter c :: (runTokens run ++ later), ?_, by rw [same]; rfl⟩
    rw [scan, classify_eq_letter.mpr alpha, tail]
    rfl
  | @slash s ts rest ih =>
    obtain ⟨run, later, tail, same⟩ := ih (i + 1)
    refine ⟨[], runTokens run ++ later, ?_, by rw [same]; rfl⟩
    rw [scan, classify_eq_slash.mpr rfl, tail]
    rfl
  | @run d ds s ts digits maximal rest ih =>
    obtain ⟨run, later, tail, same⟩ := ih (i + (d :: ds).length)
    obtain ⟨behind, split, inRun, -, -⟩ := scan_sound tail
    have empty : run = [] := by
      rw [split] at maximal
      exact maximal.run_eq_nil inRun
    subst empty
    refine ⟨d :: ds, later, ?_, ?_⟩
    · rw [scan_digits digits, tail]
      simp [Except.map]
    · rw [runTokens_cons, ← same]
      rfl

/-- The tokens of a symbol are those of its lexemes, and there has to be one. -/
theorem tokenize_eq_ok {s : Text} {ts : List Token} :
    tokenize s = .ok ts ↔ Lexes s ts ∧ ts ≠ [] := by
  rw [tokenize, bind_eq_ok]
  constructor
  · rintro ⟨⟨run, later⟩, scanned, finished⟩
    have whole := lexes_of_scan scanned
    cases found : runTokens run ++ later with
    | nil =>
      simp only [found] at finished
      cases finished
    | cons t more =>
      simp only [found] at finished
      cases finished
      exact ⟨found ▸ whole, by simp⟩
  · rintro ⟨lexed, nonempty⟩
    obtain ⟨run, later, scanned, same⟩ := scan_complete lexed 0
    refine ⟨(run, later), scanned, ?_⟩
    cases ts with
    | nil => exact absurd rfl nonempty
    | cons t more => simp only [same]

theorem Lexes.inAlphabet {s : Text} {ts : List Token} (lexed : Lexes s ts) :
    ∀ x ∈ s, InAlphabet x := by
  induction lexed with
  | nil => simp
  | letter alpha rest ih =>
    intro x hx
    rcases List.mem_cons.mp hx with rfl | hx
    · exact Or.inl alpha
    · exact ih x hx
  | slash rest ih =>
    intro x hx
    rcases List.mem_cons.mp hx with rfl | hx
    · exact Or.inr (Or.inr rfl)
    · exact ih x hx
  | run digits maximal rest ih =>
    intro x hx
    rcases List.mem_append.mp hx with hx | hx
    · exact Or.inr (Or.inl (digits x hx))
    · exact ih x hx

/-- Any number of slashes. -/
def slashes (n : Nat) : Text := List.replicate n '/'

theorem slashes_zero : slashes 0 = [] := rfl

theorem slashes_succ (n : Nat) : slashes (n + 1) = '/' :: slashes n := rfl

theorem offDigits_slashes (n : Nat) : OffDigits (slashes n) := by
  cases n with
  | zero => exact offDigits_nil
  | succ n => exact offDigits_cons (by decide) (slashes n)

namespace Lexes

theorem slashes_append (n : Nat) {s : Text} {ts : List Token} (rest : Lexes s ts) :
    Lexes (slashes n ++ s) ts := by
  induction n with
  | zero => exact rest
  | succ n ih => exact .slash ih

theorem slashes_nil (n : Nat) : Lexes (slashes n) [] := by
  simpa using slashes_append n .nil

theorem eq_slashes {s : Text} (lexed : Lexes s []) : ∃ n, s = slashes n := by
  generalize empty : ([] : List Token) = ts at lexed
  induction lexed with
  | nil => exact ⟨0, rfl⟩
  | slash rest ih =>
    obtain ⟨n, same⟩ := ih empty
    exact ⟨n + 1, by rw [same, slashes_succ]⟩
  | letter alpha rest => cases empty
  | run digits maximal rest => cases empty

/-- A letter token comes from a letter behind slashes. -/
theorem letter_first {s l : Text} {ts : List Token} (lexed : Lexes s (⟨.letter, l⟩ :: ts)) :
    ∃ n c rest, s = slashes n ++ c :: rest ∧ l = [c] ∧ Lexes rest ts := by
  generalize split : (⟨.letter, l⟩ :: ts : List Token) = us at lexed
  induction lexed with
  | nil => cases split
  | @letter c s us alpha rest =>
    cases split
    exact ⟨0, c, s, rfl, rfl, rest⟩
  | slash rest ih =>
    obtain ⟨n, c, behind, same, single, lexed⟩ := ih split
    exact ⟨n + 1, c, behind, by rw [same, slashes_succ]; rfl, single, lexed⟩
  | run digits maximal rest => cases split

/-- A number token comes from a whole run of digits behind slashes. -/
theorem number_first {s v : Text} {ts : List Token} (lexed : Lexes s (⟨.number, v⟩ :: ts)) :
    ∃ n d ds rest later, s = slashes n ++ (d :: (ds ++ rest)) ∧ v = [d] ∧
      ts = furtherTokens ds ++ later ∧ OffDigits rest ∧ Lexes rest later := by
  generalize split : (⟨.number, v⟩ :: ts : List Token) = us at lexed
  induction lexed with
  | nil => cases split
  | letter alpha rest => cases split
  | slash rest ih =>
    obtain ⟨n, d, ds, behind, later, same, single, more, off, lexed⟩ := ih split
    exact ⟨n + 1, d, ds, behind, later, by rw [same, slashes_succ]; rfl, single, more, off, lexed⟩
  | @run d ds s us digits maximal rest =>
    cases split
    exact ⟨0, d, ds, s, us, rfl, rfl, rfl, maximal, rest⟩

/-- Further digits never come first: their number is before them. -/
theorem not_further_first {s v : Text} {ts : List Token} :
    ¬ Lexes s (⟨.further, v⟩ :: ts) := by
  intro lexed
  generalize split : (⟨.further, v⟩ :: ts : List Token) = us at lexed
  induction lexed with
  | nil => cases split
  | letter alpha rest => cases split
  | slash rest ih => exact ih split
  | run digits maximal rest => cases split

end Lexes

/-- No token of further digits stands in front. -/
def OffFurther (ts : List Token) : Prop :=
  ∀ v, ts.head? ≠ some ⟨.further, v⟩

theorem offFurther_nil : OffFurther [] := by
  intro v h
  cases h

theorem Lexes.offFurther {s : Text} {ts : List Token} (lexed : Lexes s ts) : OffFurther ts := by
  intro v first
  cases ts with
  | nil => cases first
  | cons t ts =>
    cases first
    exact lexed.not_further_first

/-- A list of tokens shows where the further digits of a number end. -/
theorem furtherTokens_append_inj {ds es : Text} {ts us : List Token} (ht : OffFurther ts)
    (hu : OffFurther us) (same : furtherTokens ds ++ ts = furtherTokens es ++ us) :
    ds = es ∧ ts = us := by
  cases ds with
  | nil =>
    cases es with
    | nil => exact ⟨rfl, same⟩
    | cons e es =>
      have first : ts = .further (e :: es) :: us := same
      subst first
      exact absurd rfl (ht (e :: es))
  | cons d ds =>
    cases es with
    | nil =>
      have first : us = .further (d :: ds) :: ts := same.symm
      subst first
      exact absurd rfl (hu (d :: ds))
    | cons e es =>
      cases same
      exact ⟨rfl, rfl⟩

theorem Lexes.run_first {s ds : Text} {d : Char} {ts : List Token} (off : OffFurther ts)
    (lexed : Lexes s (.number d :: (furtherTokens ds ++ ts))) :
    ∃ n rest, s = slashes n ++ d :: (ds ++ rest) ∧ OffDigits rest ∧ Lexes rest ts := by
  obtain ⟨n, e, es, rest, later, same, single, more, maximal, tail⟩ := lexed.number_first
  cases single
  obtain ⟨rfl, rfl⟩ := furtherTokens_append_inj off tail.offFurther more
  exact ⟨n, rest, same, maximal, tail⟩

end ChordSymbols
