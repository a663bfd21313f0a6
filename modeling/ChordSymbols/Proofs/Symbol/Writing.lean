import ChordSymbols.Proofs.Symbol.Tokenizing

/-!
# Writing tokens

Tokens are written as their texts in a row. A slash is needed only before a
number that would else lengthen the run of digits in front of it, so that the
text falls apart into the same tokens again. The lists that can be read are
thereby all told: letters, numbers and further digits in any order and of any
length, but further digits only behind a number.
-/

namespace ChordSymbols

/-- The texts that the scanner gives to each kind. It has none for a slash. -/
inductive Token.Scanned : Token → Prop where
  | letter {c : Char} (alpha : c.isAlpha = true) : Scanned (.letter c)
  | number {d : Char} (digit : d.isDigit = true) : Scanned (.number d)
  | further {ds : Text} (filled : ds ≠ []) (digits : ∀ x ∈ ds, x.isDigit = true) :
      Scanned (.further ds)

structure WellFormedTokens (ts : List Token) : Prop where
  filled : ts ≠ []
  each : ∀ t ∈ ts, t.Scanned
  behind : FurtherBehindNumber ts

/-- Whether a token of this kind is written with digits. -/
def TokenKind.isNumeric : TokenKind → Bool
  | .number | .further => true
  | .letter | .slash => false

/-- The texts of tokens in a row, behind a token with digits or one without. -/
def writtenBehind (digits : Bool) : List Token → Text
  | [] => []
  | t :: ts =>
    (if digits ∧ t.kind = .number then '/' :: t.text else t.text) ++
      writtenBehind t.kind.isNumeric ts

def written (ts : List Token) : Text := writtenBehind false ts

section Written

variable (digits : Bool) (ts : List Token)

theorem writtenBehind_letter (c : Char) :
    writtenBehind digits (.letter c :: ts) = c :: writtenBehind false ts := by
  simp [writtenBehind, Token.letter, TokenKind.isNumeric]

theorem writtenBehind_number (d : Char) :
    writtenBehind digits (.number d :: ts) =
      if digits then '/' :: d :: writtenBehind true ts else d :: writtenBehind true ts := by
  cases digits <;> simp [writtenBehind, Token.number, TokenKind.isNumeric]

theorem writtenBehind_further (ds : Text) :
    writtenBehind digits (.further ds :: ts) = ds ++ writtenBehind true ts := by
  simp [writtenBehind, Token.further, TokenKind.isNumeric]

end Written

theorem FurtherBehindNumber.offFurther {ts : List Token} (behind : FurtherBehindNumber ts) :
    OffFurther ts := by
  intro v first
  rw [List.head?_eq_getElem?] at first
  obtain ⟨j, d, zero, -⟩ := behind 0 v first
  omega

/-- Only a number may stand in front of further digits. -/
def MayPrecede (t u : Token) : Prop :=
  u.kind = .further → t.kind = .number

theorem FurtherBehindNumber.isChain {ts : List Token} (behind : FurtherBehindNumber ts) :
    ts.IsChain MayPrecede := by
  apply List.isChain_iff_forall_rel_of_append_cons_cons.mpr
  rintro t ⟨kind, v⟩ before after rfl further
  obtain rfl : kind = .further := further
  obtain ⟨j, d, place, number⟩ := behind (before.length + 1) v (by simp)
  obtain rfl : j = before.length := by omega
  have same : t = .number d := by simpa using number
  rw [same]
  rfl

theorem offFurther_of_chain {t : Token} {ts : List Token} (chain : (t :: ts).IsChain MayPrecede)
    (other : t.kind ≠ .number) : OffFurther ts := by
  intro v first
  cases ts with
  | nil => cases first
  | cons u us =>
    cases first
    exact other (chain.rel rfl)

theorem Lexes.single {d : Char} {s : Text} {ts : List Token} (digit : d.isDigit = true)
    (maximal : OffDigits s) (rest : Lexes s ts) : Lexes (d :: s) (.number d :: ts) :=
  .of_run (List.forall_mem_singleton.mpr digit) maximal rest

/-- Behind a number, tokens lengthen its run by as much as they should; and where no further
digits come first, they are read by themselves, without lengthening digits in front. -/
theorem lexes_writtenBehind {ts : List Token} (each : ∀ t ∈ ts, t.Scanned)
    (chain : ts.IsChain MayPrecede) :
    (∀ d : Char, d.isDigit = true → Lexes (d :: writtenBehind true ts) (.number d :: ts)) ∧
      (OffFurther ts → ∀ digits, Lexes (writtenBehind digits ts) ts ∧
        (digits = true → OffDigits (writtenBehind digits ts))) := by
  induction ts with
  | nil =>
    refine ⟨fun d digit => .single digit offDigits_nil .nil, fun _ digits => ?_⟩
    exact ⟨.nil, fun _ => offDigits_nil⟩
  | cons t ts ih =>
    obtain ⟨numbered, alone⟩ := ih (fun u hu => each u (List.mem_cons_of_mem t hu)) chain.tail
    cases each t List.mem_cons_self with
    | @letter c alpha =>
      obtain ⟨rest, -⟩ := alone (offFurther_of_chain chain TokenKind.noConfusion) false
      have whole : Lexes (c :: writtenBehind false ts) (.letter c :: ts) := .letter alpha rest
      have off : OffDigits (c :: writtenBehind false ts) :=
        offDigits_cons (not_isDigit_of_isAlpha alpha) _
      simp only [writtenBehind_letter]
      exact ⟨fun d digit => .single digit off whole, fun _ _ => ⟨whole, fun _ => off⟩⟩
    | @number e digit =>
      have whole := numbered e digit
      have off : OffDigits ('/' :: e :: writtenBehind true ts) := offDigits_cons (by decide) _
      simp only [writtenBehind_number]
      refine ⟨fun d first => .single first off (.slash whole), fun _ digits => ?_⟩
      cases digits with
      | true => exact ⟨.slash whole, fun _ => off⟩
      | false => exact ⟨whole, Bool.noConfusion⟩
    | @further ds filled digits =>
      obtain ⟨rest, off⟩ := alone (offFurther_of_chain chain TokenKind.noConfusion) true
      obtain ⟨x, xs, rfl⟩ := List.exists_cons_of_ne_nil filled
      refine ⟨fun d digit => ?_, fun front => absurd rfl (front (x :: xs))⟩
      have run : ∀ y ∈ d :: x :: xs, y.isDigit = true := List.forall_mem_cons.mpr ⟨digit, digits⟩
      rw [writtenBehind_further]
      exact .run run (off rfl) rest

theorem Lexes.scanned {s : Text} {ts : List Token} (lexed : Lexes s ts) :
    ∀ t ∈ ts, t.Scanned := by
  induction lexed with
  | nil => simp
  | letter alpha rest ih => exact List.forall_mem_cons.mpr ⟨.letter alpha, ih⟩
  | slash rest ih => exact ih
  | @run d ds s ts digits maximal rest ih =>
    obtain ⟨digit, more⟩ := List.forall_mem_cons.mp digits
    have behind : ∀ t ∈ furtherTokens ds, t.Scanned := by
      cases ds with
      | nil => simp [furtherTokens]
      | cons x xs => simpa [furtherTokens] using Token.Scanned.further (by simp) more
    exact List.forall_mem_cons.mpr ⟨.number digit, List.forall_mem_append.mpr ⟨behind, ih⟩⟩

theorem WellFormedTokens.tokenize_written {ts : List Token} (formed : WellFormedTokens ts) :
    tokenize (written ts) = .ok ts := by
  obtain ⟨-, alone⟩ := lexes_writtenBehind formed.each formed.behind.isChain
  obtain ⟨lexed, -⟩ := alone formed.behind.offFurther false
  exact tokenize_eq_ok.mpr ⟨lexed, formed.filled⟩

theorem wellFormed_of_tokenize {s : Text} {ts : List Token} (read : tokenize s = .ok ts) :
    WellFormedTokens ts := by
  obtain ⟨lexed, filled⟩ := tokenize_eq_ok.mp read
  exact ⟨filled, lexed.scanned, lexed.furtherBehindNumber⟩

/-- Well-formed tokens are read back from what is written of them, and no others are read from
any text. -/
theorem written_tokens_read_back :
    (∀ ts, WellFormedTokens ts → tokenize (written ts) = .ok ts) ∧
      ∀ ts, (∃ s, tokenize s = .ok ts) ↔ WellFormedTokens ts := by
  refine ⟨fun ts formed => formed.tokenize_written, fun ts => ?_⟩
  constructor
  · rintro ⟨s, read⟩
    exact wellFormed_of_tokenize read
  · intro formed
    exact ⟨written ts, formed.tokenize_written⟩

/-- Two slashes part three numbers, one of them with further digits; a letter needs none. -/
theorem written_tokens_read_back_three_numbers :
    WellFormedTokens [.letter 'm', .number '4', .further ['4', '3'], .number '7', .number '5',
        .letter 'b', .number '1'] ∧
      tokenize ['m', '4', '4', '3', '/', '7', '/', '5', 'b', '1'] =
        .ok [.letter 'm', .number '4', .further ['4', '3'], .number '7', .number '5',
          .letter 'b', .number '1'] := by
  have formed : WellFormedTokens [.letter 'm', .number '4', .further ['4', '3'], .number '7',
      .number '5', .letter 'b', .number '1'] := by
    refine ⟨by simp, ?_, ?_⟩
    · have further : Token.Scanned (.further ['4', '3']) :=
        .further (by simp) (List.forall_mem_cons.mpr ⟨rfl, List.forall_mem_singleton.mpr rfl⟩)
      simp only [List.forall_mem_cons]
      exact ⟨.letter rfl, .number rfl, further, .number rfl, .number rfl, .letter rfl,
        .number rfl, by simp⟩
    · intro i v stands
      match i with
      | 2 => exact ⟨1, '4', rfl, rfl⟩
      | 0 | 1 | 3 | 4 | 5 | 6 | i + 7 => cases stands
  exact ⟨formed, written_tokens_read_back.1 _ formed⟩

end ChordSymbols
