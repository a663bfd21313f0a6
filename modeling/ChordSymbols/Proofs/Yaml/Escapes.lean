import ChordSymbols.Yaml.Scalar
import Mathlib.Algebra.Group.Nat.Defs

/-!
# Double quotes are read back

A reader of double quotes takes a backslash and what belongs to it for one
character, or for nothing where a line feed follows: then the blanks that begin
the next line are dropped too. So a line may be broken anywhere, provided that a
blank of the text that would begin a line is marked by a backslash.
-/

namespace ChordSymbols.Yaml

def hexValue (c : Char) : Nat :=
  if c.isDigit then c.toNat - 48 else c.toNat - 55

def ofHex (ds : Text) : Nat :=
  ds.foldl (fun n d => 16 * n + hexValue d) 0

/-- The number of digits after the letter of an escape by code. -/
def codeLength? (c : Char) : Option Nat :=
  [('x', 2), ('u', 4), ('U', 8)].lookup c

/-- What a single character after a backslash stands for; mostly for itself. -/
def longForm (c : Char) : Char :=
  match shortEscapes.find? (·.2 = c) with
  | some p => Char.ofNat p.1
  | none => c

/-- Where a reader is: in the text, at the start of a line, behind a backslash, or in a code of
which some digits are missing. -/
inductive Within where
  | text
  | line
  | escape
  | code (missing : Nat) (ds : Text)

/-- The text between double quotes. -/
def unescaped : Within → Text → Text
  | _, [] => []
  | .text, c :: rest =>
    if c = backslash then unescaped .escape rest else c :: unescaped .text rest
  | .line, c :: rest =>
    if c = ' ' then unescaped .line rest
    else if c = backslash then unescaped .escape rest else c :: unescaped .text rest
  | .escape, c :: rest =>
    if c = '\n' then unescaped .line rest
    else match codeLength? c with
      | some n => unescaped (.code n []) rest
      | none => longForm c :: unescaped .text rest
  | .code missing ds, c :: rest =>
    if missing ≤ 1 then Char.ofNat (ofHex (ds ++ [c])) :: unescaped .text rest
    else unescaped (.code (missing - 1) (ds ++ [c])) rest

theorem length_hexText (digit : Nat → Char) (width n : Nat) :
    (hexText digit width n).length = width := by
  induction width generalizing n with
  | zero => rfl
  | succ width ih => rw [hexText, List.length_append, ih, List.length_singleton]

theorem hexValue_hexUpper : ∀ d < 16, hexValue (hexUpper d) = d := by
  decide

theorem ofHex_hexText (width n : Nat) : ofHex (hexText hexUpper width n) = n % 16 ^ width := by
  induction width generalizing n with
  | zero => rw [pow_zero, Nat.mod_one, hexText, ofHex, List.foldl_nil]
  | succ width ih =>
    have digit : hexValue (hexUpper (n % 16)) = n % 16 :=
      hexValue_hexUpper _ (Nat.mod_lt n (by decide))
    calc ofHex (hexText hexUpper (width + 1) n)
        = 16 * ofHex (hexText hexUpper width (n / 16)) + n % 16 := by
          rw [hexText, ofHex, List.foldl_append, ← ofHex, List.foldl_cons, List.foldl_nil, digit]
      _ = n % 16 + 16 * (n / 16 % 16 ^ width) := by rw [ih, Nat.add_comm]
      _ = n % 16 ^ (width + 1) := by rw [pow_succ', Nat.mod_mul]

theorem unescaped_digits {xs : Text} (filled : xs ≠ []) (ds rest : Text) :
    unescaped (.code xs.length ds) (xs ++ rest) =
      Char.ofNat (ofHex (ds ++ xs)) :: unescaped .text rest := by
  induction xs generalizing ds with
  | nil => exact absurd rfl filled
  | cons x xs ih =>
    rw [List.cons_append, unescaped]
    cases xs with
    | nil => rfl
    | cons y ys =>
      have more : ¬ (x :: y :: ys).length ≤ 1 := by simp
      rw [if_neg more, List.length_cons, Nat.add_sub_cancel, ih (List.cons_ne_nil y ys),
        List.append_assoc]
      rfl

theorem unescaped_escape (rest : Text) :
    unescaped .text (backslash :: rest) = unescaped .escape rest := by
  rw [unescaped, if_pos rfl]

/-- A character that is written by its code. -/
theorem unescaped_code {c letter : Char} {width : Nat} (wide : 0 < width)
    (known : codeLength? letter = some width) (inLine : letter ≠ '\n')
    (fits : c.toNat < 16 ^ width) (rest : Text) :
    unescaped .text (backslash :: letter :: (hexText hexUpper width c.toNat ++ rest)) =
      c :: unescaped .text rest := by
  have size := length_hexText hexUpper width c.toNat
  have filled : hexText hexUpper width c.toNat ≠ [] := by
    intro none
    rw [none, List.length_nil] at size
    omega
  have read := unescaped_digits filled [] rest
  rw [size, List.nil_append, ofHex_hexText, Nat.mod_eq_of_lt fits, Char.ofNat_toNat] at read
  rw [unescaped_escape, unescaped, if_neg inLine, known]
  exact read

/-- The letters of the short escapes stand for their characters, and for nothing else. -/
theorem longForm_shortEscapes : ∀ p ∈ shortEscapes,
    p.2 ≠ '\n' ∧ codeLength? p.2 = none ∧ longForm p.2 = Char.ofNat p.1 := by
  decide

/-- An escape is read as the character that it was written for. -/
theorem unescaped_of_escape {c : Char} {e : Text} (escape : escape? c = some e) (rest : Text) :
    unescaped .text (e ++ rest) = c :: unescaped .text rest := by
  rw [escape?] at escape
  split at escape
  · cases escape
  · split at escape
    · rename_i letter short
      cases escape
      obtain ⟨front, back, table, -⟩ := List.lookup_eq_some_iff.mp short
      have member : (c.toNat, letter) ∈ shortEscapes := by
        rw [table]
        exact List.mem_append_right front List.mem_cons_self
      obtain ⟨inLine, single, long⟩ := longForm_shortEscapes _ member
      rw [List.cons_append, List.singleton_append, unescaped_escape, unescaped, if_neg inLine,
        single]
      dsimp only
      rw [long, Char.ofNat_toNat]
    · split at escape
      · rename_i low
        cases escape
        exact unescaped_code (by decide) rfl (by decide) low rest
      · split at escape
        · rename_i middle
          cases escape
          exact unescaped_code (by decide) rfl (by decide) middle rest
        · cases escape
          have high : c.toNat < 16 ^ 8 := by
            have valid := c.val.toNat_lt
            exact valid
          exact unescaped_code (by decide) rfl (by decide) high rest

/-- Every escape begins with a backslash, and neither a backslash nor a quote goes without one. -/
theorem escape?_cases (c : Char) :
    (∃ e, escape? c = some (backslash :: e)) ∨
      escape? c = none ∧ c ≠ backslash ∧ c ≠ doubleQuote := by
  rw [escape?]
  split
  · rename_i plain
    exact .inr ⟨rfl, plain.2.2.2, plain.2.2.1⟩
  · refine .inl ?_
    split
    · exact ⟨_, rfl⟩
    · split
      · exact ⟨_, rfl⟩
      · split <;> exact ⟨_, rfl⟩

theorem unescaped_line_blanks (n : Nat) (rest : Text) :
    unescaped .line (List.replicate n ' ' ++ rest) = unescaped .line rest := by
  induction n with
  | zero => rfl
  | succ n ih => rw [List.replicate_succ, List.cons_append, unescaped, if_pos rfl, ih]

theorem unescaped_line {t : Text} (unindented : t.head? ≠ some ' ') :
    unescaped .line t = unescaped .text t := by
  cases t with
  | nil => rfl
  | cons c t =>
    have other : c ≠ ' ' := fun same => unindented (congrArg some same)
    rw [unescaped, unescaped, if_neg other]

/-- A broken line is read as if it had not been broken. -/
theorem unescaped_continued {indent : Nat} {t w : Text}
    (first : t.head? = some ' ' ↔ w.head? = some ' ') :
    unescaped .text (continued indent t ++ w) = unescaped .text w := by
  have broken (rest : Text) : unescaped .text (backslash :: (newLine indent ++ rest)) =
      unescaped .line rest := by
    rw [unescaped_escape, newLine, List.cons_append, unescaped, if_pos rfl, unescaped_line_blanks]
  rw [continued, List.cons_append, List.cons_append, List.append_assoc, broken]
  by_cases blank : t.head? = some ' '
  · obtain ⟨rest, rfl⟩ := List.head?_eq_some_iff.mp (first.mp blank)
    have marked : (backslash :: ' ' :: rest).head? ≠ some ' ' := by
      simp [backslash]
    rw [if_pos blank, List.singleton_append, unescaped_line marked, unescaped_escape]
    rfl
  · rw [if_neg blank, List.nil_append]
    exact unescaped_line (mt first.mpr blank)

/-- At the start of a line what is written begins with a blank exactly if the text does. -/
theorem head?_foldedDouble {indent column : Nat} (near : column ≤ lineWidth) (t : Text) :
    t.head? = some ' ' ↔ (foldedDouble indent false false column t).head? = some ' ' := by
  cases t with
  | nil => exact Iff.rfl
  | cons c rest =>
    rw [foldedDouble]
    rcases escape?_cases c with ⟨e, escape⟩ | ⟨plain, -, -⟩
    · rw [escape]
      have other : c ≠ ' ' := by
        rintro rfl
        cases escape
      dsimp only
      split <;> simp [other, backslash]
    · rw [plain]
      dsimp only
      have short : decide (lineWidth < column) = false := by simpa using near
      rw [short, Bool.and_false, if_neg (by decide)]
      simp

/-- What is written in double quotes is read back. -/
theorem unescaped_foldedDouble {indent : Nat} (narrow : indent < lineWidth) (t : Text)
    (first running : Bool) (column : Nat) :
    unescaped .text (foldedDouble indent first running column t) = t := by
  have near (t : Text) : continuedColumn indent t ≤ lineWidth := by
    rw [continuedColumn]
    split <;> omega
  induction t generalizing first running column with
  | nil => rfl
  | cons c rest ih =>
    rw [foldedDouble]
    rcases escape?_cases c with ⟨e, escape⟩ | ⟨plain, solid, -⟩
    · have read := unescaped_of_escape escape
      rw [escape]
      dsimp only
      split
      · rw [List.append_assoc, read, unescaped_continued (head?_foldedDouble (near rest) rest), ih]
      · rw [read, ih]
    · rw [plain]
      dsimp only
      split
      · rw [unescaped_continued (by simp), unescaped, if_neg solid, ih]
      · rw [unescaped, if_neg solid, ih]

end ChordSymbols.Yaml
