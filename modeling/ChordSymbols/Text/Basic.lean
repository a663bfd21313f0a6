/-!
# Texts

A text is a list of characters, so positions count characters and every
function on it is a plain recursion. A character is a code point other than a
surrogate: texts that hold a surrogate by itself, as a string of escaped code
units may, are outside of this type, and nothing is said of them. Strings appear
only where a finished message or a written form leaves the library.
-/

namespace ChordSymbols

abbrev Text := List Char

/-- Membership of a code point in a list of closed ranges. -/
def inRanges (ranges : List (Nat × Nat)) (n : Nat) : Bool :=
  ranges.any fun r => r.1 ≤ n && n ≤ r.2

/-- The stretches between separators: always one more than there are separators. -/
def pieces (sep : Char) : Text → List Text
  | [] => [[]]
  | c :: cs =>
    if c = sep then [] :: pieces sep cs
    else match pieces sep cs with
      | [] => [[c]]
      | p :: ps => (c :: p) :: ps

/-- Drops the characters of a class at both ends. -/
def trim (p : Char → Bool) (t : Text) : Text :=
  ((t.dropWhile p).reverse.dropWhile p).reverse

theorem pieces_ne_nil (sep : Char) (t : Text) : pieces sep t ≠ [] := by
  cases t with
  | nil => simp [pieces]
  | cons c cs =>
    unfold pieces
    split
    · simp
    · split <;> simp

/-- Lowercase hexadecimal digits; `hexUpper` is the same in capitals. -/
def hexDigit (n : Nat) : Char :=
  if n < 10 then Char.ofNat (48 + n) else Char.ofNat (87 + n)

def hexUpper (n : Nat) : Char :=
  if n < 10 then Char.ofNat (48 + n) else Char.ofNat (55 + n)

/-- The last `width` hexadecimal digits of a number, leading zeros kept. -/
def hexText (digit : Nat → Char) : Nat → Nat → Text
  | 0, _ => []
  | width + 1, n => hexText digit width (n / 16) ++ [digit (n % 16)]

end ChordSymbols
