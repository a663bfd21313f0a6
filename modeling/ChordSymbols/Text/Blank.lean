import ChordSymbols.Text.Basic

/-!
# Blank characters

White space is the Unicode property of that name (25 characters). Symbols,
tonics and progressions ignore a little more at their ends: the four
information separators count as blank there too.
-/

namespace ChordSymbols

def whiteSpaceRanges : List (Nat × Nat) :=
  [(0x09, 0x0D), (0x20, 0x20), (0x85, 0x85), (0xA0, 0xA0), (0x1680, 0x1680),
   (0x2000, 0x200A), (0x2028, 0x2029), (0x202F, 0x202F), (0x205F, 0x205F),
   (0x3000, 0x3000)]

def isWhiteSpace (c : Char) : Bool :=
  inRanges whiteSpaceRanges c.toNat

def isBlank (c : Char) : Bool :=
  isWhiteSpace c || inRanges [(0x1C, 0x1F)] c.toNat

/-- A text without the blanks at its ends. -/
def strip (t : Text) : Text :=
  trim isBlank t

end ChordSymbols
