import ChordSymbols.Text.Printable

/-!
# Quoted text

Messages quote a text so that it can be read unambiguously: apostrophes around
it, or double quotes when it holds an apostrophe and no double quote. Inside,
a backslash escapes itself, the chosen quote, line feed, return and tab; every
other character that is not printable is written by its code in lowercase
hexadecimal, with two, four or eight digits.
-/

namespace ChordSymbols

def apostrophe : Char := Char.ofNat 39
def doubleQuote : Char := Char.ofNat 34
def backslash : Char := Char.ofNat 92

/-- How one character is written between the given quotes. -/
def escaped (quote c : Char) : Text :=
  if c = quote ∨ c = backslash then [backslash, c]
  else if c = '\n' then [backslash, 'n']
  else if c = '\r' then [backslash, 'r']
  else if c = '\t' then [backslash, 't']
  else if isPrintable c then [c]
  else if c.toNat < 0x100 then backslash :: 'x' :: hexText hexDigit 2 c.toNat
  else if c.toNat < 0x10000 then backslash :: 'u' :: hexText hexDigit 4 c.toNat
  else backslash :: 'U' :: hexText hexDigit 8 c.toNat

def quoteFor (t : Text) : Char :=
  if t.contains apostrophe && !t.contains doubleQuote then doubleQuote else apostrophe

def quotedText (t : Text) : Text :=
  let q := quoteFor t
  q :: t.flatMap (escaped q) ++ [q]

def quoted (t : Text) : String :=
  String.ofList (quotedText t)

end ChordSymbols
