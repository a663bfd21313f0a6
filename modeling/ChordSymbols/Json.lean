import ChordSymbols.Text.Quoted
import ChordSymbols.Value

/-!
# JSON text

A value is written on one line, a blank after every comma and colon, fields in
their order. The text is ASCII: every character outside the printable range is
written by its code in four hexadecimal digits, as two codes when one is not
enough.
-/

namespace ChordSymbols

def unicodeEscape (n : Nat) : Text :=
  backslash :: 'u' :: hexText hexDigit 4 n

def jsonCharacter (c : Char) : Text :=
  if c = doubleQuote ∨ c = backslash then [backslash, c]
  else if ' ' ≤ c ∧ c ≤ '~' then [c]
  else if c = '\n' then [backslash, 'n']
  else if c = '\r' then [backslash, 'r']
  else if c = '\t' then [backslash, 't']
  else if c.toNat = 0x08 then [backslash, 'b']
  else if c.toNat = 0x0C then [backslash, 'f']
  else if c.toNat < 0x10000 then unicodeEscape c.toNat
  else
    let n := c.toNat - 0x10000
    unicodeEscape (0xD800 + n / 0x400) ++ unicodeEscape (0xDC00 + n % 0x400)

def jsonString (t : Text) : Text :=
  doubleQuote :: t.flatMap jsonCharacter ++ [doubleQuote]

def Binary64.json : Binary64 → Text
  | .notANumber => "NaN".toList
  | .infinite s => (if s then "-Infinity" else "Infinity").toList
  | x => x.text

mutual

def Value.json : Value → Text
  | .null => "null".toList
  | .bool b => (if b then "true" else "false").toList
  | .whole n => (toString n).toList
  | .real x => x.json
  | .text t => jsonString t
  | .list items => '[' :: jsonItems items ++ [']']
  | .record fields => '\x7b' :: jsonFields fields ++ ['\x7d']

/-- Values between commas. -/
def jsonItems : List Value → Text
  | [] => []
  | [v] => v.json
  | v :: vs => v.json ++ ',' :: ' ' :: jsonItems vs

/-- Named values between commas. -/
def jsonFields : List (String × Value) → Text
  | [] => []
  | [(name, v)] => jsonString name.toList ++ ':' :: ' ' :: v.json
  | (name, v) :: rest =>
    jsonString name.toList ++ ':' :: ' ' :: v.json ++ ',' :: ' ' :: jsonFields rest

end

end ChordSymbols
