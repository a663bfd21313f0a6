import ChordSymbols.Symbol.Spelling
import ChordSymbols.Value

/-!
# Tokens and chords as values

What callers see of a token is its kind and text; of a chord, its canonical
symbol if it has one, its parts by name, and its notes.
-/

namespace ChordSymbols

def Token.value (t : Token) : Value :=
  .record [("kind", .ofString t.kind.name), ("value", .text t.text)]

def optionalText (t : Option Text) : Value :=
  match t with
  | some t => .text t
  | none => .null

def wholeList (ns : List Int) : Value := .list (ns.map .whole)

namespace Chord

def offsetsValue (c : Chord) : Value := wholeList (c.offsets.map Int.ofNat)

def value (c : Chord) : Value :=
  .record [("symbol", optionalText c.symbol.toOption),
    ("mode", .ofString c.mode.name),
    ("numeral", .whole c.degree.number),
    ("inversion", optionalText (c.figure.map Figure.code)),
    ("function", optionalText (c.secondary.map Secondary.code)),
    ("applied", .bool c.isApplied),
    ("notes", c.offsetsValue)]

end Chord

end ChordSymbols
