import ChordSymbols.Harmony.Parts

/-!
# Tokens of a chord symbol

A symbol is read as letters, numbers and the further digits that follow a
number. A slash has a token kind of its own, which the scanner never emits; a
list of tokens built by hand may hold one. Only ASCII letters and digits belong
to the alphabet.
-/

namespace ChordSymbols

inductive CharacterClass where
  | letter | digit | slash | other
deriving DecidableEq, Repr

def CharacterClass.name : CharacterClass → String
  | .letter => "letter" | .digit => "digit" | .slash => "slash" | .other => "other"

def classify (c : Char) : CharacterClass :=
  if c.isAlpha then .letter
  else if c.isDigit then .digit
  else if c = '/' then .slash
  else .other

/-- A text that was to be one character and is not. -/
structure NotSingle where
  text : Text
deriving DecidableEq, Repr

def NotSingle.message (e : NotSingle) : String :=
  "Expected a single character, got " ++ quoted e.text

def classifyText : Text → Except NotSingle CharacterClass
  | [c] => .ok (classify c)
  | t => .error ⟨t⟩

inductive TokenKind where
  | letter | number | further | slash
deriving DecidableEq, Repr

namespace TokenKind

def all : List TokenKind := [.letter, .number, .further, .slash]

def name : TokenKind → String
  | .letter => "letter" | .number => "number" | .further => "additional_numbers"
  | .slash => "slash"

def title : TokenKind → String
  | .letter => "Letter" | .number => "Number" | .further => "AdditionalNumbers"
  | .slash => "Slash"

def ofName? (t : Text) : Option TokenKind :=
  all.find? fun k => k.name.toList = t

end TokenKind

/-- A kind and the text that was scanned; only the slash is shown without its text. -/
structure Token where
  kind : TokenKind
  text : Text
deriving DecidableEq, Repr

namespace Token

def letter (c : Char) : Token := ⟨.letter, [c]⟩
def number (c : Char) : Token := ⟨.number, [c]⟩
def further (ds : Text) : Token := ⟨.further, ds⟩

/-- A token with the text of a kind. -/
def ofNames (kind text : Text) : Except NotMember Token :=
  (memberOr (.text "TokenKind" kind) (TokenKind.ofName? kind)).map fun k => ⟨k, text⟩

def shown (t : Token) : String :=
  match t.kind with
  | .slash => t.kind.title
  | k => k.title ++ "(" ++ quoted t.text ++ ")"

/-- A list of tokens between brackets. -/
def shownList (ts : List Token) : String :=
  "[" ++ String.intercalate ", " (ts.map shown) ++ "]"

end Token

end ChordSymbols
