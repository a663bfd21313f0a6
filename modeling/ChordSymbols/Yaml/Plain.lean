import ChordSymbols.Text.Pattern
import ChordSymbols.Text.Quoted

/-!
# Plain scalars

A text may stand in YAML without quotes when it reads back as the same text. It
does not when it would be taken for a truth value, a number, a time, nothing, or
one of the two special keys, nor when it holds a character that is an indicator
at its place. Texts outside printable ASCII and line feed need escapes.
-/

namespace ChordSymbols.Yaml

open Pattern

def sign : Pattern := optional (oneOf "+-")

def digitOrUnderscore : Pattern := .one fun c => c.isDigit || c = '_'

/-- Minutes or seconds after a colon. -/
def sixtieth : Pattern := chain [char ':', optional (oneOf "012345"), digit]

def exponent : Pattern := chain [oneOf "eE", oneOf "+-", atLeastOne digit]

def truthValue : Pattern :=
  words ["yes", "Yes", "YES", "no", "No", "NO", "true", "True", "TRUE", "false", "False", "FALSE",
    "on", "On", "ON", "off", "Off", "OFF"]

def realNumber : Pattern :=
  anyOf [
    chain [sign, digit, .many digitOrUnderscore, char '.', .many digitOrUnderscore,
      optional exponent],
    chain [char '.', digit, .many digitOrUnderscore, optional exponent],
    chain [sign, digit, .many digitOrUnderscore, atLeastOne sixtieth, char '.',
      .many digitOrUnderscore],
    chain [sign, char '.', words ["inf", "Inf", "INF"]],
    chain [char '.', words ["nan", "NaN", "NAN"]]]

def wholeNumber : Pattern :=
  .seq sign <| anyOf [
    chain [word "0b", atLeastOne (oneOf "01_")],
    chain [char '0', atLeastOne (oneOf "01234567_")],
    char '0',
    chain [oneOf "123456789", .many digitOrUnderscore],
    chain [word "0x", atLeastOne (oneOf "0123456789abcdefABCDEF_")],
    chain [oneOf "123456789", .many digitOrUnderscore, atLeastOne sixtieth]]

def date : Pattern :=
  chain [digit, digit, digit, digit, char '-', digit, digit, char '-', digit, digit]

def oneOrTwoDigits : Pattern := .seq digit (optional digit)

def timeZone : Pattern :=
  .either (char 'Z')
    (chain [oneOf "+-", oneOrTwoDigits, optional (chain [char ':', digit, digit])])

def dateAndTime : Pattern :=
  chain [digit, digit, digit, digit, char '-', oneOrTwoDigits, char '-', oneOrTwoDigits,
    .either (oneOf "Tt") (atLeastOne (oneOf " \t")),
    oneOrTwoDigits, char ':', digit, digit, char ':', digit, digit,
    optional (chain [char '.', .many digit]),
    optional (chain [.many (oneOf " \t"), timeZone])]

/-- The texts that stand for something else than themselves. -/
def otherValue : Pattern :=
  anyOf [truthValue, realNumber, wholeNumber, date, dateAndTime,
    words ["~", "null", "Null", "NULL", "", "<<", "="]]

/-- Printable ASCII, or a line feed. -/
def isOrdinary (c : Char) : Bool :=
  c = '\n' || (' ' ≤ c && c ≤ '~')

def isGap (c : Char) : Bool := c = ' ' || c = '\n'

/-- A gap or the end comes next. -/
def gapNext (t : Text) : Bool :=
  match t with
  | [] => true
  | c :: _ => isGap c

/-- The characters that no plain text starts with. -/
def leadingIndicators : Text :=
  apostrophe :: doubleQuote :: Char.ofNat 0x60 :: "#,[]\x7b\x7d&*!|>%@".toList

def indicatorInFront : Text → Bool
  | [] => false
  | c :: rest =>
    leadingIndicators.contains c || (['?', ':', '-'].contains c && gapNext rest) ||
      "---".toList.isPrefixOf (c :: rest) || "...".toList.isPrefixOf (c :: rest)

/-- A colon before a gap, or a number sign after one. -/
def indicatorInside : Text → Bool
  | c :: d :: rest =>
    (d = ':' && gapNext rest) || (d = '#' && isGap c) || indicatorInside (d :: rest)
  | _ => false

/-- A blank and a line feed side by side. -/
def mixedGap : Text → Bool
  | c :: d :: rest => (c = ' ' && d = '\n') || (c = '\n' && d = ' ') || mixedGap (d :: rest)
  | _ => false

/-- A text that single quotes can hold. -/
def allowsSingle (t : Text) : Bool :=
  t.all isOrdinary && !mixedGap t

/-- A text that can stand without quotes, as far as its characters go. -/
def allowsPlain (t : Text) : Bool :=
  allowsSingle t && !t.contains '\n' && t.head? != some ' ' && t.getLast? != some ' ' &&
    !indicatorInFront t && !indicatorInside t

inductive Style where
  | plain | single | double
deriving DecidableEq, Repr

def styleOf (t : Text) : Style :=
  if allowsPlain t && !otherValue.takes t then .plain
  else if allowsSingle t then .single
  else .double

end ChordSymbols.Yaml
