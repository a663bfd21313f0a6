import ChordSymbols.Text.Basic

/-!
# Patterns of texts

A pattern describes a set of texts by choice, sequence and repetition over
classes of characters. A text is tried one character at a time: what a pattern
leaves to be matched after a character is again a pattern, and a text belongs to
a pattern when what is left after all of it takes the empty text.
-/

namespace ChordSymbols

inductive Pattern where
  | never
  | nothing
  | one (p : Char → Bool)
  | seq (a b : Pattern)
  | either (a b : Pattern)
  | many (a : Pattern)

namespace Pattern

/-- A sequence, without parts that say nothing. -/
def followedBy : Pattern → Pattern → Pattern
  | .never, _ => .never
  | .nothing, b => b
  | a, b => .seq a b

/-- A choice, without parts that never match. -/
def orElse : Pattern → Pattern → Pattern
  | .never, b => b
  | a, .never => a
  | a, b => .either a b

def takesEmpty : Pattern → Bool
  | .never | .one _ => false
  | .nothing | .many _ => true
  | .seq a b => a.takesEmpty && b.takesEmpty
  | .either a b => a.takesEmpty || b.takesEmpty

/-- What is left of a pattern after a character. -/
def after (c : Char) : Pattern → Pattern
  | .never | .nothing => .never
  | .one p => if p c then .nothing else .never
  | .seq a b =>
    if a.takesEmpty then ((a.after c).followedBy b).orElse (b.after c)
    else (a.after c).followedBy b
  | .either a b => (a.after c).orElse (b.after c)
  | .many a => (a.after c).followedBy (.many a)

def takes (r : Pattern) (t : Text) : Bool :=
  (t.foldl (fun r c => r.after c) r).takesEmpty

def char (c : Char) : Pattern := .one (· = c)

def oneOf (cs : String) : Pattern := .one fun c => cs.toList.contains c

def word (s : String) : Pattern := s.toList.foldr (fun c r => .seq (char c) r) .nothing

def chain (rs : List Pattern) : Pattern := rs.foldr .seq .nothing

def anyOf (rs : List Pattern) : Pattern := rs.foldr .either .never

def words (ws : List String) : Pattern := anyOf (ws.map word)

def optional (r : Pattern) : Pattern := .either r .nothing

def atLeastOne (r : Pattern) : Pattern := .seq r (.many r)

def digit : Pattern := .one Char.isDigit

end Pattern

end ChordSymbols
