import ChordSymbols.Text.Basic

/-!
# Figures and secondary functions

Two closed sets of markers complete a chord symbol. A figure is a figured-bass
marker; only the seventh adds a chord tone, the others are kept for spelling
alone. A secondary function relates a chord to the degree after the slash.
-/

namespace ChordSymbols

inductive Figure where
  | fourTwo | fourThree | six | sixFour | sixFive | seven
deriving DecidableEq, Repr

inductive Secondary where
  | four | five | seven
deriving DecidableEq, Repr

namespace Figure

def all : List Figure := [.fourTwo, .fourThree, .six, .sixFour, .sixFive, .seven]

def code : Figure → Text
  | .fourTwo => ['4', '2']
  | .fourThree => ['4', '3']
  | .six => ['6']
  | .sixFour => ['6', '4']
  | .sixFive => ['6', '5']
  | .seven => ['7']

def label : Figure → String
  | .fourTwo => "FOUR_TWO" | .fourThree => "FOUR_THREE" | .six => "SIX"
  | .sixFour => "SIX_FOUR" | .sixFive => "SIX_FIVE" | .seven => "SEVEN"

/-- The scale step a figure adds to the triad. -/
def addedStep? : Figure → Option Nat
  | .seven => some 6
  | _ => none

def ofCode? (t : Text) : Option Figure :=
  all.find? fun f => f.code = t

end Figure

namespace Secondary

def all : List Secondary := [.four, .five, .seven]

def digit : Secondary → Char
  | .four => '4' | .five => '5' | .seven => '7'

def code (s : Secondary) : Text := [s.digit]

def label : Secondary → String
  | .four => "FOUR" | .five => "FIVE" | .seven => "SEVEN"

def ofCode? (t : Text) : Option Secondary :=
  all.find? fun s => s.code = t

end Secondary

theorem Figure.ofCode?_code (f : Figure) : Figure.ofCode? f.code = some f := by
  cases f <;> decide

theorem Secondary.ofCode?_code (s : Secondary) : Secondary.ofCode? s.code = some s := by
  cases s <;> decide

end ChordSymbols
