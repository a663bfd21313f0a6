import ChordSymbols.Number.Quantity
import ChordSymbols.Text.Basic

/-!
# Values

What a caller hands over and gets back, before anything is known of its shape:
nothing, a truth value, a number, a text, a list, or named fields in order.
-/

namespace ChordSymbols

inductive Value where
  | null
  | bool (b : Bool)
  | whole (n : Int)
  | real (x : Binary64)
  | text (t : Text)
  | list (items : List Value)
  | record (fields : List (String × Value))
deriving Repr

namespace Value

def ofString (s : String) : Value := .text s.toList

/-- The word for the kind of a value in messages. -/
def kindName : Value → String
  | .null => "NoneType" | .bool _ => "bool" | .whole _ => "int" | .real _ => "float"
  | .text _ => "str" | .list _ => "list" | .record _ => "dict"

/-- Whether a value is none of the empty ones: nothing, false, zero, or without parts. -/
def isFilled : Value → Bool
  | .null => false
  | .bool b => b
  | .whole n => n ≠ 0
  | .real x => !x.isZero
  | .text t => !t.isEmpty
  | .list items => !items.isEmpty
  | .record fields => !fields.isEmpty

end Value

end ChordSymbols
