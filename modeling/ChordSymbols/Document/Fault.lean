import ChordSymbols.Harmony.PitchClass
import ChordSymbols.Symbol.Error

/-!
# Faults of a document

A document has five fields, in a fixed order. A fault says what is wrong with
one of them, or with one item of a list, in a wording that callers rely on and
with a short name for its kind.
-/

namespace ChordSymbols

inductive Field where
  | schema | name | tonic | tempo | chords
deriving DecidableEq, Repr

def Field.label : Field → String
  | .schema => "schema_version" | .name => "name" | .tonic => "tonic" | .tempo => "tempo"
  | .chords => "chords"

def schemaName : Text := "progression/v1".toList

def slowestTempo : Int := 20
def fastestTempo : Int := 300

inductive Fault where
  | missing
  | schema
  | notText
  | emptyText
  | notWhole
  | unreadableWhole
  | tooLarge
  | fraction
  | notFinite
  | tooSlow
  | tooFast
  | notList
  | emptyList
  | pitch (cause : UnknownPitch)
  | symbol (cause : SymbolError)
deriving DecidableEq, Repr

namespace Fault

def kindName : Fault → String
  | .missing => "missing"
  | .schema => "literal_error"
  | .notText => "string_type"
  | .emptyText => "string_too_short"
  | .notWhole => "int_type"
  | .unreadableWhole => "int_parsing"
  | .tooLarge => "int_parsing_size"
  | .fraction => "int_from_float"
  | .notFinite => "finite_number"
  | .tooSlow => "greater_than_equal"
  | .tooFast => "less_than_equal"
  | .notList => "list_type"
  | .emptyList => "too_short"
  | .pitch _ | .symbol _ => "value_error"

def message : Fault → String
  | .missing => "Field required"
  | .schema => "Input should be " ++ quoted schemaName
  | .notText => "Input should be a valid string"
  | .emptyText => "String should have at least 1 character"
  | .notWhole => "Input should be a valid integer"
  | .unreadableWhole =>
    "Input should be a valid integer, unable to parse string as an integer"
  | .tooLarge => "Unable to parse input string as an integer, exceeded maximum size"
  | .fraction => "Input should be a valid integer, got a number with a fractional part"
  | .notFinite => "Input should be a finite number"
  | .tooSlow => "Input should be greater than or equal to " ++ toString slowestTempo
  | .tooFast => "Input should be less than or equal to " ++ toString fastestTempo
  | .notList => "Input should be a valid list"
  | .emptyList => "List should have at least 1 item after validation, not 0"
  | .pitch e => "Value error, " ++ e.message
  | .symbol e => "Value error, " ++ e.message

end Fault

/-- A fault, the field it is in, and the place in the list if it is in an item. -/
structure FieldFault where
  field : Field
  item : Option Nat := none
  fault : Fault
deriving DecidableEq, Repr

/-- The faults of a document as one text: a count, then two lines for each. This is the part of the
report that depends on the faults alone. In the full one the second line goes on behind the kind
with the value that was given and its type, and a third line links to an explanation of the kind;
both are left out. -/
def faultReport (faults : List FieldFault) : String :=
  let lines := faults.flatMap fun f =>
    [f.field.label, "  " ++ f.fault.message ++ " [type=" ++ f.fault.kindName ++ "]"]
  let count := toString faults.length ++
    (if faults.length = 1 then " validation error" else " validation errors")
  String.intercalate "\n" ((count ++ " for ProgressionDocument") :: lines)

end ChordSymbols
