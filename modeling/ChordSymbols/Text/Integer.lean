import ChordSymbols.Text.Blank

/-!
# Reading integers

Decimal digits come in 66 runs of ten consecutive characters, one run per
script; an integer may be written in any of them. A single underscore may
separate two digits, one sign may stand in front, and white space around the
whole is ignored. An integer of too many digits is neither read nor shown.
-/

namespace ChordSymbols

/-- The zeros of the decimal scripts; nine more digits follow each. -/
def digitZeros : List Nat :=
  [0x30, 0x660, 0x6F0, 0x7C0, 0x966, 0x9E6, 0xA66, 0xAE6, 0xB66, 0xBE6, 0xC66, 0xCE6, 0xD66,
   0xDE6, 0xE50, 0xED0, 0xF20, 0x1040, 0x1090, 0x17E0, 0x1810, 0x1946, 0x19D0, 0x1A80, 0x1A90,
   0x1B50, 0x1BB0, 0x1C40, 0x1C50, 0xA620, 0xA8D0, 0xA900, 0xA9D0, 0xA9F0, 0xAA50, 0xABF0,
   0xFF10, 0x104A0, 0x10D30, 0x11066, 0x110F0, 0x11136, 0x111D0, 0x112F0, 0x11450, 0x114D0,
   0x11650, 0x116C0, 0x11730, 0x118E0, 0x11950, 0x11C50, 0x11D50, 0x11DA0, 0x16A60, 0x16AC0,
   0x16B50, 0x1D7CE, 0x1D7D8, 0x1D7E2, 0x1D7EC, 0x1D7F6, 0x1E140, 0x1E2F0, 0x1E950, 0x1FBF0]

/-- The value of a decimal digit of any script. -/
def digitValue? (c : Char) : Option Nat :=
  (digitZeros.find? fun z => z ≤ c.toNat && c.toNat ≤ z + 9).map (c.toNat - ·)

def isDecimalDigit (c : Char) : Bool :=
  (digitValue? c).isSome

/-- The digits of a run in which single underscores may stand between two digits. -/
def digitRun? : Text → Option (List Nat)
  | [] => none
  | [c] => (digitValue? c).map ([·])
  | c :: '_' :: cs => do
    let d ← digitValue? c
    let ds ← digitRun? cs
    return d :: ds
  | c :: cs => do
    let d ← digitValue? c
    let ds ← digitRun? cs
    return d :: ds

def ofDigits (ds : List Nat) : Nat :=
  ds.foldl (fun n d => 10 * n + d) 0

/-- The most digits that are read as one integer. -/
def maxDigits : Nat := 4300

def natural? (t : Text) : Option Nat := do
  let ds ← digitRun? t
  if ds.length ≤ maxDigits then return ofDigits ds else none

def integer? (t : Text) : Option Int :=
  match trim isWhiteSpace t with
  | '-' :: r => (natural? r).map fun n => -(n : Int)
  | '+' :: r => (natural? r).map fun n => (n : Int)
  | r => (natural? r).map fun n => (n : Int)

/-- Whether an integer has few enough digits to be shown in a message. -/
def isShowable (n : Int) : Bool := n.natAbs < Nat.pow 10 maxDigits

/-- A message that shows some integers, or says that one of them has too many digits. -/
def showing (ns : List Int) (message : String) : String :=
  if ns.all isShowable then message
  else
    "Exceeds the limit (" ++ toString maxDigits ++ " digits) for integer string conversion; " ++
      "use sys.set_int_max_str_digits() to increase the limit"

end ChordSymbols
