import ChordSymbols.Yaml.Plain

/-!
# Writing scalars

A scalar that passes column 80 is folded. Without quotes, and in single quotes,
it goes on in a new line at a single blank between two other characters, and the
line feed replaces the blank; a line feed of the text is then written twice. In
double quotes a line ends with a backslash, before a blank or after an escape,
and a blank that starts a line is marked with a backslash too.
-/

namespace ChordSymbols.Yaml

def lineWidth : Nat := 80

def newLine (indent : Nat) : Text := '\n' :: List.replicate indent ' '

def otherThanBlank (t : Text) : Bool :=
  match t with
  | [] => false
  | c :: _ => c ≠ ' '

/-- Writes a text from a column on; `last` is the character before it. -/
def folded (written : Char → Text) (indent : Nat) (last : Char) (column : Nat) : Text → Text
  | [] => []
  | c :: rest =>
    if c = ' ' ∧ last ≠ ' ' ∧ otherThanBlank rest ∧ lineWidth < column then
      newLine indent ++ folded written indent c indent rest
    else if c = '\n' then
      let start := if last = '\n' then [] else ['\n']
      if rest.head? = some '\n' then start ++ '\n' :: folded written indent c 0 rest
      else start ++ newLine indent ++ folded written indent c indent rest
    else written c ++ folded written indent c (column + (written c).length) rest

/-- An apostrophe is written twice. -/
def inSingle (c : Char) : Text :=
  if c = apostrophe then [c, c] else [c]

/-- The one-letter escapes. -/
def shortEscapes : List (Nat × Char) :=
  [(0x00, '0'), (0x07, 'a'), (0x08, 'b'), (0x09, 't'), (0x0A, 'n'), (0x0B, 'v'), (0x0C, 'f'),
   (0x0D, 'r'), (0x1B, 'e'), (0x22, doubleQuote), (0x5C, backslash), (0x85, 'N'), (0xA0, '_'),
   (0x2028, 'L'), (0x2029, 'P')]

/-- How a character is escaped in double quotes, if it is. -/
def escape? (c : Char) : Option Text :=
  if ' ' ≤ c ∧ c ≤ '~' ∧ c ≠ doubleQuote ∧ c ≠ backslash then none
  else match shortEscapes.lookup c.toNat with
    | some e => some [backslash, e]
    | none =>
      if c.toNat < 0x100 then some (backslash :: 'x' :: hexText hexUpper 2 c.toNat)
      else if c.toNat < 0x10000 then some (backslash :: 'u' :: hexText hexUpper 4 c.toNat)
      else some (backslash :: 'U' :: hexText hexUpper 8 c.toNat)

/-- The start of a new line in double quotes, before the given text. -/
def continued (indent : Nat) (t : Text) : Text :=
  backslash :: newLine indent ++ (if t.head? = some ' ' then [backslash] else [])

/-- The column after such a start. -/
def continuedColumn (indent : Nat) (t : Text) : Nat :=
  if t.head? = some ' ' then indent + 1 else indent

/-- Writes a text in double quotes; `running` says that the character before is not an escape. -/
def foldedDouble (indent : Nat) (first running : Bool) (column : Nat) : Text → Text
  | [] => []
  | c :: rest =>
    let inside := !first && !rest.isEmpty
    match escape? c with
    | some e =>
      if inside && lineWidth + 1 < column + e.length then
        e ++ continued indent rest ++
          foldedDouble indent false false (continuedColumn indent rest) rest
      else e ++ foldedDouble indent false false (column + e.length) rest
    | none =>
      if inside && (c = ' ' || !running) && lineWidth < column then
        continued indent (c :: rest) ++
          c :: foldedDouble indent false true (continuedColumn indent (c :: rest) + 1) rest
      else c :: foldedDouble indent false true (column + 1) rest

/-- A scalar that starts in a column; its further lines are indented. -/
def scalar (indent column : Nat) (t : Text) : Text :=
  match styleOf t with
  | .plain => folded ([·]) indent ' ' column t
  | .single => apostrophe :: folded inSingle indent ' ' (column + 1) t ++ [apostrophe]
  | .double => doubleQuote :: foldedDouble indent true false (column + 1) t ++ [doubleQuote]

end ChordSymbols.Yaml
