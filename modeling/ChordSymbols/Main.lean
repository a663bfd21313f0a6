import ChordSymbols.Server

/-!
# The program

Reads the command line, prints help or a fault, or announces the start.
-/

namespace ChordSymbols

def Record.line (r : Record) : String :=
  r.level.name ++ ":" ++ r.source.name ++ ":" ++ r.message

end ChordSymbols

def main (arguments : List String) : IO UInt32 := do
  let start := ChordSymbols.startServer "output".toList (arguments.map String.toList)
  for r in start.records do
    IO.eprintln r.line
  match start.outcome with
  | .ok _ => return 0
  | .error (.stop s) =>
    IO.print s.exit.output
    IO.eprint s.exit.errors
    return s.exit.code.toUInt32
  | .error .zeroByte =>
    IO.eprintln "embedded null byte"
    return 1
