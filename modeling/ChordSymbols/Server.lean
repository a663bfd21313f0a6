import ChordSymbols.CommandLine
import ChordSymbols.Journal

/-!
# Starting the server

The options decide how requests come in, whether records of every level are
kept, and the folder that files are exported to; an empty or void folder name
leaves the one that was set before, and requests come in over the network unless
the standard streams were asked for. The start is written to the journal.
-/

namespace ChordSymbols

inductive Channel where
  | stdio
  | http (port : Given Int)
deriving DecidableEq, Repr

structure Start where
  channel : Channel
  debug : Bool
  outputFolder : Text
deriving DecidableEq, Repr

inductive StartError where
  | stop (cause : Stop)
  | zeroByte
deriving DecidableEq, Repr

/-- The folder that was asked for, unless its name is empty or void. -/
def chosenFolder (before : Text) (o : Options) : Text :=
  match o.outputFolder with
  | none | some .void | some (.value []) => before
  | some (.value t) => t

/-- Empty brackets stand for a void transport. -/
def shownTransport : Given Transport → String
  | .value x => x.name
  | .void => "[]"

def startServer (before : Text) (arguments : List Text) : Run StartError Start := do
  let o ← (Run.of (readOptions arguments)).mapError .stop
  let folder := chosenFolder before o
  if folder.contains (Char.ofNat 0) then Run.fail .zeroByte
  else
    Run.note .info .server ("Starting CHUK Chorder MCP Server (" ++ shownTransport o.transport ++ ")")
    match o.transport with
    | .value .stdio => return ⟨.stdio, o.debug, folder⟩
    | .value .http | .void => return ⟨.http o.port, o.debug, folder⟩

end ChordSymbols
