import ChordSymbols.Text.Integer
import ChordSymbols.Text.Quoted

/-!
# The command line

There are five options. A long name may be cut short as long as only one option
begins so, and a value may follow after an equals sign; two dashes after the sign
are no value and leave the option void. Every argument is told apart first; then
the options act from left to right, the last of a kind wins, and help or the
first fault ends the reading. Arguments that no option takes are reported only
when all else was read.
-/

namespace ChordSymbols

inductive Switch where
  | help | transport | port | outputFolder | debug
deriving DecidableEq, Repr

namespace Switch

def all : List Switch := [.help, .transport, .port, .outputFolder, .debug]

/-- The long name. -/
def name : Switch → Text
  | .help => "--help".toList | .transport => "--transport".toList | .port => "--port".toList
  | .outputFolder => "--output-dir".toList | .debug => "--debug".toList

/-- All names, as they appear in messages. -/
def shown : Switch → String
  | .help => "-h/--help"
  | s => String.ofList s.name

def takesValue : Switch → Bool
  | .transport | .port | .outputFolder => true
  | .help | .debug => false

end Switch

inductive Transport where
  | stdio | http
deriving DecidableEq, Repr

namespace Transport

def all : List Transport := [.stdio, .http]

def name : Transport → String
  | .stdio => "stdio" | .http => "http"

def ofName? (t : Text) : Option Transport :=
  all.find? fun x => x.name.toList = t

end Transport

/-- What an option was given: a value, or nothing. -/
inductive Given (α : Type) where
  | value (a : α)
  | void
deriving DecidableEq, Repr

structure Options where
  transport : Given Transport := .value .stdio
  port : Given Int := .value 8000
  outputFolder : Option (Given Text) := none
  debug : Bool := false
deriving DecidableEq, Repr

inductive UsageError where
  | ambiguous (argument : Text)
  | noValue (s : Switch)
  | ignoredValue (s : Switch) (value : Text)
  | unknownTransport (value : Text)
  | notWhole (value : Text)
  | unrecognized (arguments : List Text)
deriving DecidableEq, Repr

def UsageError.message : UsageError → String
  | .ambiguous t =>
    "ambiguous option: " ++ String.ofList t ++ " could match " ++
      String.intercalate ", " (Switch.all.map fun s => String.ofList s.name)
  | .noValue s => "argument " ++ s.shown ++ ": expected one argument"
  | .ignoredValue s v => "argument " ++ s.shown ++ ": ignored explicit argument " ++ quoted v
  | .unknownTransport v =>
    "argument --transport: invalid choice: " ++ quoted v ++ " (choose from " ++
      String.intercalate ", " (Transport.all.map fun x => quoted x.name.toList) ++ ")"
  | .notWhole v => "argument --port: invalid int value: " ++ quoted v
  | .unrecognized ts =>
    "unrecognized arguments: " ++ String.intercalate " " (ts.map String.ofList)

/-- What an argument is taken for. A name may bring a text of its own. -/
inductive Argument where
  | value (t : Text)
  | separator
  | long (s : Switch) (explicit : Option Text)
  | shortHelp (explicit : Option Text)
  | unknown (t : Text)
deriving DecidableEq, Repr

/-- The parts before and after the first equals sign, if there is one. -/
def atEquals (t : Text) : Text × Option Text :=
  match t.dropWhile (· ≠ '=') with
  | [] => (t, none)
  | _ :: rest => (t.takeWhile (· ≠ '='), some rest)

/-- A minus sign before digits or before a decimal fraction; a line feed may end it. -/
def looksNegative (t : Text) : Bool :=
  let body := if t.getLast? = some '\n' then t.dropLast else t
  match body with
  | '-' :: r =>
    let rest := r.dropWhile isDecimalDigit
    (r ≠ [] && rest.isEmpty) ||
      match rest with
      | '.' :: ds => !ds.isEmpty && ds.all isDecimalDigit
      | _ => false
  | _ => false

/-- An argument that starts with a dash and names no option. -/
def otherDashed (t : Text) : Argument :=
  if looksNegative t || t.contains ' ' then .value t else .unknown t

/-- Tells what a single argument is. -/
def classifyArgument (t : Text) : Except UsageError Argument :=
  match t with
  | ['-', '-'] => .ok .separator
  | '-' :: '-' :: _ =>
    let (front, explicit) := atEquals t
    match Switch.all.filter fun s => front.isPrefixOf s.name with
    | [] => .ok (otherDashed t)
    | [s] => .ok (.long s explicit)
    | _ => .error (.ambiguous t)
  | ['-', 'h'] => .ok (.shortHelp none)
  | '-' :: 'h' :: '=' :: rest => .ok (.shortHelp (some rest))
  | '-' :: 'h' :: rest => .ok (.shortHelp (some rest))
  | '-' :: _ :: _ => .ok (otherDashed t)
  | _ => .ok (.value t)

/-- Tells what the arguments are. After a separator they are all values. -/
def classifyArguments : List Text → Except UsageError (List Argument)
  | [] => .ok []
  | t :: ts => do
    match ← classifyArgument t with
    | .separator => return .separator :: ts.map .value
    | a => return a :: (← classifyArguments ts)

inductive Stop where
  | help
  | usage (e : UsageError)
deriving DecidableEq, Repr

def readTransport (v : Text) : Except UsageError Transport :=
  match Transport.ofName? v with
  | some x => .ok x
  | none => .error (.unknownTransport v)

def readPort (v : Text) : Except UsageError Int :=
  match integer? v with
  | some n => .ok n
  | none => .error (.notWhole v)

/-- Reads the value of an option; two dashes are not read and leave it void. -/
def given {α : Type} (read : Text → Except UsageError α) (v : Text) : Except Stop (Given α) :=
  if v = ['-', '-'] then .ok .void else ((read v).map Given.value).mapError Stop.usage

/-- Sets an option to a value; a flag takes none. -/
def Options.set (o : Options) (s : Switch) (v : Text) : Except Stop Options :=
  match s with
  | .transport => (given readTransport v).map fun x => { o with transport := x }
  | .port => (given readPort v).map fun n => { o with port := n }
  | .outputFolder => (given .ok v).map fun t => { o with outputFolder := some t }
  | .help | .debug => .error (.usage (.ignoredValue s v))

/-- An option without a value. -/
def Options.raise (o : Options) : Switch → Except Stop Options
  | .help => .error .help
  | .debug => .ok { o with debug := true }
  | s => .error (.usage (.noValue s))

/-- Help by its short name. The letter may be repeated, and nothing else may follow it. -/
def stopAtHelp : Option Text → Stop
  | none => .help
  | some t =>
    let rest := t.dropWhile (· = 'h')
    if t ≠ [] ∧ rest = [] then .help else .usage (.ignoredValue .help rest)

/-- Acts on the arguments in turn, and keeps those that no option takes. -/
def actOn (o : Options) : List Argument → Except Stop (Options × List Text)
  | [] => .ok (o, [])
  | .long s (some v) :: rest => do
    actOn (← o.set s v) rest
  | .long s none :: .value v :: rest => do
    if s.takesValue then actOn (← o.set s v) rest
    else
      let (o, extra) ← actOn (← o.raise s) rest
      return (o, v :: extra)
  | .long s none :: rest => do
    actOn (← o.raise s) rest
  | .shortHelp explicit :: _ => .error (stopAtHelp explicit)
  | .value t :: rest => do
    let (o, extra) ← actOn o rest
    return (o, t :: extra)
  | .unknown t :: rest => do
    let (o, extra) ← actOn o rest
    return (o, t :: extra)
  | .separator :: rest => do
    let (o, extra) ← actOn o rest
    return (o, ['-', '-'] :: extra)

def readOptions (arguments : List Text) : Except Stop Options := do
  let as ← (classifyArguments arguments).mapError Stop.usage
  let (o, extra) ← actOn {} as
  if extra = [] then return o else .error (.usage (.unrecognized extra))

/-- What is printed when the reading ends early. -/
structure Exit where
  code : Nat
  output : String
  errors : String
deriving DecidableEq, Repr

def usageText : String :=
  "usage: chuk-mcp-chorder [-h] [--transport \x7bstdio,http\x7d] [--port PORT]\n" ++
  "                        [--output-dir OUTPUT_DIR] [--debug]\n"

def helpText : String :=
  usageText ++ "\nCHUK Chorder MCP Server\n\noptions:\n" ++
  "  -h, --help            show this help message and exit\n" ++
  "  --transport \x7bstdio,http\x7d\n" ++
  "  --port PORT           HTTP port (http transport)\n" ++
  "  --output-dir OUTPUT_DIR\n" ++
  "                        Directory for exported MIDI (default: ./output)\n" ++
  "  --debug               Enable debug logging\n"

def Stop.exit : Stop → Exit
  | .help => ⟨0, helpText, ""⟩
  | .usage e => ⟨2, "", usageText ++ "chuk-mcp-chorder: error: " ++ e.message ++ "\n"⟩

end ChordSymbols
