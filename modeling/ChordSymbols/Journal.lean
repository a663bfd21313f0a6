/-!
# Journals

An activity leaves records behind, whether or not it succeeds. A run pairs the
records in the order of writing with the outcome; running one activity after
another joins the records, and a failure keeps those already written.
-/

namespace ChordSymbols

inductive Level where
  | debug | info | warning | error
deriving DecidableEq, Repr

def Level.name : Level → String
  | .debug => "DEBUG" | .info => "INFO" | .warning => "WARNING" | .error => "ERROR"

/-- The parts of the program that write records. -/
inductive Source where
  | scanner | parser | progression | symbolTools | progressionTools | server
deriving DecidableEq, Repr

def Source.name : Source → String
  | .scanner => "chuk_mcp_chorder.notation.lexer"
  | .parser => "chuk_mcp_chorder.notation.parser"
  | .progression => "chuk_mcp_chorder.progression"
  | .symbolTools => "chuk_mcp_chorder.tools.notation"
  | .progressionTools => "chuk_mcp_chorder.tools.progression"
  | .server => "chuk_mcp_chorder.server"

structure Record where
  level : Level
  source : Source
  message : String
deriving DecidableEq, Repr

/-- The records of an activity and what came of it. -/
structure Run (ε α : Type) where
  records : List Record
  outcome : Except ε α

namespace Run

variable {ε δ α β : Type}

def of (x : Except ε α) : Run ε α := ⟨[], x⟩

def bind (x : Run ε α) (f : α → Run ε β) : Run ε β :=
  match x.outcome with
  | .ok a =>
    let y := f a
    ⟨x.records ++ y.records, y.outcome⟩
  | .error e => ⟨x.records, .error e⟩

instance : Monad (Run ε) where
  pure a := of (.ok a)
  bind := bind

def fail (e : ε) : Run ε α := of (.error e)

/-- Writes one record. -/
def note (level : Level) (source : Source) (message : String) : Run ε Unit :=
  ⟨[⟨level, source, message⟩], .ok ()⟩

def mapError (f : ε → δ) (x : Run ε α) : Run δ α :=
  ⟨x.records, x.outcome.mapError f⟩

/-- The same activity with its failure as a value. -/
def settle (x : Run ε α) : Run δ (Except ε α) :=
  ⟨x.records, .ok x.outcome⟩

theorem records_pure (a : α) : (pure a : Run ε α).records = [] := rfl

theorem outcome_bind (x : Run ε α) (f : α → Run ε β) :
    (x >>= f).outcome = x.outcome.bind fun a => (f a).outcome := by
  show (bind x f).outcome = _
  unfold bind
  cases x.outcome <;> rfl

theorem outcome_mapError (f : ε → δ) (x : Run ε α) :
    (x.mapError f).outcome = x.outcome.mapError f := rfl

theorem outcome_settle (x : Run ε α) :
    (x.settle : Run δ (Except ε α)).outcome = .ok x.outcome := rfl

theorem records_bind (x : Run ε α) (f : α → Run ε β) :
    (x >>= f).records =
      x.records ++ match x.outcome with
        | .ok a => (f a).records
        | .error _ => [] := by
  show (bind x f).records = _
  unfold bind
  cases x.outcome <;> simp

end Run

end ChordSymbols
