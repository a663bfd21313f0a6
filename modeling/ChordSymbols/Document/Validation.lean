import ChordSymbols.Document.Tempo
import ChordSymbols.Symbol.Compile

/-!
# Validating a document

A document is a named list of chord symbols with the key and tempo to play them
in. It is built from a draft whose fields may be absent or of any kind. Every
field is checked on its own and all faults are reported, in field order: one for
a field, apart from items of a list that are not texts, which count each. The
symbols of a list of texts are tried in turn up to the first that is at fault.
-/

namespace ChordSymbols

structure Draft where
  schema : Option Value := none
  name : Option Value := none
  tonic : Option Value := none
  tempo : Option Value := none
  chords : Option Value := none
deriving Repr

/-- The tonic is kept as it was given; the symbols are without blanks at their ends. -/
structure Document where
  name : Text
  tonic : Text
  tempo : Int
  chords : List Text
deriving DecidableEq, Repr

def defaultTonic : Text := ['C']
def defaultTempo : Int := 120

def checkSchema : Option Value → Except Fault Unit
  | none => .ok ()
  | some (.text t) => if t = schemaName then .ok () else .error .schema
  | some _ => .error .schema

def checkName : Option Value → Except Fault Text
  | none => .error .missing
  | some (.text []) => .error .emptyText
  | some (.text t) => .ok t
  | some _ => .error .notText

def checkTonic : Option Value → Except Fault Text
  | none => .ok defaultTonic
  | some (.text t) => do
    let _ ← (PitchClass.parse t).mapError Fault.pitch
    return t
  | some _ => .error .notText

def checkTempo : Option Value → Except Fault Int
  | none => .ok defaultTempo
  | some v => tempoOfValue v

/-- The items of a list that are texts, and the places of the others, from `i` on. -/
def textItems : Nat → List Value → List Text × List Nat
  | _, [] => ([], [])
  | i, .text t :: rest =>
    let (texts, others) := textItems (i + 1) rest
    (t :: texts, others)
  | i, _ :: rest =>
    let (texts, others) := textItems (i + 1) rest
    (texts, i :: others)

/-- Compiles symbols in turn, up to the first that is at fault. -/
def compileEach : List Text → Run SymbolError (List Chord)
  | [] => return []
  | symbol :: rest => do
    let c ← compileSymbol symbol
    return c :: (← compileEach rest)

theorem length_compileEach {symbols : List Text} {chords : List Chord}
    (h : (compileEach symbols).outcome = .ok chords) : chords.length = symbols.length := by
  induction symbols generalizing chords with
  | nil =>
    injection h with h
    subst h
    rfl
  | cons symbol rest ih =>
    unfold compileEach at h
    rw [Run.outcome_bind] at h
    cases first : (compileSymbol symbol).outcome with
    | error e =>
      rw [first] at h
      cases h
    | ok c =>
      rw [first] at h
      replace h : (compileEach rest >>= fun cs => pure (c :: cs)).outcome = .ok chords := h
      rw [Run.outcome_bind] at h
      cases later : (compileEach rest).outcome with
      | error e =>
        rw [later] at h
        cases h
      | ok cs =>
        rw [later] at h
        injection h with h
        rw [← h, List.length_cons, List.length_cons, ih later]

def checkChords : Option Value → Run (List FieldFault) (List Text)
  | none => Run.fail [⟨.chords, none, .missing⟩]
  | some (.list items) =>
    match textItems 0 items with
    | ([], []) => Run.fail [⟨.chords, none, .emptyList⟩]
    | (texts, []) => do
      let symbols := texts.map strip
      let _ ← (compileEach symbols).mapError fun e => [⟨.chords, none, .symbol e⟩]
      return symbols
    | (_, others) => Run.fail (others.map fun i => ⟨.chords, some i, .notText⟩)
  | some _ => Run.fail [⟨.chords, none, .notList⟩]

/-- The fault of a field, if there is one. -/
def faultOf {α : Type} (f : Field) : Except Fault α → List FieldFault
  | .ok _ => []
  | .error e => [⟨f, none, e⟩]

def faultsOf {α : Type} : Except (List FieldFault) α → List FieldFault
  | .ok _ => []
  | .error faults => faults

def Draft.validate (d : Draft) : Run (List FieldFault) Document := do
  let chords ← (checkChords d.chords).settle
  match checkSchema d.schema, checkName d.name, checkTonic d.tonic, checkTempo d.tempo, chords with
  | .ok _, .ok name, .ok tonic, .ok tempo, .ok symbols => return ⟨name, tonic, tempo, symbols⟩
  | schema, name, tonic, tempo, symbols =>
    Run.fail (faultOf .schema schema ++ faultOf .name name ++ faultOf .tonic tonic ++
      faultOf .tempo tempo ++ faultsOf symbols)

namespace Document

def compile (d : Document) : Run SymbolError (List Chord) :=
  compileEach d.chords

end Document

end ChordSymbols
