import ChordSymbols.Document.Validation
import ChordSymbols.Proofs.Traversal

/-!
# What validation accepts

A draft becomes a document exactly if every field passes its own check, and what
the document then holds is what the checks returned; a draft that is refused is
refused with the faults of all fields. The check of the symbols is one traversal
that stops at the first symbol that does not parse.
-/

namespace ChordSymbols

/-- Compiling each of some symbols is parsing them in order. -/
theorem outcome_compileEach (symbols : List Text) :
    (compileEach symbols).outcome = symbols.mapM parseSymbol := by
  induction symbols with
  | nil => rfl
  | cons symbol rest ih =>
    rw [compileEach, Run.outcome_bind, outcome_compileSymbol, List.mapM_cons]
    cases parseSymbol symbol with
    | error e => rfl
    | ok c =>
      show (compileEach rest >>= _).outcome = _
      rw [Run.outcome_bind, ih]
      cases rest.mapM parseSymbol <;> rfl

section Checks

theorem checkSchema_eq_ok {v : Option Value} :
    checkSchema v = .ok () ↔ v = none ∨ v = some (.text schemaName) := by
  constructor
  · intro checked
    unfold checkSchema at checked
    split at checked
    · exact .inl rfl
    · split at checked
      · rename_i same
        rw [same]
        exact .inr rfl
      · cases checked
    · cases checked
  · rintro (rfl | rfl)
    · rfl
    · rw [checkSchema, if_pos rfl]

theorem checkName_eq_ok {v : Value} {name : Text} :
    checkName (some v) = .ok name ↔ v = .text name ∧ name ≠ [] := by
  constructor
  · intro checked
    unfold checkName at checked
    split at checked
    · cases checked
    · cases checked
    · rename_i t nonempty given
      cases given
      cases checked
      refine ⟨rfl, ?_⟩
      rintro rfl
      exact nonempty rfl
    · cases checked
  · rintro ⟨rfl, nonempty⟩
    cases name with
    | nil => exact absurd rfl nonempty
    | cons c cs => rfl

theorem checkTonic_eq_ok {v : Value} {tonic : Text} :
    checkTonic (some v) = .ok tonic ↔
      v = .text tonic ∧ ∃ p, PitchClass.parse tonic = .ok p := by
  constructor
  · intro checked
    unfold checkTonic at checked
    split at checked
    · rename_i absent
      cases absent
    · rename_i t given
      cases given
      obtain ⟨p, parsed, same⟩ := bind_eq_ok.mp checked
      cases same
      exact ⟨rfl, p, mapError_eq_ok.mp parsed⟩
    · cases checked
  · rintro ⟨rfl, p, parsed⟩
    exact bind_eq_ok.mpr ⟨p, mapError_eq_ok.mpr parsed, rfl⟩

/-- A tonic that passed its check is the name of a pitch class; so is the one of a draft
without a tonic. -/
theorem checkTonic_parses {v : Option Value} {tonic : Text} (checked : checkTonic v = .ok tonic) :
    ∃ p, PitchClass.parse tonic = .ok p := by
  cases v with
  | none =>
    cases checked
    exact ⟨0, rfl⟩
  | some v => exact (checkTonic_eq_ok.mp checked).2

theorem tempoOfValue_eq_ok {v : Value} {tempo : Int} :
    tempoOfValue v = .ok tempo ↔
      wholeOfValue v = .ok tempo ∧ slowestTempo ≤ tempo ∧ tempo ≤ fastestTempo := by
  rw [tempoOfValue, bind_eq_ok]
  constructor
  · rintro ⟨n, whole, checked⟩
    split at checked
    · cases checked
    · split at checked
      · cases checked
      · cases checked
        exact ⟨whole, by omega, by omega⟩
  · rintro ⟨whole, slow, fast⟩
    exact ⟨tempo, whole, by rw [if_neg (by omega), if_neg (by omega)]; rfl⟩

theorem checkTempo_range {v : Option Value} {tempo : Int} (checked : checkTempo v = .ok tempo) :
    slowestTempo ≤ tempo ∧ tempo ≤ fastestTempo := by
  cases v with
  | none =>
    cases checked
    decide
  | some v => exact (tempoOfValue_eq_ok.mp checked).2

theorem textItems_texts (i : Nat) (ts : List Text) :
    textItems i (ts.map .text) = (ts, []) := by
  induction ts generalizing i with
  | nil => rfl
  | cons t ts ih => rw [List.map_cons, textItems, ih]

/-- Where every item is a text, the items are the texts. -/
theorem eq_of_textItems {i : Nat} {items : List Value} {ts : List Text}
    (all : textItems i items = (ts, [])) : items = ts.map .text := by
  induction items generalizing i ts with
  | nil =>
    cases all
    rfl
  | cons item rest ih =>
    cases read : textItems (i + 1) rest with
    | mk texts others =>
      cases item with
      | text t =>
        rw [textItems, read] at all
        cases all
        rw [ih read]
        rfl
      | _ =>
        rw [textItems, read] at all
        · cases all
        · rintro t ⟨⟩

/-- The check of a list of texts: the list is not empty, and its symbols all parse. -/
theorem outcome_checkChords_texts (ts : List Text) :
    (checkChords (some (.list (ts.map .text)))).outcome =
      if ts = [] then .error [⟨.chords, none, .emptyList⟩]
      else (((ts.map strip).mapM parseSymbol).mapError fun e => [⟨.chords, none, .symbol e⟩]).map
        fun _ => ts.map strip := by
  rw [checkChords, textItems_texts]
  cases ts with
  | nil => rfl
  | cons t ts =>
    show ((compileEach ((t :: ts).map strip)).mapError _ >>= _).outcome = _
    rw [Run.outcome_bind, Run.outcome_mapError, outcome_compileEach, if_neg (List.cons_ne_nil t ts)]
    cases ((t :: ts).map strip).mapM parseSymbol <;> rfl

/-- The symbols of a document are not blank at their ends, and they all parse. -/
theorem checkChords_parses {v : Option Value} {symbols : List Text}
    (checked : (checkChords v).outcome = .ok symbols) :
    ∃ cs, symbols.mapM parseSymbol = .ok cs := by
  unfold checkChords at checked
  split at checked
  · cases checked
  · split at checked
    · cases checked
    · rename_i texts _ _
      rw [Run.outcome_bind, Run.outcome_mapError, outcome_compileEach] at checked
      cases parsed : (texts.map strip).mapM parseSymbol with
      | error e =>
        rw [parsed] at checked
        cases checked
      | ok cs =>
        rw [parsed] at checked
        cases checked
        exact ⟨cs, parsed⟩
    · cases checked
  · cases checked

/-- Chords that passed their check were a list of texts that was not empty, and are these texts
without the blanks at their ends. -/
theorem checkChords_given {v : Option Value} {symbols : List Text}
    (checked : (checkChords v).outcome = .ok symbols) :
    ∃ texts : List Text,
      v = some (.list (texts.map .text)) ∧ texts ≠ [] ∧ symbols = texts.map strip := by
  have given : ∃ texts : List Text, v = some (.list (texts.map .text)) := by
    unfold checkChords at checked
    split at checked
    · cases checked
    · split at checked
      · cases checked
      · rename_i read
        exact ⟨_, congrArg (some ∘ Value.list) (eq_of_textItems read)⟩
      · cases checked
    · cases checked
  obtain ⟨texts, rfl⟩ := given
  rw [outcome_checkChords_texts] at checked
  split at checked
  · cases checked
  · rename_i filled
    obtain ⟨chords, -, same⟩ := map_eq_ok.mp checked
    exact ⟨texts, rfl, filled, same.symm⟩

end Checks

/-- The faults of all fields, in the order of the fields. -/
def Draft.faults (d : Draft) : List FieldFault :=
  faultOf .schema (checkSchema d.schema) ++ faultOf .name (checkName d.name) ++
    faultOf .tonic (checkTonic d.tonic) ++ faultOf .tempo (checkTempo d.tempo) ++
    faultsOf (checkChords d.chords).outcome

theorem Draft.validate_eq_ok {draft : Draft} {d : Document} :
    draft.validate.outcome = .ok d ↔
      checkSchema draft.schema = .ok () ∧ checkName draft.name = .ok d.name ∧
        checkTonic draft.tonic = .ok d.tonic ∧ checkTempo draft.tempo = .ok d.tempo ∧
        (checkChords draft.chords).outcome = .ok d.chords := by
  rw [Draft.validate, Run.outcome_bind, Run.outcome_settle]
  constructor
  · intro made
    simp only [Except.bind] at made
    split at made
    · rename_i schema name tonic tempo chords
      cases made
      exact ⟨schema, name, tonic, tempo, chords⟩
    · cases made
  · rintro ⟨schema, name, tonic, tempo, chords⟩
    simp only [Except.bind, schema, name, tonic, tempo, chords]
    rfl

/-- A draft is refused with the faults of all its fields. -/
theorem Draft.faults_of_refused {draft : Draft} {faults : List FieldFault}
    (refused : draft.validate.outcome = .error faults) : faults = draft.faults := by
  rw [Draft.validate, Run.outcome_bind, Run.outcome_settle] at refused
  rw [Draft.faults]
  simp only [Except.bind] at refused
  split at refused
  · cases refused
  · cases refused
    rfl

end ChordSymbols
