import ChordSymbols.Proofs.Document.Validation

/-!
# The faults of a document

The fields of a draft are judged one by one, and a draft becomes a document if
nothing is reported of any. For drafts whose fields are all given and of the
kind that a document has, each field passes or has one fault, with a reason
that is said of this field alone; so the faults of such a draft name exactly the
fields that do not pass, in their order.
-/

namespace ChordSymbols

/-- The fields of a document, in their order. -/
def Field.all : List Field := [.schema, .name, .tonic, .tempo, .chords]

section Fields

variable {draft : Draft}

/-- What is reported of one field. -/
def Draft.faultsIn (draft : Draft) : Field → List FieldFault
  | .schema => faultOf .schema (checkSchema draft.schema)
  | .name => faultOf .name (checkName draft.name)
  | .tonic => faultOf .tonic (checkTonic draft.tonic)
  | .tempo => faultOf .tempo (checkTempo draft.tempo)
  | .chords => faultsOf (checkChords draft.chords).outcome

theorem Draft.faults_eq (draft : Draft) : draft.faults = Field.all.flatMap draft.faultsIn := by
  simp only [Draft.faults, Field.all, List.flatMap_cons, List.flatMap_nil, List.append_nil,
    List.append_assoc, Draft.faultsIn]

/-- Nothing is reported of the fields of a draft that becomes a document. -/
theorem Draft.faultsIn_of_valid {d : Document} (valid : draft.validate.outcome = .ok d)
    (f : Field) : draft.faultsIn f = [] := by
  obtain ⟨schema, name, tonic, tempo, chords⟩ := Draft.validate_eq_ok.mp valid
  cases f with
  | schema => rw [Draft.faultsIn, schema, faultOf]
  | name => rw [Draft.faultsIn, name, faultOf]
  | tonic => rw [Draft.faultsIn, tonic, faultOf]
  | tempo => rw [Draft.faultsIn, tempo, faultOf]
  | chords => rw [Draft.faultsIn, chords, faultsOf]

end Fields

/-- A draft whose fields are all given, and of the kind that a document has. -/
structure PlainDraft where
  schema : Text
  name : Text
  tonic : Text
  tempo : Int
  symbols : List Text
deriving DecidableEq, Repr

instance decidableSucceeds {ε α : Type} (x : Except ε α) : Decidable (∃ a, x = .ok a) :=
  match x with
  | .ok a => isTrue ⟨a, rfl⟩
  | .error e => isFalse (by rintro ⟨a, h⟩; cases h)

namespace PlainDraft

def draft (p : PlainDraft) : Draft :=
  ⟨some (.text p.schema), some (.text p.name), some (.text p.tonic), some (.whole p.tempo),
    some (.list (p.symbols.map .text))⟩

/-- What is asked of each field. -/
def Passes (p : PlainDraft) : Field → Prop
  | .schema => p.schema = schemaName
  | .name => p.name ≠ []
  | .tonic => ∃ pitch, PitchClass.parse p.tonic = .ok pitch
  | .tempo => slowestTempo ≤ p.tempo ∧ p.tempo ≤ fastestTempo
  | .chords => p.symbols ≠ [] ∧ ∀ s ∈ p.symbols.map strip, ∃ c, parseSymbol s = .ok c

instance decidablePasses (p : PlainDraft) (f : Field) : Decidable (p.Passes f) :=
  match f with
  | .schema => inferInstanceAs (Decidable (p.schema = schemaName))
  | .name => inferInstanceAs (Decidable (p.name ≠ []))
  | .tonic => inferInstanceAs (Decidable (∃ pitch, PitchClass.parse p.tonic = .ok pitch))
  | .tempo => inferInstanceAs (Decidable (slowestTempo ≤ p.tempo ∧ p.tempo ≤ fastestTempo))
  | .chords => inferInstanceAs (Decidable
      (p.symbols ≠ [] ∧ ∀ s ∈ p.symbols.map strip, ∃ c, parseSymbol s = .ok c))

/-- The reason why a field does not pass. Of symbols it is the first one that does not parse. -/
inductive Blames (p : PlainDraft) : Field → Fault → Prop where
  | schema : p.schema ≠ schemaName → Blames p .schema .schema
  | name : p.name = [] → Blames p .name .emptyText
  | tonic {e} : PitchClass.parse p.tonic = .error e → Blames p .tonic (.pitch e)
  | slow : p.tempo < slowestTempo → Blames p .tempo .tooSlow
  | fast : fastestTempo < p.tempo → Blames p .tempo .tooFast
  | noSymbols : p.symbols = [] → Blames p .chords .emptyList
  | symbol {before s after e} : p.symbols.map strip = before ++ s :: after →
      (∀ b ∈ before, ∃ c, parseSymbol b = .ok c) → parseSymbol s = .error e →
      Blames p .chords (.symbol e)

/-- A field passes and nothing is reported of it, or it does not and one fault is. -/
def Judged (p : PlainDraft) (f : Field) : Prop :=
  (p.Passes f ∧ p.draft.faultsIn f = []) ∨
    (¬p.Passes f ∧ ∃ x, p.draft.faultsIn f = [⟨f, none, x⟩] ∧ p.Blames f x)

variable {p : PlainDraft}

theorem judged_schema (p : PlainDraft) : p.Judged .schema := by
  by_cases same : p.schema = schemaName
  · refine .inl ⟨same, ?_⟩
    rw [Draft.faultsIn, draft, checkSchema, if_pos same]
    rfl
  · refine .inr ⟨same, .schema, ?_, .schema same⟩
    rw [Draft.faultsIn, draft, checkSchema, if_neg same]
    rfl

theorem judged_name (p : PlainDraft) : p.Judged .name := by
  obtain ⟨schema, name, tonic, tempo, symbols⟩ := p
  cases name with
  | nil => exact .inr ⟨fun filled => filled rfl, .emptyText, rfl, .name rfl⟩
  | cons c cs => exact .inl ⟨List.cons_ne_nil c cs, rfl⟩

theorem judged_tonic (p : PlainDraft) : p.Judged .tonic := by
  cases parsed : PitchClass.parse p.tonic with
  | ok pitch =>
    refine .inl ⟨⟨pitch, parsed⟩, ?_⟩
    rw [Draft.faultsIn, draft, checkTonic_eq_ok.mpr ⟨rfl, pitch, parsed⟩]
    rfl
  | error e =>
    refine .inr ⟨?_, .pitch e, ?_, .tonic parsed⟩
    · rintro ⟨pitch, passed⟩
      cases parsed.symm.trans passed
    · rw [Draft.faultsIn, draft, checkTonic, parsed]
      rfl

theorem judged_tempo (p : PlainDraft) : p.Judged .tempo := by
  have checked : checkTempo p.draft.tempo =
      if p.tempo < slowestTempo then .error .tooSlow
      else if fastestTempo < p.tempo then .error .tooFast
      else .ok p.tempo := rfl
  by_cases slow : p.tempo < slowestTempo
  · refine .inr ⟨fun inside => Int.not_le.mpr slow inside.1, .tooSlow, ?_, .slow slow⟩
    rw [Draft.faultsIn, checked, if_pos slow]
    rfl
  · by_cases fast : fastestTempo < p.tempo
    · refine .inr ⟨fun inside => Int.not_le.mpr fast inside.2, .tooFast, ?_, .fast fast⟩
      rw [Draft.faultsIn, checked, if_neg slow, if_pos fast]
      rfl
    · refine .inl ⟨⟨Int.not_lt.mp slow, Int.not_lt.mp fast⟩, ?_⟩
      rw [Draft.faultsIn, checked, if_neg slow, if_neg fast]
      rfl

theorem judged_chords (p : PlainDraft) : p.Judged .chords := by
  have checked := outcome_checkChords_texts p.symbols
  by_cases empty : p.symbols = []
  · refine .inr ⟨fun filled => filled.1 empty, .emptyList, ?_, .noSymbols empty⟩
    rw [Draft.faultsIn, draft, checked, if_pos empty]
    rfl
  · rw [if_neg empty] at checked
    cases parsed : (p.symbols.map strip).mapM parseSymbol with
    | ok chords =>
      refine .inl ⟨⟨empty, mapM_succeeds_iff.mp ⟨chords, parsed⟩⟩, ?_⟩
      rw [Draft.faultsIn, draft, checked, parsed]
      rfl
    | error e =>
      obtain ⟨before, s, after, cut, passed, failed⟩ := mapM_eq_error_at.mp parsed
      refine .inr ⟨fun filled => ?_, .symbol e, ?_, .symbol cut passed failed⟩
      · obtain ⟨c, read⟩ := filled.2 s (by simp [cut])
        cases failed.symm.trans read
      · rw [Draft.faultsIn, draft, checked, parsed]
        rfl

theorem judged (p : PlainDraft) (f : Field) : p.Judged f := by
  cases f with
  | schema => exact p.judged_schema
  | name => exact p.judged_name
  | tonic => exact p.judged_tonic
  | tempo => exact p.judged_tempo
  | chords => exact p.judged_chords

/-- The faults of some fields are in just those of them that do not pass. -/
theorem map_field_faultsIn (p : PlainDraft) (fs : List Field) :
    (fs.flatMap p.draft.faultsIn).map FieldFault.field = fs.filter fun f => ¬p.Passes f := by
  induction fs with
  | nil => rfl
  | cons f fs ih =>
    rw [List.flatMap_cons]
    rcases p.judged f with ⟨passes, none⟩ | ⟨fails, x, one, -⟩
    · rw [none, List.nil_append, ih, List.filter_cons_of_neg (by simpa using passes)]
    · rw [one, List.singleton_append, List.map_cons, ih,
        List.filter_cons_of_pos (by simpa using fails)]

theorem blames_of_mem_faults {x : FieldFault} (member : x ∈ p.draft.faults) :
    x.item = none ∧ p.Blames x.field x.fault := by
  rw [Draft.faults_eq] at member
  obtain ⟨f, -, inField⟩ := List.mem_flatMap.mp member
  rcases p.judged f with ⟨-, none⟩ | ⟨-, y, one, blames⟩
  · rw [none] at inField
    cases inField
  · rw [one] at inField
    cases List.mem_singleton.mp inField
    exact ⟨rfl, blames⟩

/-- If there are symbols, they are blamed for the first one that does not parse. -/
theorem symbol_of_blames {x : Fault} (filled : p.symbols ≠ []) (blames : p.Blames .chords x) :
    ∃ before s after e, p.symbols.map strip = before ++ s :: after ∧
      (∀ b ∈ before, ∃ c, parseSymbol b = .ok c) ∧ parseSymbol s = .error e ∧ x = .symbol e := by
  cases blames with
  | noSymbols empty => exact absurd empty filled
  | symbol cut passed failed => exact ⟨_, _, _, _, cut, passed, failed, rfl⟩

/-- Where every field passes, the document is made of them as they are, but for the blanks at the
ends of the symbols. -/
theorem validate_of_passes (passes : ∀ f, p.Passes f) :
    p.draft.validate.outcome = .ok ⟨p.name, p.tonic, p.tempo, p.symbols.map strip⟩ := by
  obtain ⟨pitch, keyed⟩ := passes .tonic
  obtain ⟨filled, each⟩ := passes .chords
  obtain ⟨chords, parsed⟩ := mapM_succeeds_iff.mpr each
  refine Draft.validate_eq_ok.mpr ⟨checkSchema_eq_ok.mpr (.inr ?_), ?_, ?_, ?_, ?_⟩
  · rw [draft, passes .schema]
  · exact checkName_eq_ok.mpr ⟨rfl, passes .name⟩
  · exact checkTonic_eq_ok.mpr ⟨rfl, pitch, keyed⟩
  · exact tempoOfValue_eq_ok.mpr ⟨rfl, passes .tempo⟩
  · rw [draft, outcome_checkChords_texts, if_neg filled, parsed]
    rfl

theorem passes_of_valid {d : Document} (valid : p.draft.validate.outcome = .ok d) (f : Field) :
    p.Passes f := by
  rcases p.judged f with ⟨passes, -⟩ | ⟨-, x, one, -⟩
  · exact passes
  · rw [Draft.faultsIn_of_valid valid f] at one
    cases one

end PlainDraft

/-- A draft of plain fields becomes a document exactly if every field passes, and the document holds
them, the symbols without the blanks at their ends. If it is refused, then for one fault in each
field that does not pass and none in the others, in the order of the fields. Every fault has its
reason in its own field; that of the symbols is the fault of the first one that does not parse. -/
theorem plain_draft_verdict (p : PlainDraft) :
    ((∃ d, p.draft.validate.outcome = .ok d) ↔ ∀ f, p.Passes f) ∧
    (∀ d, p.draft.validate.outcome = .ok d →
      d = ⟨p.name, p.tonic, p.tempo, p.symbols.map strip⟩) ∧
    (∀ faults, p.draft.validate.outcome = .error faults →
      faults.map FieldFault.field =
        [.schema, .name, .tonic, .tempo, .chords].filter (fun f => ¬p.Passes f) ∧
      (∀ x ∈ faults, x.item = none ∧ p.Blames x.field x.fault) ∧
      (p.symbols ≠ [] → ∀ x ∈ faults, x.field = .chords →
        ∃ before s after e, p.symbols.map strip = before ++ s :: after ∧
          (∀ b ∈ before, ∃ c, parseSymbol b = .ok c) ∧ parseSymbol s = .error e ∧
          x.fault = .symbol e ∧ x.fault.message = "Value error, " ++ e.message)) := by
  refine ⟨⟨?_, ?_⟩, ?_, ?_⟩
  · rintro ⟨d, valid⟩
    exact PlainDraft.passes_of_valid valid
  · intro passes
    exact ⟨_, PlainDraft.validate_of_passes passes⟩
  · intro d valid
    have whole := PlainDraft.validate_of_passes (PlainDraft.passes_of_valid valid)
    exact Except.ok.inj (valid.symm.trans whole)
  · intro faults refused
    obtain rfl := Draft.faults_of_refused refused
    refine ⟨?_, fun x member => PlainDraft.blames_of_mem_faults member, ?_⟩
    · rw [Draft.faults_eq]
      exact p.map_field_faultsIn Field.all
    · intro filled x member inChords
      obtain ⟨-, blames⟩ := PlainDraft.blames_of_mem_faults member
      rw [inChords] at blames
      obtain ⟨before, s, after, e, cut, passed, failed, reason⟩ :=
        PlainDraft.symbol_of_blames filled blames
      refine ⟨before, s, after, e, cut, passed, failed, reason, ?_⟩
      rw [reason]
      rfl

/-- All five fields at once. -/
example :
    (PlainDraft.mk ['v', '1'] [] ['H'] 301 [[' ', '1'], ['x', '9'], ['9']]).draft.validate.outcome =
      .error
        [⟨.schema, none, .schema⟩, ⟨.name, none, .emptyText⟩, ⟨.tonic, none, .pitch ⟨['H']⟩⟩,
          ⟨.tempo, none, .tooFast⟩, ⟨.chords, none, .symbol (.unresolved .mode ['x'])⟩] := rfl

end ChordSymbols
