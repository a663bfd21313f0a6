import ChordSymbols.Proofs.Progression.Leniency

/-!
# The records of a compilation

Every symbol of a progression leaves its own records, in its turn: that it was
scanned, if it was, and then what became of it. The journal of a lenient
compilation is made of these, so that its warnings and what was put aside are
the same list. A strict compilation leaves the same records until it comes to
a symbol that does not parse; of that symbol it records no more than that it
was scanned.
-/

namespace ChordSymbols

def scannedRecord (symbol : Text) (tokens : List Token) : Record :=
  ⟨.debug, .scanner, "Tokenized " ++ quoted symbol ++ " -> " ++ Token.shownList tokens⟩

def parsedRecord (symbol : Text) (c : Chord) : Record :=
  ⟨.debug, .parser, "Parsed " ++ quoted symbol ++ " -> " ++ c.parts⟩

def skippedRecord (s : Skipped) : Record :=
  ⟨.warning, .progression, "Skipping chord symbol " ++ quoted s.symbol ++ " at position " ++
    toString s.index ++ ": " ++ s.cause.message⟩

/-- That a symbol was scanned, if it was. -/
def scanRecords (symbol : Text) : List Record :=
  match tokenize symbol with
  | .ok tokens => [scannedRecord symbol tokens]
  | .error _ => []

/-- What became of a symbol at its place. -/
def verdictRecord (p : Text × Nat) : Record :=
  match parseSymbol p.1 with
  | .ok c => parsedRecord p.1 c
  | .error e => skippedRecord ⟨p.2, p.1, e⟩

def itemRecords (p : Text × Nat) : List Record :=
  scanRecords p.1 ++ [verdictRecord p]

def Record.isWarning (r : Record) : Bool := r.level = .warning

section Symbol

variable {symbol : Text} {c : Chord} {e : SymbolError}

theorem records_tokenizeRecorded (symbol : Text) :
    (tokenizeRecorded symbol).records = scanRecords symbol := by
  rw [tokenizeRecorded, Run.records_bind, scanRecords]
  cases tokenize symbol <;> rfl

theorem records_compileSymbol_ok (parsed : parseSymbol symbol = .ok c) :
    (compileSymbol symbol).records = scanRecords symbol ++ [parsedRecord symbol c] := by
  obtain ⟨ts, read, grouped⟩ := bind_eq_ok.mp parsed
  rw [compileSymbol, Run.records_bind, records_tokenizeRecorded, outcome_tokenizeRecorded, read]
  show _ ++ (Run.of (parseTokens ts) >>= _).records = _
  rw [grouped]
  rfl

/-- A symbol that fails leaves no record of the failure. -/
theorem records_compileSymbol_error (failed : parseSymbol symbol = .error e) :
    (compileSymbol symbol).records = scanRecords symbol := by
  rw [compileSymbol, Run.records_bind, records_tokenizeRecorded, outcome_tokenizeRecorded]
  rcases bind_eq_error.mp failed with unread | ⟨ts, read, ungrouped⟩
  · rw [unread]
    exact List.append_nil _
  · rw [read]
    show _ ++ (Run.of (parseTokens ts) >>= _).records = _
    rw [ungrouped]
    exact List.append_nil _

end Symbol

section Steps

variable {strict : Bool} {i : Nat} {x : Text} {c : Chord} {e : SymbolError}

theorem records_compileFrom_ok (parsed : parseSymbol x = .ok c) (rest : List Text) :
    (compileFrom strict i (x :: rest)).records =
      itemRecords (x, i) ++ (compileFrom strict (i + 1) rest).records := by
  rw [compileFrom, Run.records_bind, Run.outcome_settle, outcome_compileSymbol, parsed]
  show (compileSymbol x).records ++ (compileFrom strict (i + 1) rest >>= _).records = _
  rw [records_compileSymbol_ok parsed, Run.records_bind, itemRecords, verdictRecord, parsed]
  cases (compileFrom strict (i + 1) rest).outcome <;> simp [Run.records_pure]

theorem records_compileFrom_lenient (failed : parseSymbol x = .error e) (rest : List Text) :
    (compileFrom false i (x :: rest)).records =
      itemRecords (x, i) ++ (compileFrom false (i + 1) rest).records := by
  rw [compileFrom, Run.records_bind, Run.outcome_settle, outcome_compileSymbol, failed]
  show (compileSymbol x).records ++ skippedRecord ⟨i, x, e⟩ ::
    (compileFrom false (i + 1) rest >>= _).records = _
  rw [records_compileSymbol_error failed, Run.records_bind, itemRecords, verdictRecord, failed]
  cases (compileFrom false (i + 1) rest).outcome <;> simp [Run.records_pure]

theorem records_compileFrom_strict (failed : parseSymbol x = .error e) (rest : List Text) :
    (compileFrom true i (x :: rest)).records = scanRecords x := by
  rw [compileFrom, Run.records_bind, Run.outcome_settle, outcome_compileSymbol, failed]
  show (compileSymbol x).records ++ [] = _
  rw [records_compileSymbol_error failed, List.append_nil]

end Steps

theorem records_compileFrom_false (i : Nat) (xs : List Text) :
    (compileFrom false i xs).records = (xs.zipIdx i).flatMap itemRecords := by
  induction xs generalizing i with
  | nil => rfl
  | cons x xs ih =>
    rw [List.zipIdx_cons, List.flatMap_cons, ← ih]
    cases parsed : parseSymbol x with
    | ok c => exact records_compileFrom_ok parsed xs
    | error e => exact records_compileFrom_lenient parsed xs

/-- Symbols that parse leave the same records, whatever follows them. -/
theorem records_compileFrom_append {strict : Bool} {before : List Text}
    (passed : ∀ b ∈ before, ∃ c, parseSymbol b = .ok c) (i : Nat) (rest : List Text) :
    (compileFrom strict i (before ++ rest)).records =
      (before.zipIdx i).flatMap itemRecords ++
        (compileFrom strict (i + before.length) rest).records := by
  induction before generalizing i with
  | nil => rfl
  | cons b before ih =>
    obtain ⟨c, parsed⟩ := passed b List.mem_cons_self
    have tail := ih (fun a ha => passed a (List.mem_cons_of_mem b ha)) (i + 1)
    -- Places count on: those of the tail from `i + 1`, those of the rest from behind it.
    rw [List.cons_append, records_compileFrom_ok parsed, tail, List.zipIdx_cons,
      List.flatMap_cons, List.append_assoc, List.length_cons, Nat.add_right_comm, Nat.add_assoc]

/-- A symbol that does not parse, behind others that do. -/
structure FirstFault (xs before : List Text) (x : Text) (e : SymbolError) : Prop where
  cut : ∃ after, xs = before ++ x :: after
  passed : ∀ b ∈ before, ∃ c, parseSymbol b = .ok c
  failed : parseSymbol x = .error e

theorem compileFrom_true_eq_error {i : Nat} {xs : List Text} {e : SymbolError} :
    (compileFrom true i xs).outcome = .error e ↔ ∃ before x, FirstFault xs before x e := by
  rw [outcome_compileFrom_true, map_eq_error, mapM_eq_error_at]
  constructor
  · rintro ⟨before, x, after, cut, passed, failed⟩
    exact ⟨before, x, ⟨after, cut⟩, passed, failed⟩
  · rintro ⟨before, x, ⟨after, cut⟩, passed, failed⟩
    exact ⟨before, x, after, cut, passed, failed⟩

theorem FirstFault.records {xs before : List Text} {x : Text} {e : SymbolError}
    (first : FirstFault xs before x e) (i : Nat) :
    (compileFrom true i xs).records =
      (before.zipIdx i).flatMap itemRecords ++ scanRecords x := by
  obtain ⟨after, rfl⟩ := first.cut
  rw [records_compileFrom_append first.passed, records_compileFrom_strict first.failed]

/-- Strictness makes no difference to the records of symbols that all parse. -/
theorem records_compileFrom_complete {i : Nat} {xs : List Text} {r : Compiled}
    (compiled : (compileFrom true i xs).outcome = .ok r) :
    (compileFrom true i xs).records = (compileFrom false i xs).records := by
  rw [outcome_compileFrom_true] at compiled
  obtain ⟨cs, whole, -⟩ := map_eq_ok.mp compiled
  have strict : (compileFrom true i (xs ++ [])).records = (xs.zipIdx i).flatMap itemRecords ++ [] :=
    records_compileFrom_append (mapM_succeeds_iff.mp ⟨cs, whole⟩) i []
  rw [List.append_nil, List.append_nil] at strict
  exact strict.trans (records_compileFrom_false i xs).symm

theorem filter_scanRecords (symbol : Text) :
    (scanRecords symbol).filter Record.isWarning = [] := by
  rw [scanRecords]
  cases tokenize symbol <;> rfl

/-- Of the records of a symbol the warning is that it was put aside. -/
theorem filter_itemRecords (p : Text × Nat) :
    (itemRecords p).filter Record.isWarning = ((skippedAt p).map skippedRecord).toList := by
  rw [itemRecords, List.filter_append, filter_scanRecords, List.nil_append, verdictRecord,
    skippedAt]
  cases parseSymbol p.1 <;> rfl

theorem filter_flatMap_itemRecords (ps : List (Text × Nat)) :
    (ps.flatMap itemRecords).filter Record.isWarning =
      (ps.filterMap skippedAt).map skippedRecord := by
  induction ps with
  | nil => rfl
  | cons p ps ih =>
    rw [List.flatMap_cons, List.filter_append, filter_itemRecords, ih, List.filterMap_cons]
    cases skippedAt p <;> rfl

/-- A strict compilation writes no warnings. -/
theorem filter_records_strict (i : Nat) (xs : List Text) :
    (compileFrom true i xs).records.filter Record.isWarning = [] := by
  induction xs generalizing i with
  | nil => rfl
  | cons x xs ih =>
    cases parsed : parseSymbol x with
    | ok c =>
      have warned := filter_itemRecords (x, i)
      rw [skippedAt, parsed] at warned
      rw [records_compileFrom_ok parsed, List.filter_append, warned, ih]
      rfl
    | error e => rw [records_compileFrom_strict parsed, filter_scanRecords]

/-- A lenient compilation records its symbols in a row, and its warnings tell in order of what it
has put aside. A strict one leaves the same records or ends at the first fault, where it records
those before it and no more of the symbol at fault than that it was scanned; it never warns. -/
theorem journal_of_compilation (t : Text) :
    (∃ r, (compileProgression false t).outcome = .ok r ∧
      (compileProgression false t).records = (splitProgression t).zipIdx.flatMap itemRecords ∧
      (compileProgression false t).records.filter Record.isWarning =
        r.skipped.map skippedRecord) ∧
    ((∃ r, (compileProgression true t).outcome = .ok r ∧
        (compileProgression true t).records = (compileProgression false t).records) ∨
      ∃ before x e, FirstFault (splitProgression t) before x e ∧
        (compileProgression true t).outcome = .error e ∧
        (compileProgression true t).records =
          before.zipIdx.flatMap itemRecords ++ scanRecords x) ∧
    (compileProgression true t).records.filter Record.isWarning = [] := by
  have journal := records_compileFrom_false 0 (splitProgression t)
  refine ⟨⟨_, outcome_compileProgression_false t, journal, ?_⟩, ?_, filter_records_strict 0 _⟩
  · rw [compileProgression, journal, filter_flatMap_itemRecords]
    rfl
  · cases ended : (compileProgression true t).outcome with
    | ok r => exact .inl ⟨r, rfl, records_compileFrom_complete ended⟩
    | error e =>
      obtain ⟨before, x, first⟩ := compileFrom_true_eq_error.mp ended
      exact .inr ⟨before, x, e, first, rfl, first.records 0⟩

-- The second symbol has no tokens, the third has no chord.
example : (compileProgression false "1,?,9".toList).records.map Record.level =
    [.debug, .debug, .warning, .debug, .warning] := by
  decide

end ChordSymbols
