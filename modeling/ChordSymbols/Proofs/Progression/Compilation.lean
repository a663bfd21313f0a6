import ChordSymbols.Proofs.Progression.Splitting
import ChordSymbols.Proofs.Symbol.Canonical
import ChordSymbols.Proofs.Traversal

/-!
# Compiling progressions

One symbol of a progression is a step of the compilation: it adds its chord, or
it ends a strict compilation, or it is put aside by a lenient one. What a whole
compilation keeps follows by induction on the symbols. A strict compilation is
one traversal, and a lenient one sifts the symbols, each by itself.
-/

namespace ChordSymbols

section Steps

variable {strict : Bool} {i : Nat} {s : Text} {c : Chord} {e : SymbolError}

theorem outcome_compileFrom_ok (parsed : parseSymbol s = .ok c) (rest : List Text) :
    (compileFrom strict i (s :: rest)).outcome =
      (compileFrom strict (i + 1) rest).outcome.map (·.withChord c s) := by
  rw [compileFrom, Run.outcome_bind, Run.outcome_settle, outcome_compileSymbol, parsed]
  show (compileFrom strict (i + 1) rest >>= _).outcome = _
  rw [Run.outcome_bind]
  cases (compileFrom strict (i + 1) rest).outcome <;> rfl

theorem outcome_compileFrom_strict (failed : parseSymbol s = .error e) (rest : List Text) :
    (compileFrom true i (s :: rest)).outcome = .error e := by
  rw [compileFrom, Run.outcome_bind, Run.outcome_settle, outcome_compileSymbol, failed]
  rfl

theorem outcome_compileFrom_lenient (failed : parseSymbol s = .error e) (rest : List Text) :
    (compileFrom false i (s :: rest)).outcome =
      (compileFrom false (i + 1) rest).outcome.map (·.withSkipped ⟨i, s, e⟩) := by
  rw [compileFrom, Run.outcome_bind, Run.outcome_settle, outcome_compileSymbol, failed]
  show (Run.note _ _ _ >>= fun _ => compileFrom false (i + 1) rest >>= _).outcome = _
  rw [Run.outcome_bind]
  show (compileFrom false (i + 1) rest >>= _).outcome = _
  rw [Run.outcome_bind]
  cases (compileFrom false (i + 1) rest).outcome <;> rfl

end Steps

def Parses (s : Text) (c : Chord) : Prop :=
  parseSymbol s = .ok c

/-- Where every symbol parses, strictness makes no difference. -/
theorem compileFrom_complete {strict : Bool} {i : Nat} {xs : List Text} {cs : List Chord}
    (parsed : List.Forall₂ Parses xs cs) :
    (compileFrom strict i xs).outcome = .ok ⟨cs, xs, []⟩ := by
  induction parsed generalizing i with
  | nil => rfl
  | cons first rest ih =>
    rw [outcome_compileFrom_ok first, ih]
    rfl

/-- A strict compilation is one traversal: it ends at the first symbol that does not parse. -/
theorem outcome_compileFrom_true (i : Nat) (xs : List Text) :
    (compileFrom true i xs).outcome = (xs.mapM parseSymbol).map fun cs => ⟨cs, xs, []⟩ := by
  induction xs generalizing i with
  | nil => rfl
  | cons x xs ih =>
    rw [List.mapM_cons]
    cases first : parseSymbol x with
    | error e => exact outcome_compileFrom_strict first xs
    | ok c =>
      rw [outcome_compileFrom_ok first, ih]
      cases xs.mapM parseSymbol <;> rfl

/-- What is put aside of a symbol at a place. -/
def skippedAt (p : Text × Nat) : Option Skipped :=
  match parseSymbol p.1 with
  | .ok _ => none
  | .error e => some ⟨p.2, p.1, e⟩

/-- The symbols from place `i` on, each judged by itself. -/
def siftedFrom (i : Nat) (xs : List Text) : Compiled where
  chords := xs.filterMap fun x => (parseSymbol x).toOption
  symbols := xs.filter fun x => (parseSymbol x).isOk
  skipped := (xs.zipIdx i).filterMap skippedAt

section Sifting

variable {i : Nat} {x : Text} {xs : List Text} {c : Chord} {e : SymbolError}

theorem siftedFrom_ok (parsed : parseSymbol x = .ok c) :
    siftedFrom i (x :: xs) = (siftedFrom (i + 1) xs).withChord c x := by
  simp [siftedFrom, Compiled.withChord, skippedAt, parsed, Except.toOption, Except.isOk,
    Except.toBool]

theorem siftedFrom_error (failed : parseSymbol x = .error e) :
    siftedFrom i (x :: xs) = (siftedFrom (i + 1) xs).withSkipped ⟨i, x, e⟩ := by
  simp [siftedFrom, Compiled.withSkipped, skippedAt, failed, Except.toOption, Except.isOk,
    Except.toBool]

theorem outcome_compileFrom_false (i : Nat) (xs : List Text) :
    (compileFrom false i xs).outcome = .ok (siftedFrom i xs) := by
  induction xs generalizing i with
  | nil => rfl
  | cons x xs ih =>
    cases parsed : parseSymbol x with
    | ok c =>
      rw [outcome_compileFrom_ok parsed, ih, siftedFrom_ok parsed]
      rfl
    | error e =>
      rw [outcome_compileFrom_lenient parsed, ih, siftedFrom_error parsed]
      rfl

end Sifting

/-- Symbols that parse, behind others, add their chords and leave all else as it was: what is
put aside, the places of it, and whether a strict compilation ends. -/
theorem compileFrom_append {strict : Bool} {i : Nat} {xs ys : List Text} {cs : List Chord}
    (parsed : List.Forall₂ Parses ys cs) :
    (compileFrom strict i (xs ++ ys)).outcome =
      (compileFrom strict i xs).outcome.map (·.append ⟨cs, ys, []⟩) := by
  induction xs generalizing i with
  | nil =>
    rw [List.nil_append, compileFrom_complete parsed]
    rfl
  | cons x xs ih =>
    rw [List.cons_append]
    cases first : parseSymbol x with
    | ok c =>
      rw [outcome_compileFrom_ok first, outcome_compileFrom_ok first, ih]
      cases (compileFrom strict (i + 1) xs).outcome <;> rfl
    | error e =>
      cases strict with
      | true => rw [outcome_compileFrom_strict first, outcome_compileFrom_strict first]; rfl
      | false =>
        rw [outcome_compileFrom_lenient first, outcome_compileFrom_lenient first, ih]
        cases (compileFrom false (i + 1) xs).outcome <;> rfl

theorem compileFrom_lenient_ok (i : Nat) (xs : List Text) :
    ∃ r, (compileFrom false i xs).outcome = .ok r :=
  ⟨_, outcome_compileFrom_false i xs⟩

/-- The chords of a compilation are those of the symbols that it lists. -/
theorem compileFrom_sound {strict : Bool} {i : Nat} {xs : List Text} {r : Compiled}
    (compiled : (compileFrom strict i xs).outcome = .ok r) :
    List.Forall₂ Parses r.symbols r.chords := by
  induction xs generalizing i r with
  | nil =>
    cases compiled
    exact .nil
  | cons x xs ih =>
    cases parsed : parseSymbol x with
    | ok c =>
      rw [outcome_compileFrom_ok parsed] at compiled
      obtain ⟨tail, rest, rfl⟩ := map_eq_ok.mp compiled
      exact .cons parsed (ih rest)
    | error e =>
      cases strict with
      | true =>
        rw [outcome_compileFrom_strict parsed] at compiled
        cases compiled
      | false =>
        rw [outcome_compileFrom_lenient parsed] at compiled
        obtain ⟨tail, rest, rfl⟩ := map_eq_ok.mp compiled
        have kept : List.Forall₂ Parses tail.symbols tail.chords := ih rest
        exact kept

end ChordSymbols
