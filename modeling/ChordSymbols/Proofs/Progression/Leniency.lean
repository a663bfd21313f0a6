import ChordSymbols.Proofs.Progression.Compilation
import Mathlib.Data.List.Sort

/-!
# Strict and lenient compilations

A lenient compilation sifts the symbols of a progression: those that parse are
listed with their chords, the others are put aside. Which of the two happens to a
symbol does not depend on the others, and nothing is lost, for what is put aside
keeps its place. A strict compilation comes to the same, unless something
was put aside; then it ends with the fault of what was put aside first.
-/

namespace ChordSymbols

theorem outcome_compileProgression_false (t : Text) :
    (compileProgression false t).outcome = .ok (siftedFrom 0 (splitProgression t)) :=
  outcome_compileFrom_false 0 (splitProgression t)

/-- What a strict compilation makes of the symbols that a lenient one has sifted. -/
def Compiled.strictly (r : Compiled) : Except SymbolError Compiled :=
  match r.skipped with
  | [] => .ok r
  | s :: _ => .error s.cause

theorem outcome_compileFrom_strictly (i : Nat) (xs : List Text) :
    (compileFrom true i xs).outcome = (siftedFrom i xs).strictly := by
  induction xs generalizing i with
  | nil => rfl
  | cons x xs ih =>
    cases parsed : parseSymbol x with
    | ok c =>
      have passed (r : Compiled) :
          r.strictly.map (·.withChord c x) = (r.withChord c x).strictly := by
        obtain ⟨chords, symbols, skipped⟩ := r
        cases skipped <;> rfl
      rw [outcome_compileFrom_ok parsed, ih, siftedFrom_ok parsed, passed]
    | error e =>
      rw [outcome_compileFrom_strict parsed, siftedFrom_error parsed]
      rfl

theorem skippedAt_eq_some {p : Text × Nat} {s : Skipped} :
    skippedAt p = some s ↔ p = (s.symbol, s.index) ∧ parseSymbol s.symbol = .error s.cause := by
  obtain ⟨x, i⟩ := p
  obtain ⟨j, y, d⟩ := s
  constructor
  · intro aside
    cases parsed : parseSymbol x with
    | ok c => simp [skippedAt, parsed] at aside
    | error e =>
      simp only [skippedAt, parsed] at aside
      cases aside
      exact ⟨rfl, parsed⟩
  · rintro ⟨same, failed⟩
    cases same
    simp only [skippedAt, failed]

theorem mem_skipped_iff {xs : List Text} {s : Skipped} :
    s ∈ (siftedFrom 0 xs).skipped ↔
      xs[s.index]? = some s.symbol ∧ parseSymbol s.symbol = .error s.cause := by
  simp only [siftedFrom, List.mem_filterMap, skippedAt_eq_some]
  constructor
  · rintro ⟨p, stands, rfl, failed⟩
    exact ⟨List.mem_zipIdx_iff_getElem?.mp stands, failed⟩
  · rintro ⟨stands, failed⟩
    exact ⟨(s.symbol, s.index), List.mem_zipIdx_iff_getElem?.mpr stands, rfl, failed⟩

/-- A strict compilation succeeds exactly if a lenient one, which always does, puts nothing aside,
and then with the same result. Otherwise it fails as the first symbol put aside does by itself. -/
theorem strict_agrees_with_lenient (t : Text) :
    ∃ r, (compileProgression false t).outcome = .ok r ∧
      (∀ q, (compileProgression true t).outcome = .ok q ↔ r.skipped = [] ∧ q = r) ∧
      ∀ e, (compileProgression true t).outcome = .error e ↔
        ∃ s rest, r.skipped = s :: rest ∧ s.cause = e ∧ parseSymbol s.symbol = .error e := by
  have strict := outcome_compileFrom_strictly 0 (splitProgression t)
  refine ⟨_, outcome_compileProgression_false t, ?_⟩
  rw [compileProgression, strict, Compiled.strictly]
  cases aside : (siftedFrom 0 (splitProgression t)).skipped with
  | nil => simp [eq_comm]
  | cons s rest =>
    have first : s ∈ (siftedFrom 0 (splitProgression t)).skipped := by simp [aside]
    have failed := (mem_skipped_iff.mp first).2
    constructor
    · simp
    · intro e
      constructor
      · intro same
        cases same
        exact ⟨s, rest, rfl, rfl, failed⟩
      · rintro ⟨_, _, same, cause, -⟩
        cases same
        exact congrArg Except.error cause

/-- The members of a list but for those at some places. -/
def withoutPlaces (places : List Nat) (xs : List Text) : List Text :=
  (xs.zipIdx.filter fun p => p.2 ∉ places).map Prod.fst

def Compiled.places (r : Compiled) : List Nat := r.skipped.map Skipped.index

/-- Every symbol is either listed with its chord or put aside with its place and its fault. -/
structure Compiled.Accounts (xs : List Text) (r : Compiled) : Prop where
  parsed : List.Forall₂ Parses r.symbols r.chords
  ascending : r.places.Pairwise (· < ·)
  placed : ∀ s ∈ r.skipped,
    s.index < xs.length ∧ xs[s.index]? = some s.symbol ∧ parseSymbol s.symbol = .error s.cause
  kept : withoutPlaces r.places xs = r.symbols

theorem withoutPlaces_eq_filter {places : List Nat} {xs : List Text} {p : Text → Bool}
    (told : ∀ i x, xs[i]? = some x → (i ∈ places ↔ p x = false)) :
    withoutPlaces places xs = xs.filter p := by
  have same : xs.zipIdx.filter (fun q => q.2 ∉ places) = xs.zipIdx.filter (p ∘ Prod.fst) := by
    apply List.filter_congr
    rintro ⟨x, i⟩ stands
    have here := told i x (List.mem_zipIdx_iff_getElem?.mp stands)
    cases judged : p x <;> simp [here, judged]
  rw [withoutPlaces, same, ← List.filter_map, List.zipIdx_map_fst]

theorem mem_withoutPlaces {places : List Nat} {xs : List Text} {i : Nat} {x : Text}
    (stands : xs[i]? = some x) (other : i ∉ places) : x ∈ withoutPlaces places xs := by
  have member : (x, i) ∈ xs.zipIdx := List.mem_zipIdx_iff_getElem?.mpr stands
  exact List.mem_map.mpr ⟨(x, i), List.mem_filter.mpr ⟨member, by simpa using other⟩, rfl⟩

theorem isOk_eq_false {ε α : Type} {r : Except ε α} : r.isOk = false ↔ ∃ e, r = .error e := by
  cases r <;> simp [Except.isOk, Except.toBool]

theorem siftedFrom_accounts (xs : List Text) : (siftedFrom 0 xs).Accounts xs where
  parsed := compileFrom_sound (outcome_compileFrom_false 0 xs)
  ascending := by
    have counted : (xs.zipIdx.map Prod.snd).Pairwise (· < ·) := by
      rw [List.zipIdx_map_snd]
      exact List.pairwise_lt_range' 1
    apply List.pairwise_map.mpr
    refine List.Pairwise.filterMap skippedAt ?_ (List.pairwise_map.mp counted)
    intro p q before s aside s' aside'
    rw [(skippedAt_eq_some.mp aside).1, (skippedAt_eq_some.mp aside').1] at before
    exact before
  placed := by
    intro s aside
    obtain ⟨stands, failed⟩ := mem_skipped_iff.mp aside
    exact ⟨(List.getElem?_eq_some_iff.mp stands).1, stands, failed⟩
  kept := by
    apply withoutPlaces_eq_filter
    intro i x stands
    rw [isOk_eq_false]
    constructor
    · intro place
      obtain ⟨s, aside, rfl⟩ := List.mem_map.mp place
      obtain ⟨stands', failed⟩ := mem_skipped_iff.mp aside
      obtain rfl : s.symbol = x := Option.some.inj (stands'.symm.trans stands)
      exact ⟨s.cause, failed⟩
    · rintro ⟨e, failed⟩
      exact List.mem_map.mpr ⟨⟨i, x, e⟩, mem_skipped_iff.mpr ⟨stands, failed⟩, rfl⟩

namespace Compiled.Accounts

variable {xs : List Text} {r q : Compiled}

/-- Whatever fails is put aside, since it is not listed with a chord. -/
theorem aside_of_failed (account : r.Accounts xs) {s : Skipped}
    (stands : xs[s.index]? = some s.symbol) (failed : parseSymbol s.symbol = .error s.cause) :
    s ∈ r.skipped := by
  have place : s.index ∈ r.places := by
    by_contra other
    have listed := mem_withoutPlaces stands other
    rw [account.kept] at listed
    obtain ⟨c, -, parsed⟩ := exists_right_of_mem account.parsed s.symbol listed
    cases failed.symm.trans parsed
  obtain ⟨s', aside, samePlace⟩ := List.mem_map.mp place
  obtain ⟨-, stands', failed'⟩ := account.placed s' aside
  obtain ⟨i, x, e⟩ := s
  obtain ⟨j, y, d⟩ := s'
  cases samePlace
  cases stands'.symm.trans stands
  cases failed'.symm.trans failed
  exact aside

theorem mem_skipped_iff (account : r.Accounts xs) {s : Skipped} :
    s ∈ r.skipped ↔ xs[s.index]? = some s.symbol ∧ parseSymbol s.symbol = .error s.cause :=
  ⟨fun aside => (account.placed s aside).2,
    fun ⟨stands, failed⟩ => account.aside_of_failed stands failed⟩

theorem unique (first : r.Accounts xs) (second : q.Accounts xs) : r = q := by
  have antisymm : Std.Antisymm fun s s' : Skipped => s.index < s'.index :=
    ⟨fun s s' before after => absurd before (Nat.lt_asymm after)⟩
  have irrefl : Std.Irrefl fun s s' : Skipped => s.index < s'.index :=
    ⟨fun s => Nat.lt_irrefl s.index⟩
  have aside : r.skipped = q.skipped := by
    have order := List.pairwise_map.mp first.ascending
    have order' := List.pairwise_map.mp second.ascending
    apply order.eq_of_mem_iff order'
    intro s
    rw [first.mem_skipped_iff, second.mem_skipped_iff]
  have listed : r.symbols = q.symbols := by
    rw [← first.kept, ← second.kept, places, places, aside]
  have single : Relator.RightUnique Parses := fun s c d hc hd => Except.ok.inj (hc.symm.trans hd)
  have chords : r.chords = q.chords :=
    single.forall₂ first.parsed (listed ▸ second.parsed)
  obtain ⟨_, _, _⟩ := r
  cases chords
  cases listed
  cases aside
  rfl

end Compiled.Accounts

def Skipped.shifted (n : Nat) (s : Skipped) : Skipped := { s with index := n + s.index }

/-- The same result for symbols that stand `n` places further on. -/
def Compiled.shifted (n : Nat) (r : Compiled) : Compiled :=
  { r with skipped := r.skipped.map (Skipped.shifted n) }

theorem skippedAt_shifted (n : Nat) (p : Text × Nat) :
    skippedAt (p.1, n + p.2) = (skippedAt p).map (Skipped.shifted n) := by
  obtain ⟨x, i⟩ := p
  simp only [skippedAt]
  cases parseSymbol x <;> rfl

theorem siftedFrom_shifted (n : Nat) (xs : List Text) :
    siftedFrom n xs = (siftedFrom 0 xs).shifted n := by
  have aside : (xs.zipIdx n).filterMap skippedAt =
      (xs.zipIdx.filterMap skippedAt).map (Skipped.shifted n) := by
    rw [List.zipIdx_eq_map_add, List.filterMap_map, List.map_filterMap]
    apply List.filterMap_congr
    intro p _
    exact skippedAt_shifted n p
  simp only [siftedFrom, Compiled.shifted, aside]

theorem siftedFrom_append (xs ys : List Text) :
    siftedFrom 0 (xs ++ ys) = (siftedFrom 0 xs).append ((siftedFrom 0 ys).shifted xs.length) := by
  rw [← siftedFrom_shifted]
  simp [siftedFrom, Compiled.append, List.zipIdx_append]

theorem length_siftedFrom (i : Nat) (xs : List Text) :
    (siftedFrom i xs).chords.length + (siftedFrom i xs).skipped.length = xs.length := by
  induction xs generalizing i with
  | nil => rfl
  | cons x xs ih =>
    have rest := ih (i + 1)
    cases parsed : parseSymbol x with
    | ok c =>
      rw [siftedFrom_ok parsed]
      simp only [Compiled.withChord, List.length_cons]
      omega
    | error e =>
      rw [siftedFrom_error parsed]
      simp only [Compiled.withSkipped, List.length_cons]
      omega

/-- A lenient compilation always gives the one result that accounts for all symbols, and a text
on both sides of a comma gives the results of its sides in a row. -/
theorem lenient_accounts :
    (∀ t, ∃ r, (compileProgression false t).outcome = .ok r ∧
      (∀ q : Compiled, q.Accounts (splitProgression t) ↔ q = r) ∧
      r.chords.length + r.skipped.length = (splitProgression t).length) ∧
    ∀ a b, ∃ r s, (compileProgression false a).outcome = .ok r ∧
      (compileProgression false b).outcome = .ok s ∧
      (compileProgression false (a ++ ',' :: b)).outcome =
        .ok (r.append (s.shifted (splitProgression a).length)) := by
  constructor
  · intro t
    have account := siftedFrom_accounts (splitProgression t)
    refine ⟨_, outcome_compileProgression_false t, fun q => ?_, length_siftedFrom 0 _⟩
    constructor
    · intro other
      exact other.unique account
    · rintro rfl
      exact account
  · intro a b
    refine ⟨_, _, outcome_compileProgression_false a, outcome_compileProgression_false b, ?_⟩
    rw [outcome_compileProgression_false, splitProgression_append, siftedFrom_append]

-- The blank item has no place, so that the second bad symbol stands at the third.
example : (compileProgression false "x, ,1,9".toList).outcome.map Compiled.places =
    .ok [0, 2] := by
  decide

end ChordSymbols
