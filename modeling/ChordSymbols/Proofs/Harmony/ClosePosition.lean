import ChordSymbols.Proofs.Harmony.Voicing
import ChordSymbols.Proofs.Outcome
import Mathlib.Data.Int.ModEq
import Mathlib.Data.List.Chain
import Mathlib.Order.Bounds.Basic

/-!
# Close position

A list of notes over a base is in close position if its first note has its own
offset over the base and every further one is the lowest of its class above the
note before it. There is exactly one such list for given offsets, and moving the
base moves it as a whole.

The offsets of a chord are every second note of the major scale, read from some
step on and brought below the octave. In close position they are that stretch of
the scale itself, continued through the octaves: its intervals are thirds, and
its last note is less than an octave above its first.
-/

namespace ChordSymbols

/-- What it means for notes over a base to be in close position. -/
structure InClosePosition (base : Int) (offsets : List Nat) (notes : List Int) : Prop where
  count : notes.length = offsets.length
  first : notes.head? = offsets.head?.map fun o : Nat => base + o
  lowest : ∀ (i : Nat) (m n : Int) (o : Nat),
    notes[i]? = some m → notes[i + 1]? = some n → offsets[i + 1]? = some o →
      IsLeast {k : Int | m < k ∧ k ≡ base + o [ZMOD 12]} n

/-- A note no more than an octave too high is raised to the lowest one of its class. -/
theorem isLeast_raiseAbove {below note : Int} (near : note ≤ below + 12) :
    IsLeast {k : Int | below < k ∧ k ≡ note [ZMOD 12]} (raiseAbove below note) := by
  constructor
  · refine ⟨lt_raiseAbove below note, ?_⟩
    rw [Int.ModEq, raiseAbove]
    split <;> omega
  · rintro k ⟨above, same⟩
    rw [Int.ModEq] at same
    rw [raiseAbove]
    split <;> omega

section Stacking

variable {base below : Int} {os : List Nat} {notes : List Int}

theorem length_stack (base : Int) (below : Option Int) (os : List Nat) :
    (stack base below os).length = os.length := by
  induction os generalizing below with
  | nil => cases below <;> rfl
  | cons o os ih => cases below <;> simp [stack, ih]

/-- From a note on, every note of a stack is the lowest of its class above the one before it. -/
theorem stack_lowest (small : ∀ o ∈ os, o < 12) (above : base ≤ below) :
    ∀ (i : Nat) (m n : Int) (o : Nat), (below :: stack base (some below) os)[i]? = some m →
      (stack base (some below) os)[i]? = some n → os[i]? = some o →
        IsLeast {k : Int | m < k ∧ k ≡ base + o [ZMOD 12]} n := by
  -- The note below is another one after each offset: the note that was placed for it.
  induction os generalizing below with
  | nil => simp
  | cons p os ih =>
    have near : base + (p : Int) ≤ below + 12 := by
      have := small p List.mem_cons_self
      omega
    intro i m n o before here offset
    cases i with
    | zero =>
      cases before
      cases here
      cases offset
      exact isLeast_raiseAbove near
    | succ i =>
      have raised := lt_raiseAbove below (base + p)
      exact ih (fun q hq => small q (List.mem_cons_of_mem p hq)) (by omega) i m n o before here
        offset

theorem stack_inClosePosition (small : ∀ o ∈ os, o < 12) :
    InClosePosition base os (stack base none os) := by
  cases os with
  | nil => exact ⟨rfl, rfl, by simp [stack]⟩
  | cons o os =>
    refine ⟨length_stack base none (o :: os), rfl, fun i m n p before here offset => ?_⟩
    exact stack_lowest (fun q hq => small q (List.mem_cons_of_mem o hq)) (by omega) i m n p before
      here offset

/-- Offsets have one close position over a base. -/
theorem InClosePosition.unique {ms ns : List Int} (left : InClosePosition base os ms)
    (right : InClosePosition base os ns) : ms = ns := by
  apply List.ext_getElem?
  intro i
  induction i with
  | zero => rw [← List.head?_eq_getElem?, ← List.head?_eq_getElem?, left.first, right.first]
  | succ i ih =>
    by_cases inside : i + 1 < os.length
    · have hl : i + 1 < ms.length := by rw [left.count]; exact inside
      have hr : i + 1 < ns.length := by rw [right.count]; exact inside
      have before : ms[i]? = some ms[i] := List.getElem?_eq_getElem (by omega)
      have lowestLeft := left.lowest i _ _ _ before (List.getElem?_eq_getElem hl)
        (List.getElem?_eq_getElem inside)
      have lowestRight := right.lowest i _ _ _ (ih.symm.trans before) (List.getElem?_eq_getElem hr)
        (List.getElem?_eq_getElem inside)
      rw [List.getElem?_eq_getElem hl, List.getElem?_eq_getElem hr,
        lowestLeft.unique lowestRight]
    · rw [List.getElem?_eq_none (by rw [left.count]; omega),
        List.getElem?_eq_none (by rw [right.count]; omega)]

theorem inClosePosition_iff (small : ∀ o ∈ os, o < 12) :
    InClosePosition base os notes ↔ notes = stack base none os := by
  constructor
  · intro close
    exact close.unique (stack_inClosePosition small)
  · rintro rfl
    exact stack_inClosePosition small

theorem raiseAbove_add (below note shift : Int) :
    raiseAbove (shift + below) (shift + note) = shift + raiseAbove below note := by
  unfold raiseAbove
  split <;> split <;> omega

/-- Moving the base, and the note to stay above, moves a stack as a whole. -/
theorem stack_add (base shift : Int) (below : Option Int) (os : List Nat) :
    stack (shift + base) (below.map (shift + ·)) os = (stack base below os).map (shift + ·) := by
  induction os generalizing below with
  | nil => cases below <;> rfl
  | cons o os ih =>
    cases below with
    | none =>
      have rest := ih (some (base + o))
      rw [Option.map_some, ← Int.add_assoc] at rest
      rw [Option.map_none, stack, stack, List.map_cons, rest, Int.add_assoc]
    | some b =>
      have rest := ih (some (raiseAbove b (base + o)))
      rw [Option.map_some] at rest
      rw [Option.map_some, stack, stack, List.map_cons, Int.add_assoc, raiseAbove_add, rest]

end Stacking

/-- The semitones up the major scale to its step `k`, counted on from octave to octave. -/
def scaleNote (k : Nat) : Nat := majorSteps.getD (k % 7) 0 + 12 * (k / 7)

/-- The scale repeats itself an octave higher after seven steps. -/
theorem scaleNote_add (k i : Nat) : scaleNote (k + i) = scaleNote (k % 7 + i) + 12 * (k / 7) := by
  have whole := Nat.mod_add_div k 7
  have split : k + i = k % 7 + i + 7 * (k / 7) := by omega
  rw [split, scaleNote, scaleNote, Nat.add_mul_mod_self_left,
    Nat.add_mul_div_left _ _ (by decide)]
  omega

theorem scaleNote_mod (k : Nat) : scaleNote k % 12 = majorSteps.getD (k % 7) 0 := by
  have small : ∀ r < 7, majorSteps.getD r 0 < 12 := by decide
  have entry := small (k % 7) (Nat.mod_lt k (by decide))
  rw [scaleNote, Nat.add_mul_mod_self_left, Nat.mod_eq_of_lt entry]

/-- Two steps of the scale are a third, minor or major. -/
theorem scaleNote_third (k : Nat) :
    scaleNote (k + 2) = scaleNote k + 3 ∨ scaleNote (k + 2) = scaleNote k + 4 := by
  have octave : ∀ r < 7,
      scaleNote (r + 2) = scaleNote r + 3 ∨ scaleNote (r + 2) = scaleNote r + 4 := by decide
  have inside := octave (k % 7) (Nat.mod_lt k (by decide))
  have low : scaleNote k = scaleNote (k % 7) + 12 * (k / 7) := scaleNote_add k 0
  have high := scaleNote_add k 2
  omega

/-- Up to three thirds stay within a seventh. -/
theorem scaleNote_seventh (k : Nat) {j : Nat} (few : j < 4) :
    scaleNote (k + 2 * j) ≤ scaleNote k + 11 := by
  have octave : ∀ r < 7, ∀ j < 4, scaleNote (r + 2 * j) ≤ scaleNote r + 11 := by decide
  have inside := octave (k % 7) (Nat.mod_lt k (by decide)) j few
  have low : scaleNote k = scaleNote (k % 7) + 12 * (k / 7) := scaleNote_add k 0
  have high := scaleNote_add k (2 * j)
  omega

/-- So many notes of the scale, every second one from step `k` on. -/
def thirds (k : Nat) : Nat → List Nat
  | 0 => []
  | n + 1 => scaleNote k :: thirds (k + 2) n

theorem mem_thirds {k n x : Nat} : x ∈ thirds k n ↔ ∃ j < n, x = scaleNote (k + 2 * j) := by
  induction n generalizing k with
  | zero => simp [thirds]
  | succ n ih =>
    rw [thirds, List.mem_cons, ih]
    constructor
    · rintro (rfl | ⟨j, inside, rfl⟩)
      · exact ⟨0, by omega, rfl⟩
      · exact ⟨j + 1, by omega, by congr 1; omega⟩
    · rintro ⟨j, inside, rfl⟩
      cases j with
      | zero => exact .inl rfl
      | succ j => exact .inr ⟨j, by omega, by congr 1; omega⟩

theorem thirds_isChain (k n : Nat) :
    (thirds k n).IsChain fun m n => n = m + 3 ∨ n = m + 4 := by
  induction n generalizing k with
  | zero => exact .nil
  | succ n ih =>
    cases n with
    | zero => exact .singleton _
    | succ n => exact .cons_cons (scaleNote_third k) (ih (k + 2))

/-- Brought below the octave and stacked again, thirds over a note of the scale are back in
their places. -/
theorem stack_thirds (base : Int) (k n : Nat) :
    stack base (some (base + scaleNote k)) ((thirds (k + 2) n).map (· % 12)) =
      (thirds (k + 2) n).map fun x : Nat => base + x := by
  -- Every note is placed a third above the one before it, so the next starts from the scale again.
  induction n generalizing k with
  | zero => rfl
  | succ n ih =>
    have placed : raiseAbove (base + scaleNote k) (base + (scaleNote (k + 2) % 12 : Nat)) =
        base + scaleNote (k + 2) := by
      have interval := scaleNote_third k
      unfold raiseAbove
      split <;> omega
    rw [thirds, List.map_cons, stack, placed, ih, List.map_cons]

theorem Mode.step_eq (m : Mode) (i : Nat) : m.step i = scaleNote (i + m.rotation) % 12 := by
  have table : ∀ j < 7, m.steps.getD j 0 = majorSteps.getD ((j + m.rotation) % 7) 0 := by
    cases m <;> decide
  rw [step, table _ (Nat.mod_lt i (by decide)), scaleNote_mod, Nat.mod_add_mod]

namespace Chord

variable {c : Chord} {tonic : PitchClass} {octave : Int} {notes : List Int}

/-- The step of the major scale that a chord starts on. -/
def rootStep (c : Chord) : Nat := (c.degree.root + c.mode.rotation) % 7

theorem sounding_cases (c : Chord) : c.sounding = [0, 2, 4] ∨ c.sounding = [0, 2, 4, 6] := by
  rw [sounding]
  cases c.figure with
  | none => exact .inl rfl
  | some f => cases f <;> simp [triad, Figure.addedStep?]

/-- A chord is a triad or a seventh chord: thirds from its root on, below the octave. -/
theorem offsets_eq_thirds (c : Chord) :
    c.offsets = (thirds c.rootStep c.sounding.length).map (· % 12) := by
  have read : ∀ i, c.mode.step (i + c.degree.root) = scaleNote (c.rootStep + i) % 12 := by
    intro i
    rw [Mode.step_eq, scaleNote_mod, scaleNote_mod, rootStep, Nat.mod_add_mod]
    congr 2
    omega
  rw [offsets, List.map_congr_left fun i _ => read i]
  rcases c.sounding_cases with three | four
  · rw [three]
    rfl
  · rw [four]
    rfl

theorem length_sounding (c : Chord) : ∃ n < 4, c.sounding.length = n + 1 := by
  rcases c.sounding_cases with three | four
  · exact ⟨2, by decide, by rw [three]; rfl⟩
  · exact ⟨3, by decide, by rw [four]; rfl⟩

/-- In close position a chord is a stretch of the scale in thirds. -/
theorem closePosition_eq_thirds (c : Chord) (tonic : PitchClass) (octave : Int) :
    c.closePosition tonic octave =
      (thirds c.rootStep c.sounding.length).map fun x : Nat => tonic.noteNumber octave + x := by
  obtain ⟨n, -, size⟩ := c.length_sounding
  have lowest : ∀ r < 7, scaleNote r % 12 = scaleNote r := by decide
  have root := lowest c.rootStep (Nat.mod_lt _ (by decide))
  rw [closePosition, offsets_eq_thirds, size, thirds, List.map_cons, root, stack, stack_thirds,
    List.map_cons]

theorem closePosition_isChain (c : Chord) (tonic : PitchClass) (octave : Int) :
    (c.closePosition tonic octave).IsChain fun m n => n = m + 3 ∨ n = m + 4 := by
  rw [closePosition_eq_thirds]
  refine List.isChain_map_of_isChain _ (fun m n third => ?_) (thirds_isChain _ _)
  omega

/-- All of a chord lies within eleven semitones of its first note. -/
theorem closePosition_span (c : Chord) (tonic : PitchClass) (octave : Int) :
    ∀ low ∈ (c.closePosition tonic octave).head?, ∀ high ∈ c.closePosition tonic octave,
      high ≤ low + 11 := by
  obtain ⟨n, few, size⟩ := c.length_sounding
  have root : (c.closePosition tonic octave).head? =
      some (tonic.noteNumber octave + scaleNote c.rootStep) := by
    rw [closePosition_eq_thirds, size]
    rfl
  intro low first high member
  rw [root] at first
  cases first
  rw [closePosition_eq_thirds] at member
  obtain ⟨x, third, rfl⟩ := List.mem_map.mp member
  obtain ⟨j, inside, rfl⟩ := mem_thirds.mp third
  have near : scaleNote (c.rootStep + 2 * j) ≤ scaleNote c.rootStep + 11 :=
    scaleNote_seventh c.rootStep (by omega)
  omega

/-- The notes of a chord are of its pitch classes, in order. -/
theorem closePosition_classes (c : Chord) (tonic : PitchClass) (octave : Int) :
    (c.closePosition tonic octave).map (· % 12) =
      (c.pitchClasses tonic).map fun p : PitchClass => (p.val : Int) := by
  rw [closePosition_eq_thirds, pitchClasses, offsets_eq_thirds, List.map_map, List.map_map,
    List.map_map]
  apply List.map_congr_left
  intro x _
  simp only [Function.comp, PitchClass.transpose, PitchClass.noteNumber]
  omega

/-- In another key or octave all notes of a chord are as far away as the tonics are. -/
theorem closePosition_transposed (c : Chord) (tonic other : PitchClass) (octave next : Int) :
    c.closePosition other next =
      (c.closePosition tonic octave).map
        (other.noteNumber next - tonic.noteNumber octave + ·) := by
  have moved := stack_add (tonic.noteNumber octave)
    (other.noteNumber next - tonic.noteNumber octave) none c.offsets
  rw [Int.sub_add_cancel] at moved
  exact moved

/-- A chord is not voiced for the first of its notes that is out of range. -/
theorem voicing_eq_error {e : NoteError} :
    c.voicing tonic octave = .error e ↔
      e.octave = octave ∧ ∃ low high, c.closePosition tonic octave = low ++ e.note :: high ∧
        (∀ n ∈ low, 0 ≤ n ∧ n ≤ 127) ∧ ¬(0 ≤ e.note ∧ e.note ≤ 127) := by
  have found : c.voicing tonic octave = .error e ↔
      e.octave = octave ∧ (c.closePosition tonic octave).find? (!isNote ·) = some e.note := by
    rw [voicing]
    cases (c.closePosition tonic octave).find? (!isNote ·) with
    | none => simp
    | some n =>
      cases e
      simp [eq_comm, and_comm]
  rw [found, List.find?_eq_some_iff_append]
  simp only [isNote, Bool.not_not, Bool.not_eq_true', decide_eq_true_eq, decide_eq_false_iff_not]
  constructor
  · rintro ⟨same, outside, low, high, cut, inside⟩
    exact ⟨same, low, high, cut, inside, outside⟩
  · rintro ⟨same, low, high, cut, inside, outside⟩
    exact ⟨same, outside, low, high, cut, inside⟩

theorem voicing_fails_iff :
    (∃ e, c.voicing tonic octave = .error e) ↔
      ∃ n ∈ c.closePosition tonic octave, n < 0 ∨ 127 < n := by
  rw [← not_ok_iff_error]
  constructor
  · intro refused
    by_contra none
    refine refused _ (voicing_eq_ok.mpr ⟨rfl, fun n member => ?_⟩)
    have inside : ¬(n < 0 ∨ 127 < n) := fun outside => none ⟨n, member, outside⟩
    omega
  · rintro ⟨n, member, outside⟩ notes voiced
    obtain ⟨rfl, inside⟩ := voicing_eq_ok.mp voiced
    have range := inside n member
    omega

/-- The one list in close position over the tonic is the voicing of a chord, unless some note of it
is out of range, and then the chord is refused for the first such note. In any case the list ascends
in thirds, stays within a seventh, and goes through the pitch classes of the chord. -/
theorem voicing_in_close_position (c : Chord) (tonic : PitchClass) (octave : Int) :
    ∃ notes : List Int,
      (∀ ms, InClosePosition (tonic.noteNumber octave) c.offsets ms ↔ ms = notes) ∧
      ((∃ e, c.voicing tonic octave = .error e) ↔ ∃ n ∈ notes, n < 0 ∨ 127 < n) ∧
      (∀ e, c.voicing tonic octave = .error e ↔
        e.octave = octave ∧ ∃ low high, notes = low ++ e.note :: high ∧
          (∀ n ∈ low, 0 ≤ n ∧ n ≤ 127) ∧ ¬(0 ≤ e.note ∧ e.note ≤ 127)) ∧
      (∀ ms, c.voicing tonic octave = .ok ms ↔ ms = notes ∧ ∀ n ∈ notes, 0 ≤ n ∧ n ≤ 127) ∧
      notes.Pairwise (· < ·) ∧
      (notes.IsChain fun m n => n = m + 3 ∨ n = m + 4) ∧
      (∀ m ∈ notes.head?, ∀ n ∈ notes.getLast?, n - m ≤ 11) ∧
      notes.map (· % 12) = (c.pitchClasses tonic).map fun p : PitchClass => (p.val : Int) := by
  refine ⟨c.closePosition tonic octave, fun ms => inClosePosition_iff c.offsets_lt,
    voicing_fails_iff, fun e => voicing_eq_error, fun ms => ?_, stack_ascends,
    c.closePosition_isChain tonic octave, ?_, c.closePosition_classes tonic octave⟩
  · rw [voicing_eq_ok]
    constructor
    · rintro ⟨rfl, inside⟩
      exact ⟨rfl, inside⟩
    · rintro ⟨rfl, inside⟩
      exact ⟨rfl, inside⟩
  · intro m first n last
    have near := c.closePosition_span tonic octave m first n (List.mem_of_mem_getLast? last)
    omega

end Chord

end ChordSymbols
