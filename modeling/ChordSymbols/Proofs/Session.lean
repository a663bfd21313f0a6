import ChordSymbols.Proofs.Tool.Exporting
import ChordSymbols.Session

/-!
# Steps and runs of a session

A step is about one part of the state or none, and leaves all others as they are;
one that fails leaves them all. So a run is the moves of its steps, each from the
state that those before it lead to: failed steps can be left out, a part that no
step is about never changes, and no file does that no export is named for.
-/

namespace ChordSymbols

inductive Part where
  | text | tonic | octave | compiled | events | disk | folder
deriving DecidableEq, Repr

def Request.exports : Request → Bool
  | .exportMidi .. => true
  | _ => false

/-- The part of the state that a step is about, if there is one. -/
def Step.part? : Step → Option Part
  | .set _ | .append _ | .canonical => some .text
  | .compile _ | .merge _ _ | .push _ => some .compiled
  | .tonic _ | .transpose _ => some .tonic
  | .octave _ => some .octave
  | .events .. | .addEvent _ | .clear => some .events
  | .request r => if r.exports then some .disk else none
  | .split | .notes | .midi .. | .document .. => none

/-- The path that a request writes to, if it comes to that. -/
def Request.target? (folder : Text) : Request → Option Path
  | .exportMidi _ _ _ _ (.text title) => some (exportPath (Path.ofText folder) title)
  | _ => none

theorem Request.run_reads {r : Request} (reads : r.exports = false) (disk : Disk) (folder : Text) :
    (r.run disk folder).2 = disk := by
  cases r with
  | exportMidi progression tonic tempo beats name => cases reads
  | _ => rfl

/-- A request leaves all files as they were but the one that it is to write. -/
theorem Request.run_elsewhere (r : Request) (disk : Disk) (folder : Text) :
    (r.run disk folder).2.here = disk.here ∧
      ∀ q, (∀ p, r.target? folder = some p → q ≠ p.place disk.here) →
        (r.run disk folder).2.file? q = disk.file? q := by
  by_cases writes : r.exports = true
  · cases r with
    | exportMidi progression tonic tempo beats name =>
      obtain ⟨here, kept⟩ := exportMidiReply_elsewhere (Path.ofText folder) progression tonic
        tempo beats name disk
      refine ⟨here, fun q other => kept q fun title named => ?_⟩
      rw [named] at other
      exact other _ rfl
    | _ => cases writes
  · rw [run_reads (Bool.eq_false_iff.mpr writes)]
    exact ⟨rfl, fun q _ => rfl⟩

namespace Session

variable {s t next : Session} {st : Step} {answer : StepAnswer}

/-- A part is the same in two states. -/
def Same (p : Part) (s t : Session) : Prop :=
  match p with
  | .text => t.text = s.text
  | .tonic => t.tonic = s.tonic
  | .octave => t.octave = s.octave
  | .compiled => t.compiled = s.compiled
  | .events => t.events = s.events
  | .disk => t.disk = s.disk
  | .folder => t.folder = s.folder

theorem Same.refl (p : Part) (s : Session) : Same p s s := by
  cases p <;> exact rfl

theorem Same.trans {p : Part} {a b c : Session} (first : Same p a b) (second : Same p b c) :
    Same p a c := by
  cases p <;> exact Eq.trans second first

/-- A state with one part, or none, of another. -/
def taking (s : Session) (q : Option Part) (t : Session) : Session :=
  match q with
  | none => s
  | some .text => { s with text := t.text }
  | some .tonic => { s with tonic := t.tonic }
  | some .octave => { s with octave := t.octave }
  | some .compiled => { s with compiled := t.compiled }
  | some .events => { s with events := t.events }
  | some .disk => { s with disk := t.disk }
  | some .folder => { s with folder := t.folder }

theorem same_taking {p : Part} {q : Option Part} (other : q ≠ some p) (s t : Session) :
    Same p s (s.taking q t) := by
  cases q with
  | none => exact .refl p s
  | some q =>
    have apart : q ≠ p := fun same => other (congrArg some same)
    cases q <;> cases p <;> first | exact rfl | exact absurd rfl apart

/-- What a step leads to differs in the part that the step is about, and nowhere else. -/
theorem step_takes (stepped : (s.step st).outcome = .ok (answer, next)) :
    s.taking st.part? next = next := by
  cases st with
  | set | split | transpose | octave | notes | clear =>
    cases stepped
    rfl
  | append | compile | merge | push | canonical | tonic | events | addEvent | midi | document =>
    rw [step, Run.outcome_bind] at stepped
    obtain ⟨made, -, same⟩ := bind_eq_ok.mp stepped
    cases same
    rfl
  | request r =>
    have ends : next = { s with disk := (r.run s.disk s.folder).2 } := by
      cases stepped
      rfl
    rw [ends, Step.part?]
    by_cases writes : r.exports = true
    · rw [if_pos writes]
      rfl
    · rw [if_neg writes, Request.run_reads (Bool.eq_false_iff.mpr writes)]
      rfl

theorem step_same {p : Part} (stepped : (s.step st).outcome = .ok (answer, next))
    (other : st.part? ≠ some p) : Same p s next := by
  rw [← step_takes stepped]
  exact same_taking other s next

/-- A step that fails leaves the state as it was. -/
theorem move_failed {e : Failure} (failed : (s.move st).1 = .error e) :
    s.move st = (.error e, s) := by
  rw [move] at failed ⊢
  cases came : (s.step st).outcome with
  | ok ended =>
    rw [came] at failed
    cases failed
  | error cause =>
    rw [came] at failed
    cases failed
    rfl

theorem move_same {p : Part} (other : st.part? ≠ some p) : Same p s (s.move st).2 := by
  rw [move]
  cases came : (s.step st).outcome with
  | ok ended => exact step_same came other
  | error cause => exact .refl p s

/-- A step changes no file but the one that it is to write, and none in another folder. -/
theorem move_elsewhere (s : Session) (st : Step) :
    (s.move st).2.disk.here = s.disk.here ∧
      ∀ q, (∀ r p, st = .request r → r.target? s.folder = some p → q ≠ p.place s.disk.here) →
        (s.move st).2.disk.file? q = s.disk.file? q := by
  by_cases about : st.part? = some .disk
  · cases st with
    | request r =>
      obtain ⟨here, kept⟩ := r.run_elsewhere s.disk s.folder
      exact ⟨here, fun q other => kept q fun p => other r p rfl⟩
    | _ => cases about
  · have same : (s.move st).2.disk = s.disk := move_same about
    rw [same]
    exact ⟨rfl, fun q _ => rfl⟩

/-- The state after some steps. -/
def after (s : Session) (steps : List Step) : Session :=
  steps.foldl (fun s st => (s.move st).2) s

theorem after_append (s : Session) (xs ys : List Step) :
    s.after (xs ++ ys) = (s.after xs).after ys :=
  List.foldl_append

/-- What holds at the start and is kept by every step that succeeds holds after every run. -/
theorem after_invariant {P : Session → Prop}
    (kept : ∀ s st answer next, P s → (s.step st).outcome = .ok (answer, next) → P next)
    (start : P s) (steps : List Step) : P (s.after steps) := by
  induction steps generalizing s with
  | nil => exact start
  | cons st steps ih =>
    apply ih
    show P (s.move st).2
    rw [move]
    cases came : (s.step st).outcome with
    | ok ended => exact kept s st ended.1 ended.2 start came
    | error cause => exact start

/-- A part that no step is about stays as it is. -/
theorem after_same {p : Part} {steps : List Step} (other : ∀ st ∈ steps, st.part? ≠ some p) :
    Same p s (s.after steps) := by
  induction steps generalizing s with
  | nil => exact .refl p s
  | cons st steps ih =>
    obtain ⟨first, rest⟩ := List.forall_mem_cons.mp other
    exact (move_same first).trans (ih rest)

/-- The folder for exports is the same in a whole run. -/
theorem after_folder (s : Session) (steps : List Step) : (s.after steps).folder = s.folder := by
  refine after_same (p := .folder) fun st _ about => ?_
  cases st with
  | request r =>
    rw [Step.part?] at about
    split at about <;> cases about
  | _ => cases about

/-- A file that no export of a run is named for stays as it is. -/
theorem after_elsewhere {steps : List Step} {q : Place}
    (other : ∀ r p, .request r ∈ steps → r.target? s.folder = some p → q ≠ p.place s.disk.here) :
    (s.after steps).disk.file? q = s.disk.file? q := by
  induction steps generalizing s with
  | nil => rfl
  | cons st steps ih =>
    obtain ⟨here, kept⟩ := s.move_elsewhere st
    have folder : (s.move st).2.folder = s.folder := s.after_folder [st]
    have first : (s.move st).2.disk.file? q = s.disk.file? q :=
      kept q fun r p same => other r p (same ▸ List.mem_cons_self)
    rw [← first]
    apply ih
    intro r p later
    rw [folder, here]
    exact other r p (List.mem_cons_of_mem st later)

/-- A step that fails can be left out of a run. -/
theorem after_without_failed {e : Failure} {xs : List Step}
    (failed : ((s.after xs).move st).1 = .error e) (ys : List Step) :
    s.after (xs ++ st :: ys) = s.after (xs ++ ys) := by
  rw [after_append, after_append, after, List.foldl_cons, move_failed failed]
  rfl

theorem play_append (s : Session) (xs ys : List Step) :
    s.play (xs ++ ys) =
      ((s.play xs).1 ++ ((s.after xs).play ys).1, (s.play xs).2 ++ ((s.after xs).play ys).2) := by
  induction xs generalizing s with
  | nil => rfl
  | cons st xs ih =>
    rw [List.cons_append, play, play]
    dsimp only
    rw [ih, List.append_assoc]
    rfl

/-- Every step of a run is a move from the state that the steps before it lead to. -/
theorem play_getElem? (s : Session) (steps : List Step) (i : Nat) :
    (s.play steps).2[i]? = steps[i]?.map fun st => (s.after (steps.take i)).move st := by
  induction steps generalizing s i with
  | nil => rfl
  | cons st steps ih =>
    cases i with
    | zero => rfl
    | succ i => exact ih (s.move st).2 i

theorem length_play (s : Session) (steps : List Step) :
    (s.play steps).2.length = steps.length := by
  induction steps generalizing s with
  | nil => rfl
  | cons st steps ih => exact congrArg (· + 1) (ih (s.move st).2)

end Session

end ChordSymbols
