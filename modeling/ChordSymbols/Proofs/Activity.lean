import ChordSymbols.Journal
import ChordSymbols.Proofs.Outcome

/-!
# What is known of an activity

An activity leaves records and ends in a result or in a failure. A law for its
results, one for its failures, and that none of its records is an error, pass
from the parts of an activity to the whole.
-/

namespace ChordSymbols

/-- An activity that writes no errors, with a law for its results and one for its failures. -/
structure Run.Ends {ε α : Type} (x : Run ε α) (P : α → Prop) (E : ε → Prop) : Prop where
  quiet : ∀ r ∈ x.records, r.level ≠ .error
  done : ∀ a, x.outcome = .ok a → P a
  failed : ∀ e, x.outcome = .error e → E e

namespace Run.Ends

variable {ε δ α β : Type} {P : α → Prop} {Q : β → Prop} {E : ε → Prop} {F : δ → Prop}

theorem of {x : Except ε α} (done : ∀ a, x = .ok a → P a) (failed : ∀ e, x = .error e → E e) :
    (Run.of x).Ends P E :=
  ⟨fun _ none => (nomatch none), done, failed⟩

/-- Of an outcome at hand nothing need be known. -/
theorem any (x : Except ε α) : (Run.of x).Ends (fun _ => True) (fun _ => True) :=
  .of (fun _ _ => trivial) fun _ _ => trivial

theorem pure {a : α} (holds : P a) : (Pure.pure a : Run ε α).Ends P E := by
  refine .of (fun b same => ?_) (fun e same => ?_)
  · cases same
    exact holds
  · cases same

theorem fail {e : ε} (holds : E e) : (Run.fail e : Run ε α).Ends P E := by
  refine .of (fun b same => ?_) (fun d same => ?_)
  · cases same
  · cases same
    exact holds

theorem note {level : Level} (source : Source) (message : String) (mild : level ≠ .error) :
    (Run.note level source message : Run ε Unit).Ends (fun _ => True) E := by
  refine ⟨fun r written => ?_, fun _ _ => trivial, fun e same => ?_⟩
  · rw [List.mem_singleton.mp written]
    exact mild
  · cases same

theorem bind {x : Run ε α} {f : α → Run ε β} (first : x.Ends P E)
    (rest : ∀ a, P a → (f a).Ends Q E) : (x >>= f).Ends Q E := by
  cases ended : x.outcome with
  | ok a =>
    have later := rest a (first.done a ended)
    refine ⟨fun r written => ?_, fun b same => ?_, fun e same => ?_⟩
    · rw [Run.records_bind, ended] at written
      rcases List.mem_append.mp written with early | late
      · exact first.quiet r early
      · exact later.quiet r late
    · rw [Run.outcome_bind, ended] at same
      exact later.done b same
    · rw [Run.outcome_bind, ended] at same
      exact later.failed e same
  | error d =>
    refine ⟨fun r written => ?_, fun b same => ?_, fun e same => ?_⟩
    · rw [Run.records_bind, ended] at written
      rcases List.mem_append.mp written with early | late
      · exact first.quiet r early
      · exact nomatch late
    · rw [Run.outcome_bind, ended] at same
      cases same
    · rw [Run.outcome_bind, ended] at same
      cases same
      exact first.failed d ended

theorem mapError {x : Run ε α} {f : ε → δ} (first : x.Ends P E) (turned : ∀ e, E e → F (f e)) :
    (x.mapError f).Ends P F := by
  refine ⟨first.quiet, fun a same => first.done a (mapError_eq_ok.mp same), fun d same => ?_⟩
  obtain ⟨e, refused, rfl⟩ := mapError_eq_error.mp same
  exact turned e (first.failed e refused)

theorem settle {x : Run ε α} (first : x.Ends P E) :
    (x.settle : Run δ (Except ε α)).Ends (fun _ => True) F := by
  refine ⟨first.quiet, fun _ _ => trivial, fun e same => ?_⟩
  cases same

end Run.Ends

end ChordSymbols
