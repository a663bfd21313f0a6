import ChordSymbols.Proofs.Progression.Appending
import ChordSymbols.Proofs.Tool.Reply
import ChordSymbols.Tool.Progression

/-!
# Extending a progression

The tool that appends a symbol replies with the extended progression. Only the
new symbol has been looked at by then: the reply compiles strictly if the given
progression does, and otherwise it fails with the same fault.
-/

namespace ChordSymbols

section Answer

variable {progression symbol : Text}

theorem answer_appended {extended : Text}
    (appended : (appendSymbol progression symbol).outcome = .ok extended) :
    (appendChordReply (.text progression) (.text symbol)).answer =
      success [("progression", .text extended)] := by
  refine Run.answer_ok ?_
  show ((appendSymbol progression symbol).mapError faultRefusal >>= _).outcome = _
  rw [Run.outcome_bind, Run.outcome_mapError, appended]
  rfl

theorem answer_refused {e : SymbolError}
    (refused : (appendSymbol progression symbol).outcome = .error e) :
    (appendChordReply (.text progression) (.text symbol)).answer = (faultRefusal e).answer := by
  refine Run.answer_error ?_
  show ((appendSymbol progression symbol).mapError faultRefusal >>= _).outcome = _
  rw [Run.outcome_bind, Run.outcome_mapError, refused]
  rfl

/-- A reply of success holds the text that the appended symbol makes. -/
theorem appendChordReply_succeeds
    (succeeds : (appendChordReply (.text progression) (.text symbol)).Succeeds) :
    ∃ extended, (appendSymbol progression symbol).outcome = .ok extended ∧
      (appendChordReply (.text progression) (.text symbol)).answer.field? "progression" =
        some (.text extended) := by
  cases called : (appendSymbol progression symbol).outcome with
  | ok extended =>
    refine ⟨extended, rfl, ?_⟩
    rw [answer_appended called]
    rfl
  | error e => exact absurd succeeds (Reply.not_succeeds (answer_refused called))

end Answer

/-- The progression of a successful reply compiles strictly exactly when the given one does, and
each fault that ends the compilation of the one ends that of the other. -/
theorem extended_compiles_iff {progression symbol : Text}
    (succeeds : (appendChordReply (.text progression) (.text symbol)).Succeeds) :
    ∃ extended,
      (appendChordReply (.text progression) (.text symbol)).answer.field? "progression" =
        some (.text extended) ∧
      ((∃ r, (compileProgression true extended).outcome = .ok r) ↔
        ∃ r, (compileProgression true progression).outcome = .ok r) ∧
      ∀ e, (compileProgression true extended).outcome = .error e ↔
        (compileProgression true progression).outcome = .error e := by
  obtain ⟨extended, appended, returned⟩ := appendChordReply_succeeds succeeds
  obtain ⟨⟨c, parsed⟩, -⟩ := appendSymbol_eq_ok.mp appended
  have more := compileProgression_append true (split_appendSymbol appended) (.cons parsed .nil)
  refine ⟨extended, returned, ?_⟩
  rw [more]
  cases (compileProgression true progression).outcome with
  | ok r => simp [Except.map]
  | error e => simp [Except.map]

theorem extended_compiles_iff_tidied :
    (appendChordReply (.text [' ', '4', ',', ',']) (.text ['1', ' '])).Succeeds ∧
      ∃ r, (compileProgression true ['4', ',', '1']).outcome = .ok r := by
  have succeeds : (appendChordReply (.text [' ', '4', ',', ',']) (.text ['1', ' '])).Succeeds := rfl
  obtain ⟨extended, returned, compiles, -⟩ := extended_compiles_iff succeeds
  cases returned
  exact ⟨succeeds, compiles.mpr ⟨_, rfl⟩⟩

/-- A successful reply whose progression does not compile: the symbol that was there is bad. -/
theorem extended_keeps_bad_symbol :
    (appendChordReply (.text ['9']) (.text ['1'])).answer =
        success [("progression", .text ['9', ',', '1'])] ∧
      (compileProgression true ['9', ',', '1']).outcome = .error (.unresolved .numeral ['9']) :=
  ⟨rfl, rfl⟩

end ChordSymbols
