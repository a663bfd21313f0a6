import ChordSymbols.Proofs.Symbol.Parsing
import ChordSymbols.Proofs.Symbol.Verdict
import ChordSymbols.Proofs.Tool.ChordNotes

/-!
# Faults that the tools for a symbol share

The tools for tokens, for a chord and for its notes read a symbol further and
further. A fault is answered in the same words by the tool that comes upon it
first and by those that read on, in any key. What scanning finds and what parsing
finds are faults of different kinds, and a symbol that parses gives no cause
for an answer with a kind of fault in it.
-/

namespace ChordSymbols

/-- The kinds of faults of a symbol that has been scanned. -/
def parsingKinds : List String :=
  ["InvalidTokenCountError", "UnexpectedTokenPatternError", "UnresolvedCodeError"]

theorem kindName_mem_parsingKinds {ts : List Token} {e : SymbolError}
    (failed : parseTokens ts = .error e) : e.kindName ∈ parsingKinds := by
  rcases parseTokens_cases ts with ⟨-, ended⟩ | ⟨-, -, ended⟩ | ⟨-, v, code, -, ended⟩ |
    ⟨-, -, c, ended⟩ <;> cases failed.symm.trans ended
  · exact .head _
  · exact .tail _ (.head _)
  · exact .tail _ (.tail _ (.head _))

/-- A reply that ends as one stage of reading a symbol does. -/
structure Reply.Follows {α : Type} (reply : Reply) (symbol : Text)
    (stage : Except SymbolError α) : Prop where
  refused : ∀ e, stage = .error e → reply.answer = (symbolRefusal symbol e).answer
  done : ∀ a, stage = .ok a → reply.Succeeds

namespace Reply.Follows

variable {α : Type} {reply : Reply} {symbol : Text} {stage : Except SymbolError α}

theorem fails_iff (follows : reply.Follows symbol stage) :
    reply.Fails ↔ ∃ e, stage = .error e := by
  constructor
  · intro fails
    cases ended : stage with
    | error e => exact ⟨e, rfl⟩
    | ok a => exact absurd (follows.done a ended) fails.not_succeeds
  · rintro ⟨e, failed⟩
    exact Reply.fails_of_refused (follows.refused e failed)

theorem succeeds_iff (follows : reply.Follows symbol stage) :
    reply.Succeeds ↔ ∃ a, stage = .ok a := by
  constructor
  · intro succeeds
    cases ended : stage with
    | error e => exact absurd succeeds (Reply.not_succeeds (follows.refused e ended))
    | ok a => exact ⟨a, rfl⟩
  · rintro ⟨a, done⟩
    exact follows.done a done

end Reply.Follows

section Stages

variable {symbol tonic : Text} {octave : Int}

/-- An activity that shows what a stage gives, and refuses as the stage fails. -/
theorem Run.reply_follows {α : Type} {source : Source} {title : String} (x : Run SymbolError α)
    (fields : α → List (String × Value)) :
    (Run.reply source title (x.mapError (symbolRefusal symbol) >>= fun a =>
      pure (success (fields a)))).Follows symbol x.outcome := by
  constructor
  · intro e failed
    rw [Run.answer_eq, Run.outcome_bind, Run.outcome_mapError, failed]
    rfl
  · intro a ended
    apply Reply.succeeds_of_success
    rw [Run.answer_eq, Run.outcome_bind, Run.outcome_mapError, ended]
    rfl

theorem tokenizeReply_follows (symbol : Text) :
    (tokenizeReply (.text symbol)).Follows symbol (tokenize symbol) := by
  rw [← outcome_tokenizeRecorded]
  exact Run.reply_follows (tokenizeRecorded symbol) _

theorem parseChordReply_follows (symbol : Text) :
    (parseChordReply (.text symbol)).Follows symbol (parseSymbol symbol) := by
  rw [← outcome_compileSymbol]
  exact Run.reply_follows (compileSymbol symbol) _

theorem chordNotes_refused {e : SymbolError} (failed : parseSymbol symbol = .error e) :
    (chordNotesReply (.text symbol) (.text tonic) octave).answer =
      (symbolRefusal symbol e).answer := by
  rw [chordNotes_answer, failed]

/-- A tonic or an octave that will not do is refused without a kind of fault. -/
theorem chordNotes_untyped {c : Chord} (parsed : parseSymbol symbol = .ok c) :
    (chordNotesReply (.text symbol) (.text tonic) octave).answer.field? "error_type" = none := by
  rw [chordNotes_answer, parsed]
  cases PitchClass.parse tonic with
  | error e => rfl
  | ok root =>
    dsimp only
    cases c.voicing root octave with
    | error e => rfl
    | ok notes => rfl

end Stages

/-- The tools for tokens and for a chord fail exactly if scanning and parsing do. If the one for
tokens fails, the other two answer with the same text. If only that for a chord does, it is for the
number of tokens, their pattern, or a code, and the tool for the notes answers with the same text in
every key. For a symbol with a chord no answer about its notes has a kind of fault. -/
theorem symbol_tools_agree (symbol : Text) :
    ((tokenizeReply (.text symbol)).Fails ↔ ∃ e, tokenize symbol = .error e) ∧
    ((parseChordReply (.text symbol)).Fails ↔ ∃ e, parseSymbol symbol = .error e) ∧
    ((tokenizeReply (.text symbol)).Fails →
      (parseChordReply (.text symbol)).text = (tokenizeReply (.text symbol)).text ∧
      ∀ tonic octave, (chordNotesReply (.text symbol) (.text tonic) octave).text =
        (tokenizeReply (.text symbol)).text) ∧
    ((tokenizeReply (.text symbol)).Succeeds → (parseChordReply (.text symbol)).Fails →
      (∃ kind ∈ parsingKinds,
        (parseChordReply (.text symbol)).answer.field? "error_type" = some (.ofString kind)) ∧
      ∀ tonic octave, (chordNotesReply (.text symbol) (.text tonic) octave).text =
        (parseChordReply (.text symbol)).text) ∧
    ((parseChordReply (.text symbol)).Succeeds → ∀ tonic octave,
      (chordNotesReply (.text symbol) (.text tonic) octave).answer.field? "error_type" = none) := by
  have tokens := tokenizeReply_follows symbol
  have chord := parseChordReply_follows symbol
  refine ⟨tokens.fails_iff, chord.fails_iff, fun fails => ?_, fun succeeds fails => ?_,
    fun succeeds tonic octave => ?_⟩
  · obtain ⟨e, unread⟩ := tokens.fails_iff.mp fails
    have failed := parseSymbol_of_unread unread
    simp only [Reply.text, tokens.refused e unread, chord.refused e failed,
      chordNotes_refused failed, implies_true, and_self]
  · obtain ⟨ts, read⟩ := tokens.succeeds_iff.mp succeeds
    obtain ⟨e, failed⟩ := chord.fails_iff.mp fails
    have unparsed : parseTokens ts = .error e := by
      rw [parseSymbol, read] at failed
      exact failed
    have refused := chord.refused e failed
    refine ⟨⟨e.kindName, kindName_mem_parsingKinds unparsed, ?_⟩, fun tonic octave => ?_⟩
    · rw [refused]
      rfl
    · rw [Reply.text, Reply.text, refused, chordNotes_refused failed]
  · obtain ⟨c, parsed⟩ := chord.succeeds_iff.mp succeeds
    exact chordNotes_untyped parsed

/-- A foreign sign, an unknown code, and a chord out of range, each of them in a key that will not
do. -/
theorem symbol_tools_agree_three_stages :
    (chordNotesReply (.text ['1', '?']) (.text ['H']) 99).text =
        (tokenizeReply (.text ['1', '?'])).text ∧
      ((∃ kind ∈ parsingKinds,
          (parseChordReply (.text ['9'])).answer.field? "error_type" = some (.ofString kind)) ∧
        (chordNotesReply (.text ['9']) (.text ['H']) 99).text =
          (parseChordReply (.text ['9'])).text) ∧
      (chordNotesReply (.text ['1']) (.text ['C']) 99).answer.field? "error_type" = none := by
  obtain ⟨-, -, unread, -, -⟩ := symbol_tools_agree ['1', '?']
  obtain ⟨-, -, -, unparsed, -⟩ := symbol_tools_agree ['9']
  obtain ⟨-, -, -, -, parsed⟩ := symbol_tools_agree ['1']
  have noCode := unparsed rfl rfl
  exact ⟨(unread rfl).2 _ _, ⟨noCode.1, noCode.2 _ _⟩, parsed rfl _ _⟩

end ChordSymbols
