import ChordSymbols.Proofs.Activity
import ChordSymbols.Proofs.Harmony.Naming
import ChordSymbols.Proofs.Harmony.Voicing
import ChordSymbols.Proofs.Tool.Reply
import ChordSymbols.Tool.Progression
import ChordSymbols.Tool.Symbol

/-!
# Ends that a tool foresees

A tool that is refused for a reason it does not foresee writes an error to the
journal. Given texts, no tool for symbols or progressions does so: each part of
it succeeds or fails in a way that the tool has an answer for. What is refused
for the sake of a symbol is always answered with the kind of its fault.
-/

namespace ChordSymbols

theorem tokenizeRecorded_ends (symbol : Text) :
    (tokenizeRecorded symbol).Ends (fun _ => True) (fun _ => True) := by
  refine .bind (.any (tokenize symbol)) fun ts _ => ?_
  exact .bind (.note .scanner _ (by decide)) fun _ _ => .pure trivial

theorem compileSymbol_ends (symbol : Text) :
    (compileSymbol symbol).Ends (fun _ => True) (fun _ => True) := by
  refine .bind (tokenizeRecorded_ends symbol) fun ts _ => ?_
  refine .bind (.any (parseTokens ts)) fun c _ => ?_
  exact .bind (.note .parser _ (by decide)) fun _ _ => .pure trivial

theorem compileFrom_ends (strict : Bool) (i : Nat) (xs : List Text) :
    (compileFrom strict i xs).Ends (fun _ => True) (fun _ => True) := by
  induction xs generalizing i with
  | nil => exact .pure trivial
  | cons x xs ih =>
    refine .bind (compileSymbol_ends x).settle fun r _ => ?_
    cases r with
    | ok c => exact .bind (ih (i + 1)) fun _ _ => .pure trivial
    | error e =>
      cases strict with
      | true => exact .fail trivial
      | false =>
        refine .bind (.note .progression _ (by decide)) fun _ _ => ?_
        exact .bind (ih (i + 1)) fun _ _ => .pure trivial

theorem appendSymbol_ends (text symbol : Text) :
    (appendSymbol text symbol).Ends (fun _ => True) (fun _ => True) :=
  .bind (compileSymbol_ends (strip symbol)) fun _ _ => .pure trivial

theorem textOr_ends {E : Refusal → Prop} (wording : String → String) (t : Text) :
    (textOr wording (.text t)).Ends (fun _ => True) E :=
  .pure trivial

/-- A refusal for the fault of a symbol. -/
def Refusal.IsFault (r : Refusal) : Prop :=
  ∃ (e : SymbolError) (symbol : Option Text), r = .known (some e.kindName) symbol e.message

/-- A refusal that the tool has an answer for. -/
def Refusal.IsKnown (r : Refusal) : Prop :=
  ∃ kind symbol message, r = .known kind symbol message

theorem Refusal.IsFault.isKnown {r : Refusal} (fault : r.IsFault) : r.IsKnown := by
  obtain ⟨e, symbol, rfl⟩ := fault
  exact ⟨_, _, _, rfl⟩

def Value.IsSuccess (v : Value) : Prop := ∃ fields, v = success fields

/-- The names of the five kinds of faults. -/
def faultKinds : List String :=
  ["InvalidCharacterError", "EmptyTokenSequenceError", "UnresolvedCodeError",
   "UnexpectedTokenPatternError", "InvalidTokenCountError"]

theorem SymbolError.kindName_mem (e : SymbolError) : e.kindName ∈ faultKinds := by
  cases e <;> simp [kindName, faultKinds]

section Activities

variable {source : Source} {title : String} {x : Run Refusal Value} {E : Refusal → Prop}

/-- An error is written for a reply exactly if its activity, which writes none, is refused for a
reason that was not foreseen. -/
theorem Run.reply_writes_error_iff (quiet : ∀ r ∈ x.records, r.level ≠ .error) :
    (∃ r ∈ (x.reply source title).records, r.level = .error) ↔
      ∃ message, x.outcome = .error (.unforeseen message) := by
  rw [Run.reply]
  cases x.outcome with
  | ok v =>
    constructor
    · rintro ⟨r, written, error⟩
      exact absurd error (quiet r written)
    · rintro ⟨message, same⟩
      cases same
  | error refusal =>
    cases refusal with
    | known kind symbol message =>
      constructor
      · rintro ⟨r, written, error⟩
        exact absurd error (quiet r written)
      · rintro ⟨message, same⟩
        cases same
    | unforeseen message =>
      refine iff_of_true ⟨⟨.error, source, title⟩, ?_, rfl⟩ ⟨message, rfl⟩
      exact List.mem_append_right _ List.mem_cons_self

/-- A reply whose activity ends as foreseen. -/
structure Reply.Foreseen (reply : Reply) (E : Refusal → Prop) : Prop where
  quiet : ∀ r ∈ reply.records, r.level ≠ .error
  answered : reply.Succeeds ∨ ∃ r, E r ∧ reply.answer = r.answer

theorem Run.Ends.foreseen (ends : x.Ends Value.IsSuccess E) (known : ∀ r, E r → r.IsKnown) :
    (x.reply source title).Foreseen E := by
  constructor
  · intro r written error
    obtain ⟨message, refused⟩ := (Run.reply_writes_error_iff ends.quiet).mp ⟨r, written, error⟩
    obtain ⟨kind, symbol, text, same⟩ := known _ (ends.failed _ refused)
    cases same
  · cases ended : x.outcome with
    | ok v =>
      obtain ⟨fields, rfl⟩ := ends.done v ended
      exact .inl (Reply.succeeds_of_success (Run.answer_ok ended))
    | error r => exact .inr ⟨r, ends.failed r ended, Run.answer_error ended⟩

theorem tokenizeReply_foreseen (symbol : Text) :
    (tokenizeReply (.text symbol)).Foreseen Refusal.IsFault := by
  refine Run.Ends.foreseen (.bind (textOr_ends _ _) fun s _ => ?_)
    fun _ => Refusal.IsFault.isKnown
  refine .bind ((tokenizeRecorded_ends s).mapError fun e _ => ⟨e, some s, rfl⟩) fun ts _ => ?_
  exact .pure ⟨_, rfl⟩

theorem parseChordReply_foreseen (symbol : Text) :
    (parseChordReply (.text symbol)).Foreseen Refusal.IsFault := by
  refine Run.Ends.foreseen (.bind (textOr_ends _ _) fun s _ => ?_)
    fun _ => Refusal.IsFault.isKnown
  refine .bind ((compileSymbol_ends s).mapError fun e _ => ⟨e, some s, rfl⟩) fun c _ => ?_
  exact .pure ⟨_, rfl⟩

theorem appendChordReply_foreseen (progression symbol : Text) :
    (appendChordReply (.text progression) (.text symbol)).Foreseen Refusal.IsFault := by
  refine Run.Ends.foreseen (.bind (textOr_ends _ _) fun s _ => ?_)
    fun _ => Refusal.IsFault.isKnown
  refine .bind ((appendSymbol_ends progression s).mapError fun e _ => ⟨e, none, rfl⟩) fun t _ => ?_
  exact .pure ⟨_, rfl⟩

theorem chordNotesReply_foreseen (symbol tonic : Text) (octave : Int) :
    (chordNotesReply (.text symbol) (.text tonic) octave).Foreseen Refusal.IsKnown := by
  refine Run.Ends.foreseen (.bind (textOr_ends _ _) fun s _ => ?_) fun _ => id
  refine .bind ((compileSymbol_ends s).mapError fun e _ => ⟨_, _, _, rfl⟩) fun c _ => ?_
  refine .bind (textOr_ends _ _) fun t _ => ?_
  refine .bind ((Run.Ends.any (PitchClass.parse t)).mapError fun e _ => ⟨_, _, _, rfl⟩)
    fun root _ => ?_
  refine .bind ((Run.Ends.any (c.voicing root octave)).mapError fun e _ => ⟨_, _, _, rfl⟩)
    fun notes _ => ?_
  exact .pure ⟨_, rfl⟩

theorem parseProgressionReply_foreseen (progression : Text) (strict : Bool) :
    (parseProgressionReply (.text progression) strict).Foreseen Refusal.IsKnown := by
  refine Run.Ends.foreseen (.bind (textOr_ends _ _) fun t _ => ?_) fun _ => id
  split
  · exact .fail ⟨_, _, _, rfl⟩
  · refine .bind ((compileFrom_ends strict 0 _).mapError fun e _ => ⟨_, _, _, rfl⟩) fun r _ => ?_
    exact .pure ⟨_, rfl⟩

end Activities

namespace Reply.Foreseen

variable {reply : Reply} {E : Refusal → Prop}

theorem status (foreseen : reply.Foreseen E) : reply.Succeeds ∨ reply.Fails := by
  rcases foreseen.answered with succeeds | ⟨r, -, refused⟩
  · exact .inl succeeds
  · exact .inr (Reply.fails_of_refused refused)

/-- What fails for the fault of a symbol is answered with the kind of the fault. -/
theorem kind (foreseen : reply.Foreseen Refusal.IsFault) (fails : reply.Fails) :
    ∃ kind ∈ faultKinds, reply.answer.field? "error_type" = some (.ofString kind) := by
  rcases foreseen.answered with succeeds | ⟨r, ⟨e, symbol, rfl⟩, refused⟩
  · exact absurd succeeds fails.not_succeeds
  · refine ⟨e.kindName, e.kindName_mem, ?_⟩
    rw [refused]
    rfl

end Reply.Foreseen

/-- What the record of a chord and its notes take for granted: a degree of the scale, and offsets
and names that stand in their tables. -/
structure Chord.ReadsTables (c : Chord) : Prop where
  degree : 1 ≤ c.degree.number ∧ c.degree.number ≤ 7
  offsets : List.Forall₂ (fun i o => c.mode.steps[(i + c.degree.root) % 7]? = some o)
    c.sounding c.offsets
  names : ∀ (flats : Bool) (tonic : PitchClass), ∀ p ∈ c.pitchClasses tonic,
    (if flats then PitchClass.flatNames else PitchClass.sharpNames)[p.val]? = some (p.spell flats)

theorem Chord.readsTables (c : Chord) : c.ReadsTables where
  degree := by cases c.degree <;> decide
  offsets := c.offsets_read
  names flats _ p _ := PitchClass.spell_read flats p

/-- Given texts, a tool for symbols or progressions writes no error to the journal, and its answer
is one of success or of failure. If it is refused for a symbol alone, then with one of the five
kinds of faults. No look-up on the way goes past the end of a table. -/
theorem last_resort_unreached (symbol progression tonic : Text) (strict : Bool) (octave : Int) :
    (∀ reply ∈ [tokenizeReply (.text symbol), parseChordReply (.text symbol),
        chordNotesReply (.text symbol) (.text tonic) octave,
        parseProgressionReply (.text progression) strict,
        appendChordReply (.text progression) (.text symbol)],
      (∀ r ∈ reply.records, r.level ≠ .error) ∧ (reply.Succeeds ∨ reply.Fails)) ∧
    (∀ reply ∈ [tokenizeReply (.text symbol), parseChordReply (.text symbol),
        appendChordReply (.text progression) (.text symbol)],
      reply.Fails →
        ∃ kind ∈ faultKinds, reply.answer.field? "error_type" = some (.ofString kind)) ∧
    ∀ c : Chord, c.ReadsTables := by
  have tokens := tokenizeReply_foreseen symbol
  have chord := parseChordReply_foreseen symbol
  have notes := chordNotesReply_foreseen symbol tonic octave
  have compiled := parseProgressionReply_foreseen progression strict
  have appended := appendChordReply_foreseen progression symbol
  refine ⟨?_, ?_, Chord.readsTables⟩
  · simp only [List.forall_mem_cons, List.not_mem_nil, false_implies, implies_true, and_true]
    exact ⟨⟨tokens.quiet, tokens.status⟩, ⟨chord.quiet, chord.status⟩,
      ⟨notes.quiet, notes.status⟩, ⟨compiled.quiet, compiled.status⟩,
      ⟨appended.quiet, appended.status⟩⟩
  · simp only [List.forall_mem_cons, List.not_mem_nil, false_implies, implies_true, and_true]
    exact ⟨tokens.kind, chord.kind, appended.kind⟩

/-- An unknown degree is refused with its kind, and so is an unknown sign. -/
theorem last_resort_unreached_unknown :
    (∃ kind ∈ faultKinds, (parseChordReply (.text ['9'])).answer.field? "error_type" =
      some (.ofString kind)) ∧
    ∃ kind ∈ faultKinds, (tokenizeReply (.text ['?'])).answer.field? "error_type" =
      some (.ofString kind) := by
  constructor
  · exact (last_resort_unreached ['9'] [','] ['H'] true 99).2.1 _ (.tail _ (.head _)) rfl
  · exact (last_resort_unreached ['?'] [] [] false (-9)).2.1 _ (.head _) rfl

end ChordSymbols
