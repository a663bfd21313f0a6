import ChordSymbols.Tool.Reply

/-!
# What a caller reads off a reply

The answer of a tool is the value that its activity ends with, or the record of
its refusal. Its status tells which of the two it is.
-/

namespace ChordSymbols

/-- What a record holds under a name. -/
def Value.field? (name : String) : Value → Option Value
  | .record fields => fields.lookup name
  | _ => none

def Reply.Succeeds (r : Reply) : Prop :=
  r.answer.field? "status" = some (.ofString "success")

def Reply.Fails (r : Reply) : Prop :=
  r.answer.field? "status" = some (.ofString "error")

/-- What a caller is answered for an outcome. -/
def answerOf : Except Refusal Value → Value
  | .ok v => v
  | .error r => r.answer

section Answer

variable {source : Source} {title : String} {x : Run Refusal Value}

theorem Run.answer_eq : (x.reply source title).answer = answerOf x.outcome := by
  rw [Run.reply]
  cases x.outcome with
  | ok v => rfl
  | error r => cases unforeseen : r.isUnforeseen <;> simp [unforeseen, answerOf]

theorem Run.answer_ok {v : Value} (done : x.outcome = .ok v) :
    (x.reply source title).answer = v := by
  rw [Run.answer_eq, done, answerOf]

theorem Run.answer_error {r : Refusal} (refused : x.outcome = .error r) :
    (x.reply source title).answer = r.answer := by
  rw [Run.answer_eq, refused, answerOf]

end Answer

theorem Refusal.status_answer (r : Refusal) :
    r.answer.field? "status" = some (.ofString "error") := rfl

theorem Reply.fails_of_refused {reply : Reply} {r : Refusal} (refused : reply.answer = r.answer) :
    reply.Fails := by
  rw [Reply.Fails, refused]
  exact r.status_answer

theorem Reply.succeeds_of_success {reply : Reply} {fields : List (String × Value)}
    (answered : reply.answer = success fields) : reply.Succeeds := by
  rw [Reply.Succeeds, answered]
  rfl

theorem Reply.Fails.not_succeeds {reply : Reply} (fails : reply.Fails) : ¬ reply.Succeeds := by
  intro succeeds
  rw [Reply.Succeeds, fails] at succeeds
  have same : "error".toList = "success".toList := Value.text.inj (Option.some.inj succeeds)
  exact absurd same (by decide)

/-- A reply whose answer is that of a refusal does not succeed. -/
theorem Reply.not_succeeds {reply : Reply} {r : Refusal} (refused : reply.answer = r.answer) :
    ¬ reply.Succeeds :=
  (Reply.fails_of_refused refused).not_succeeds

end ChordSymbols
