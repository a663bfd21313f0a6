import ChordSymbols.Journal
import ChordSymbols.Json

/-!
# Replies of tools

A tool always replies with a record whose status is success or error. A refusal
that the tool knows may name its kind and repeat the symbol it was given. One
that it does not foresee is also written to the journal, under the title that
the tool has for it.
-/

namespace ChordSymbols

inductive Refusal where
  | known (kind : Option String) (symbol : Option Text) (message : String)
  | unforeseen (message : String)
deriving DecidableEq, Repr

structure Reply where
  records : List Record
  answer : Value
deriving Repr

/-- What a caller receives. -/
def Reply.text (r : Reply) : Text := r.answer.json

def success (fields : List (String × Value)) : Value :=
  .record (("status", .ofString "success") :: fields)

def namedIf (name : String) (v : Option Value) : List (String × Value) :=
  match v with
  | some v => [(name, v)]
  | none => []

namespace Refusal

def isUnforeseen : Refusal → Bool
  | .unforeseen _ => true
  | .known .. => false

def fields : Refusal → List (String × Value)
  | .known kind symbol message =>
    namedIf "error_type" (kind.map .ofString) ++ namedIf "symbol" (symbol.map .text) ++
      [("message", .ofString message)]
  | .unforeseen message => [("message", .ofString message)]

def answer (r : Refusal) : Value :=
  .record (("status", .ofString "error") :: r.fields)

end Refusal

/-- The reply of a tool that writes refusals it does not foresee under a title. -/
def Run.reply (source : Source) (title : String) (x : Run Refusal Value) : Reply :=
  match x.outcome with
  | .ok v => ⟨x.records, v⟩
  | .error r =>
    if r.isUnforeseen then ⟨x.records ++ [⟨.error, source, title⟩], r.answer⟩
    else ⟨x.records, r.answer⟩

/-- A text, where one is needed; any other kind of value is refused. -/
def textOr (wording : String → String) : Value → Run Refusal Text
  | .text t => return t
  | v => Run.fail (.unforeseen (wording (quoted v.kindName.toList)))

/-- The wording for a value that has no length. -/
def noLength (kind : String) : String :=
  "object of type " ++ kind ++ " has no len()"

/-- The wording for a value that does not know an operation. -/
def noOperation (operation kind : String) : String :=
  kind ++ " object has no attribute " ++ quoted operation.toList

end ChordSymbols
