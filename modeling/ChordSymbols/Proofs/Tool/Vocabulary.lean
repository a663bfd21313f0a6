import ChordSymbols.Proofs.Symbol.Canonical
import ChordSymbols.Proofs.Symbol.Parsing
import ChordSymbols.Proofs.Tool.Reply
import ChordSymbols.Tool.Vocabulary

/-!
# The vocabulary as it is listed

A code is known to the parser exactly if the reply lists it, up to case. What the
reply says about a member is what chords have: a digit by itself is the chord
with the root and the default mode of its record, and the offsets of every chord
stand in the record of its mode.
-/

namespace ChordSymbols

def Value.items : Value → List Value
  | .list items => items
  | _ => []

def Value.text? : Value → Option Text
  | .text t => some t
  | _ => none

namespace Vocabulary

/-- The name of a vocabulary in the reply. -/
def field : Vocabulary → String
  | .mode => "modes" | .numeral => "numerals" | .inversion => "inversions"
  | .function => "functions"

/-- The records that the reply has for a vocabulary. -/
def listing (v : Vocabulary) : List Value :=
  (vocabularyReply.answer.field? v.field).elim [] Value.items

/-- The codes in those records. -/
def listed (v : Vocabulary) : List Text :=
  v.listing.filterMap fun item => (item.field? "code").bind Value.text?

theorem listing_mode : mode.listing = Mode.all.map Mode.value := rfl

theorem listing_numeral : numeral.listing = Degree.all.map Degree.value := rfl

theorem listed_mode : mode.listed = Mode.all.filterMap fun m => m.letter?.map ([·]) := rfl

theorem listed_of_ne_mode {v : Vocabulary} (other : v ≠ .mode) : v.listed = v.codes := by
  cases v with
  | mode => exact absurd rfl other
  | numeral | inversion | function => rfl

end Vocabulary

/-- Texts that differ in the case of their letters at most. -/
def SameUpToCase (t u : Text) : Prop := t.map Char.toLower = u.map Char.toLower

theorem eq_of_toLower_eq_digit {c u : Char} (digit : u.isDigit = true)
    (same : c.toLower = u.toLower) : c = u := by
  have within := Char.isDigit_iff_toNat.mp digit
  simp only [Char.reduceToNat] at within
  rw [toLower_of_not_upper (c := u) (by omega)] at same
  by_cases upper : 65 ≤ c.toNat ∧ c.toNat ≤ 90
  · have code := toNat_toLower_of_upper upper.1 upper.2
    rw [same] at code
    omega
  · rwa [toLower_of_not_upper upper] at same

theorem eq_of_sameUpToCase_digits {t u : Text} (digits : ∀ c ∈ u, c.isDigit = true)
    (same : SameUpToCase t u) : t = u := by
  induction t generalizing u with
  | nil => exact (List.map_eq_nil_iff.mp same.symm).symm
  | cons c t ih =>
    cases u with
    | nil => cases same
    | cons d u =>
      obtain ⟨first, rest⟩ := List.cons.inj same
      rw [eq_of_toLower_eq_digit (digits d List.mem_cons_self) first,
        ih (fun x member => digits x (List.mem_cons_of_mem d member)) rest]

theorem Vocabulary.isDigit_of_mem_codes {v : Vocabulary} (other : v ≠ .mode) :
    ∀ t ∈ v.codes, ∀ c ∈ t, c.isDigit = true := by
  have all : (v.codes.all fun t => t.all Char.isDigit) = true := by
    cases v with
    | mode => exact absurd rfl other
    | numeral | inversion | function => rfl
  intro t member
  exact List.all_eq_true.mp (List.all_eq_true.mp all t member)

theorem Mode.toLower_of_mem {m : Mode} {l u : Char} (letter : l ∈ m.letters)
    (own : m.letter? = some u) : l.toLower = u.toLower := by
  cases m <;> cases own <;>
    simp only [Mode.letters, List.mem_cons, List.not_mem_nil, or_false] at letter <;>
    rcases letter with rfl | rfl <;> decide

theorem mem_codes_mode_iff_listed {t : Text} :
    t ∈ Vocabulary.mode.codes ↔ ∃ code ∈ Vocabulary.mode.listed, SameUpToCase t code := by
  rw [Vocabulary.listed_mode]
  constructor
  · intro member
    obtain ⟨m, all, written⟩ := List.mem_flatMap.mp member
    obtain ⟨l, letter, rfl⟩ := List.mem_map.mp written
    obtain ⟨u, own⟩ := Mode.letter?_of_mem letter
    refine ⟨[u], List.mem_filterMap.mpr ⟨m, all, by rw [own]; rfl⟩, ?_⟩
    exact congrArg ([·]) (Mode.toLower_of_mem letter own)
  · rintro ⟨code, listed, same⟩
    obtain ⟨m, all, shown⟩ := List.mem_filterMap.mp listed
    obtain ⟨u, own, rfl⟩ := Option.map_eq_some_iff.mp shown
    have known : [u] ∈ Vocabulary.mode.codes :=
      List.mem_flatMap.mpr ⟨m, all, List.mem_map.mpr ⟨u, Mode.mem_letters own, rfl⟩⟩
    exact (mem_codes_mode_of_lower same).mpr known

/-- The codes that are known to the parser are those that the reply lists, in either case. -/
theorem mem_codes_iff_listed {v : Vocabulary} {t : Text} :
    t ∈ v.codes ↔ ∃ code ∈ v.listed, SameUpToCase t code := by
  by_cases letters : v = .mode
  · subst letters
    exact mem_codes_mode_iff_listed
  · rw [Vocabulary.listed_of_ne_mode letters]
    constructor
    · intro known
      exact ⟨t, known, rfl⟩
    · rintro ⟨code, known, same⟩
      rwa [eq_of_sameUpToCase_digits (Vocabulary.isDigit_of_mem_codes letters code known) same]

/-- What the parser refuses to find is not listed. -/
theorem not_listed_of_unresolved {ts : List Token} {v : Vocabulary} {t : Text}
    (refused : parseTokens ts = .error (.unresolved v t)) :
    ∀ code ∈ v.listed, ¬ SameUpToCase t code := by
  obtain ⟨-, miss⟩ := parseTokens_eq_unresolved.mp refused
  have unknown : t ∉ v.codes := by simpa using List.find?_some miss
  intro code listed same
  exact unknown (mem_codes_iff_listed.mpr ⟨code, listed, same⟩)

theorem parseSymbol_digit (d : Degree) :
    parseSymbol [d.digit] = .ok ⟨d.defaultMode, d, none, none⟩ := by
  cases d <;> rfl

/-- The record of a numeral tells the root and the mode of the chord that its code stands for. -/
theorem numeral_as_listed {item : Value} (member : item ∈ Vocabulary.numeral.listing) :
    ∃ code c, item.field? "code" = some (.text code) ∧ parseSymbol code = .ok c ∧
      item.field? "root" = some (.whole c.degree.root) ∧
      item.field? "default_mode" = c.value.field? "mode" := by
  rw [Vocabulary.listing_numeral] at member
  obtain ⟨d, -, rfl⟩ := List.mem_map.mp member
  exact ⟨[d.digit], _, rfl, parseSymbol_digit d, rfl, rfl⟩

theorem Mode.step_mem (m : Mode) (i : Nat) : m.step i ∈ m.steps := by
  have table : ∀ j < 7, m.steps.getD j 0 ∈ m.steps := by cases m <;> decide
  exact table (i % 7) (Nat.mod_lt _ (by decide))

/-- The notes of a chord are among the intervals of the mode that it is shown with. -/
theorem offsets_as_listed (c : Chord) :
    ∃ item ∈ Vocabulary.mode.listing, item.field? "name" = c.value.field? "mode" ∧
      ∃ steps, item.field? "intervals" = some (wholeList steps) ∧
        ∀ o ∈ c.offsets, (o : Int) ∈ steps := by
  have all : c.mode ∈ Mode.all := by cases c.mode <;> decide
  refine ⟨c.mode.value, ?_, rfl, c.mode.steps.map Int.ofNat, rfl, fun o sounds => ?_⟩
  · rw [Vocabulary.listing_mode]
    exact List.mem_map_of_mem all
  · obtain ⟨i, -, rfl⟩ := List.mem_map.mp sounds
    exact List.mem_map_of_mem (c.mode.step_mem _)

end ChordSymbols
