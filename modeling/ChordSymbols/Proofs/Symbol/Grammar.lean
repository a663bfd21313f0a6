import ChordSymbols.Proofs.Symbol.Lexing
import ChordSymbols.Symbol.Parse

/-!
# The grammar of chord symbols

The six shapes of a token list are three readings, each with or without the
digits of a figure. `Denotes` gives the chord of a reading by the vocabularies
alone, in no order of look-ups; parsing is exact for it.
-/

namespace ChordSymbols

/-- The letters of a mode. Ionian has none. -/
def Mode.letters : Mode → List Char
  | .ionian => []
  | .dorian => ['D', 'd']
  | .phrygian => ['Y', 'y']
  | .lydian => ['L', 'l']
  | .mixolydian => ['M', 'm']
  | .aeolian => ['B', 'b']
  | .locrian => ['C', 'c']

/-- The digits of a figure, if there is one. -/
def figureText (f : Option Figure) : Text := f.elim [] Figure.code

inductive Denotes : List Token → Chord → Prop where
  | lettered {m : Mode} {l : Char} (letter : l ∈ m.letters) (d : Degree) (f : Option Figure) :
      Denotes (.letter l :: .number d.digit :: furtherTokens (figureText f)) ⟨m, d, f, none⟩
  | plain (d : Degree) (f : Option Figure) :
      Denotes (.number d.digit :: furtherTokens (figureText f)) ⟨d.defaultMode, d, f, none⟩
  | applied (s : Secondary) (f : Option Figure) (d : Degree) :
      Denotes (.number s.digit :: (furtherTokens (figureText f) ++ [.number d.digit]))
        ⟨.ionian, d, f, some s⟩

theorem resolve_eq_ok {α : Type} {v : Vocabulary} {find : Text → Option α} {t : Text} {a : α} :
    resolve v find t = .ok a ↔ find t = some a := by
  rw [resolve]
  cases find t with
  | none => simp
  | some b => simp

/-- A look-up by code finds a member by its own code only, where no other has that code. -/
theorem resolve_code_eq_ok {α : Type} {v : Vocabulary} {all : List α} {code : α → Text}
    (own : ∀ a, all.find? (fun b => code b = code a) = some a) {t : Text} {a : α} :
    resolve v (fun t => all.find? fun b => code b = t) t = .ok a ↔ t = code a := by
  rw [resolve_eq_ok]
  constructor
  · intro found
    have same := List.find?_some found
    exact (of_decide_eq_true same).symm
  · rintro rfl
    exact own a

theorem resolveDegree_eq_ok {t : Text} {d : Degree} :
    resolveDegree t = .ok d ↔ t = [d.digit] :=
  resolve_code_eq_ok Degree.ofCode?_digit

theorem resolveFigure_eq_ok {t : Text} {f : Figure} :
    resolveFigure t = .ok f ↔ t = f.code :=
  resolve_code_eq_ok Figure.ofCode?_code

theorem resolveSecondary_eq_ok {t : Text} {s : Secondary} :
    resolveSecondary t = .ok s ↔ t = [s.digit] :=
  resolve_code_eq_ok Secondary.ofCode?_code

theorem toNat_toLower_of_upper {c : Char} (low : 65 ≤ c.toNat) (high : c.toNat ≤ 90) :
    c.toLower.toNat = c.toNat + 32 := by
  have upper : c.val ≥ 'A'.val ∧ c.val ≤ 'Z'.val := ⟨low, high⟩
  have code : c.toLower.toNat = (c.toNat + 32) % 2 ^ 32 := congrArg Char.toNat (dif_pos upper)
  rw [code]
  omega

theorem toLower_of_not_upper {c : Char} (other : ¬ (65 ≤ c.toNat ∧ c.toNat ≤ 90)) :
    c.toLower = c :=
  dif_neg other

/-- Only the two cases of a letter come out as its lower case. -/
theorem eq_of_toLower_eq {c u : Char} (low : 65 ≤ u.toNat) (high : u.toNat ≤ 90)
    (same : c.toLower = u.toLower) : c = u ∨ c = u.toLower := by
  have lower := toNat_toLower_of_upper low high
  by_cases upper : 65 ≤ c.toNat ∧ c.toNat ≤ 90
  · have code := toNat_toLower_of_upper upper.1 upper.2
    rw [same, lower] at code
    exact Or.inl (Char.toNat_inj.mp (by omega))
  · rw [toLower_of_not_upper upper] at same
    exact Or.inr same

theorem Mode.mem_letters_of_toLower_eq {m : Mode} {u c : Char} (letter : m.letter? = some u)
    (same : u.toLower = c.toLower) : c ∈ m.letters := by
  cases m with
  | ionian => cases letter
  | aeolian =>
    cases letter
    rcases eq_of_toLower_eq (u := 'B') (by decide) (by decide) same.symm with rfl | rfl <;> decide
  | _ =>
    cases letter
    rcases eq_of_toLower_eq (by decide) (by decide) same.symm with rfl | rfl <;> decide

theorem Mode.ofCode?_of_mem {m : Mode} {l : Char} (letter : l ∈ m.letters) :
    Mode.ofCode? [l] = some m := by
  cases m <;> simp only [Mode.letters, List.mem_cons, List.not_mem_nil, or_false] at letter <;>
    rcases letter with rfl | rfl <;> decide

theorem Mode.ofCode?_eq_some {t : Text} {m : Mode} :
    Mode.ofCode? t = some m ↔ ∃ l ∈ m.letters, t = [l] := by
  constructor
  · intro found
    match t with
    | [] => cases found
    | c :: d :: t => cases found
    | [c] =>
      rw [Mode.ofCode?] at found
      have same := List.find?_some found
      obtain ⟨u, letter, lower⟩ := Option.map_eq_some_iff.mp (of_decide_eq_true same)
      exact ⟨c, mem_letters_of_toLower_eq letter lower, rfl⟩
  · rintro ⟨l, letter, rfl⟩
    exact Mode.ofCode?_of_mem letter

theorem resolveMode_eq_ok {t : Text} {m : Mode} :
    resolveMode t = .ok m ↔ ∃ l ∈ m.letters, t = [l] := by
  rw [resolveMode, resolve_eq_ok, Mode.ofCode?_eq_some]

theorem furtherTokens_figure (f : Figure) :
    furtherTokens (figureText (some f)) = [.further f.code] := by
  cases f <;> rfl

/-- A parsed list of tokens has one of the three readings. -/
theorem parseTokens_sound {ts : List Token} {c : Chord} (h : parseTokens ts = .ok c) :
    Denotes ts c := by
  unfold parseTokens at h
  split at h
  · cases h
  · split at h
    · obtain ⟨mode, hm, h⟩ := bind_eq_ok.mp h
      obtain ⟨degree, hd, h⟩ := bind_eq_ok.mp h
      obtain ⟨figure, hf, h⟩ := bind_eq_ok.mp h
      cases h
      obtain ⟨l, letter, rfl⟩ := resolveMode_eq_ok.mp hm
      rw [resolveDegree_eq_ok.mp hd, resolveFigure_eq_ok.mp hf]
      have reading := Denotes.lettered letter degree (some figure)
      rwa [furtherTokens_figure] at reading
    · obtain ⟨degree, hd, h⟩ := bind_eq_ok.mp h
      obtain ⟨figure, hf, h⟩ := bind_eq_ok.mp h
      obtain ⟨secondary, hs, h⟩ := bind_eq_ok.mp h
      cases h
      rw [resolveDegree_eq_ok.mp hd, resolveFigure_eq_ok.mp hf, resolveSecondary_eq_ok.mp hs]
      have reading := Denotes.applied secondary (some figure) degree
      rwa [furtherTokens_figure] at reading
    · obtain ⟨mode, hm, h⟩ := bind_eq_ok.mp h
      obtain ⟨degree, hd, h⟩ := bind_eq_ok.mp h
      cases h
      obtain ⟨l, letter, rfl⟩ := resolveMode_eq_ok.mp hm
      rw [resolveDegree_eq_ok.mp hd]
      exact .lettered letter degree none
    · obtain ⟨degree, hd, h⟩ := bind_eq_ok.mp h
      obtain ⟨figure, hf, h⟩ := bind_eq_ok.mp h
      cases h
      rw [resolveDegree_eq_ok.mp hd, resolveFigure_eq_ok.mp hf]
      have reading := Denotes.plain degree (some figure)
      rwa [furtherTokens_figure] at reading
    · obtain ⟨degree, hd, h⟩ := bind_eq_ok.mp h
      obtain ⟨secondary, hs, h⟩ := bind_eq_ok.mp h
      cases h
      rw [resolveDegree_eq_ok.mp hd, resolveSecondary_eq_ok.mp hs]
      exact .applied secondary none degree
    · obtain ⟨degree, hd, h⟩ := bind_eq_ok.mp h
      cases h
      rw [resolveDegree_eq_ok.mp hd]
      exact .plain degree none
    · cases h

/-- All codes of a reading resolve, so that the order of look-ups does not matter. -/
theorem parseTokens_complete {ts : List Token} {c : Chord} (h : Denotes ts c) :
    parseTokens ts = .ok c := by
  have degree (d : Degree) : resolveDegree [d.digit] = .ok d := resolveDegree_eq_ok.mpr rfl
  have figure (f : Figure) : resolveFigure f.code = .ok f := resolveFigure_eq_ok.mpr rfl
  cases h with
  | @lettered m l letter d f =>
    have mode : resolveMode [l] = .ok m := resolveMode_eq_ok.mpr ⟨l, letter, rfl⟩
    cases f with
    | none => exact bind_eq_ok.mpr ⟨m, mode, bind_eq_ok.mpr ⟨d, degree d, rfl⟩⟩
    | some f =>
      rw [furtherTokens_figure]
      exact bind_eq_ok.mpr ⟨m, mode, bind_eq_ok.mpr ⟨d, degree d,
        bind_eq_ok.mpr ⟨f, figure f, rfl⟩⟩⟩
  | plain d f =>
    cases f with
    | none => exact bind_eq_ok.mpr ⟨d, degree d, rfl⟩
    | some f =>
      rw [furtherTokens_figure]
      exact bind_eq_ok.mpr ⟨d, degree d, bind_eq_ok.mpr ⟨f, figure f, rfl⟩⟩
  | applied s f d =>
    have secondary : resolveSecondary [s.digit] = .ok s := resolveSecondary_eq_ok.mpr rfl
    cases f with
    | none => exact bind_eq_ok.mpr ⟨d, degree d, bind_eq_ok.mpr ⟨s, secondary, rfl⟩⟩
    | some f =>
      rw [furtherTokens_figure]
      exact bind_eq_ok.mpr ⟨d, degree d, bind_eq_ok.mpr ⟨f, figure f,
        bind_eq_ok.mpr ⟨s, secondary, rfl⟩⟩⟩

theorem parseTokens_eq_ok {ts : List Token} {c : Chord} :
    parseTokens ts = .ok c ↔ Denotes ts c :=
  ⟨parseTokens_sound, parseTokens_complete⟩

end ChordSymbols
