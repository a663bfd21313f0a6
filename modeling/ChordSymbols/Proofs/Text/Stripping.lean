import ChordSymbols.Text.Blank
import Mathlib.Data.List.DropRight

/-!
# Blanks at the ends

Stripping takes the blanks from both ends of a text and nothing else: what it
leaves is the one text without blanks at its ends that becomes the given text
when blanks are put around it. So it makes no difference to it how many blanks
of what kind there were.
-/

namespace ChordSymbols

theorem isPrefix_strip (t : Text) : strip t <+: t.dropWhile isBlank :=
  List.rdropWhile_prefix isBlank (t.dropWhile isBlank)

theorem mem_of_mem_strip {t : Text} {c : Char} (kept : c ∈ strip t) : c ∈ t :=
  (List.dropWhile_suffix isBlank).subset ((isPrefix_strip t).subset kept)

theorem strip_strip (t : Text) : strip (strip t) = strip t := by
  have front : (strip t).dropWhile isBlank = strip t := by
    rw [List.dropWhile_eq_self_iff]
    intro nonempty
    -- What comes first is not moved by stripping at the end.
    rw [(isPrefix_strip t).getElem nonempty]
    exact List.dropWhile_get_zero_not isBlank t _
  have back : (strip t).rdropWhile isBlank = strip t :=
    List.rdropWhile_idempotent isBlank (t.dropWhile isBlank)
  calc strip (strip t) = ((strip t).dropWhile isBlank).rdropWhile isBlank := rfl
    _ = strip t := by rw [front, back]

theorem dropWhile_of_not {p : Char → Bool} {t : Text} (solid : ∀ c ∈ t, p c = false) :
    t.dropWhile p = t := by
  cases t with
  | nil => rfl
  | cons c cs => rw [List.dropWhile_cons, solid c List.mem_cons_self, if_neg (by decide)]

theorem trim_of_not {p : Char → Bool} {t : Text} (solid : ∀ c ∈ t, p c = false) :
    trim p t = t := by
  have backwards : ∀ c ∈ t.reverse, p c = false := by
    intro c hc
    exact solid c (List.mem_reverse.mp hc)
  rw [trim, dropWhile_of_not solid, dropWhile_of_not backwards, List.reverse_reverse]

theorem strip_of_not_blank {t : Text} (solid : ∀ c ∈ t, isBlank c = false) : strip t = t :=
  trim_of_not solid

/-- A text that consists of another one and blanks around it. -/
def Pads (t s : Text) : Prop :=
  ∃ before after, t = before ++ s ++ after ∧
    (∀ c ∈ before, isBlank c = true) ∧ ∀ c ∈ after, isBlank c = true

theorem pads_strip (t : Text) : Pads t (strip t) := by
  refine ⟨t.takeWhile isBlank, (t.dropWhile isBlank).rtakeWhile isBlank, ?_, ?_, ?_⟩
  · calc t = t.takeWhile isBlank ++ t.dropWhile isBlank :=
          List.takeWhile_append_dropWhile.symm
      _ = t.takeWhile isBlank ++ (strip t ++ (t.dropWhile isBlank).rtakeWhile isBlank) :=
          congrArg _ List.rdropWhile_append_rtakeWhile.symm
      _ = t.takeWhile isBlank ++ strip t ++ (t.dropWhile isBlank).rtakeWhile isBlank :=
          (List.append_assoc _ _ _).symm
  · intro c hc
    exact List.mem_takeWhile_imp hc
  · intro c hc
    exact List.mem_rtakeWhile_imp hc

section Blanks

variable {blanks : Text}

theorem strip_blanks_append (blank : ∀ c ∈ blanks, isBlank c = true) (t : Text) :
    strip (blanks ++ t) = strip t := by
  rw [strip, trim, List.dropWhile_append_of_pos blank]
  rfl

theorem strip_append_blanks (blank : ∀ c ∈ blanks, isBlank c = true) (t : Text) :
    strip (t ++ blanks) = strip t := by
  have backwards : ∀ c ∈ blanks.reverse, isBlank c = true := by
    intro c hc
    exact blank c (List.mem_reverse.mp hc)
  rw [strip, trim, strip, trim, List.dropWhile_append]
  cases rest : t.dropWhile isBlank with
  | nil =>
    -- A text of blanks alone: what is put behind it is dropped from the front.
    have none : blanks.dropWhile isBlank = [] := List.dropWhile_eq_nil_iff.mpr blank
    simp [none]
  | cons c cs =>
    rw [List.isEmpty_cons, if_neg (by decide), List.reverse_append,
      List.dropWhile_append_of_pos backwards]

end Blanks

theorem strip_of_pads {t s : Text} (padded : Pads t s) : strip t = strip s := by
  obtain ⟨before, after, rfl, front, back⟩ := padded
  rw [strip_append_blanks back, strip_blanks_append front]

theorem strip_eq_iff {t s : Text} : strip t = s ↔ strip s = s ∧ Pads t s := by
  constructor
  · rintro rfl
    exact ⟨strip_strip t, pads_strip t⟩
  · rintro ⟨stripped, padded⟩
    exact (strip_of_pads padded).trans stripped

end ChordSymbols
