import ChordSymbols.Disk
import ChordSymbols.Proofs.Progression.Splitting

/-!
# Paths and their texts

The names of a path that was read hold no slash, and none of them is empty or a
single dot. For such paths, which are closed under joining, the text of a path
is read back to the path. What is put behind a text without a slash in it only
makes the last name longer.
-/

namespace ChordSymbols

theorem pieces_cons_separator (sep : Char) (t : Text) : pieces sep (sep :: t) = [] :: pieces sep t := by
  simp [pieces]

/-- A text without a separator, put behind another, makes the last piece of that longer. -/
theorem pieces_append_whole {sep : Char} {suffix : Text} (absent : sep ∉ suffix) (t : Text) :
    ∃ front last, pieces sep (t ++ suffix) = front ++ [last ++ suffix] := by
  induction t with
  | nil => exact ⟨[], [], pieces_eq_singleton absent⟩
  | cons c t ih =>
    obtain ⟨front, last, parted⟩ := ih
    by_cases h : c = sep
    · refine ⟨[] :: front, last, ?_⟩
      rw [List.cons_append, h, pieces_cons_separator, parted]
      rfl
    · cases front with
      | nil => exact ⟨[], c :: last, by simp [pieces, h, parted]⟩
      | cons p ps => exact ⟨(c :: p) :: ps, last, by simp [pieces, h, parted]⟩

/-- A name that is kept when a path is read. -/
structure IsName (n : Text) : Prop where
  nonempty : n ≠ []
  notDot : n ≠ ['.']
  whole : '/' ∉ n

namespace Path

theorem mem_names_ofText {t n : Text} (hn : n ∈ (ofText t).names) : IsName n := by
  obtain ⟨hn, kept⟩ := List.mem_filter.mp hn
  have filled := of_decide_eq_true kept
  exact ⟨filled.1, filled.2, not_mem_of_mem_pieces n hn⟩

/-- What comes after the last slash of a path, with an ending put to it, is its last name. -/
theorem names_ofText_append {ending : Text} (whole : '/' ∉ ending) (long : 2 ≤ ending.length)
    (t : Text) : ∃ front last, (ofText (t ++ ending)).names = front ++ [last ++ ending] := by
  obtain ⟨front, last, parted⟩ := pieces_append_whole whole t
  have longer : 2 ≤ (last ++ ending).length := by
    rw [List.length_append]
    omega
  have filled : last ++ ending ≠ [] := by
    intro empty
    rw [empty, List.length_nil] at longer
    omega
  have notDot : last ++ ending ≠ ['.'] := by
    intro dot
    rw [dot, List.length_singleton] at longer
    omega
  refine ⟨front.filter fun n => n ≠ [] ∧ n ≠ ['.'], last, ?_⟩
  simp only [ofText, parted, List.filter_append]
  simp [filled, notDot]

/-- Like every path that is read. -/
structure Readable (p : Path) : Prop where
  slashes : p.slashes ≤ 2
  names : ∀ n ∈ p.names, IsName n

theorem readable_ofText (t : Text) : (ofText t).Readable := by
  refine ⟨?_, fun n hn => mem_names_ofText hn⟩
  simp only [ofText]
  split
  · omega
  · omega

theorem Readable.join {p q : Path} (hp : p.Readable) (hq : q.Readable) : (p.join q).Readable := by
  rw [Path.join]
  split
  · refine ⟨hp.slashes, fun n hn => ?_⟩
    rcases List.mem_append.mp hn with hn | hn
    · exact hp.names n hn
    · exact hq.names n hn
  · exact hq

theorem filter_pieces_replicate (k : Nat) (t : Text) :
    (pieces '/' (List.replicate k '/' ++ t)).filter (fun n => n ≠ [] ∧ n ≠ ['.']) =
      (pieces '/' t).filter fun n => n ≠ [] ∧ n ≠ ['.'] := by
  induction k with
  | zero => rfl
  | succ k ih =>
    rw [List.replicate_succ, List.cons_append, pieces_cons_separator, List.filter_cons]
    simpa using ih

theorem takeWhile_slashes (k : Nat) {n : Text} (ns : List Text) (name : IsName n) :
    (List.replicate k '/' ++ ['/'].intercalate (n :: ns)).takeWhile (· = '/') =
      List.replicate k '/' := by
  have front : ∃ c rest, ['/'].intercalate (n :: ns) = c :: rest ∧ c ≠ '/' := by
    cases n with
    | nil => exact absurd rfl name.nonempty
    | cons c cs =>
      have other : c ≠ '/' := by
        rintro rfl
        exact name.whole List.mem_cons_self
      cases ns with
      | nil => exact ⟨c, cs, by simp, other⟩
      | cons m ms => exact ⟨c, _, by rw [List.intercalate_cons_cons]; rfl, other⟩
  obtain ⟨c, rest, parted, other⟩ := front
  rw [List.takeWhile_append_of_pos (by simp), parted, List.takeWhile_cons]
  simp [other]

/-- The text of a path is read back to the path. -/
theorem Readable.ofText_text {p : Path} (readable : p.Readable) : ofText p.text = p := by
  obtain ⟨slashes, names⟩ := p
  have few : slashes ≤ 2 := readable.slashes
  have named : ∀ n ∈ names, IsName n := readable.names
  cases names with
  | nil =>
    have rooted : slashes = 0 ∨ slashes = 1 ∨ slashes = 2 := by omega
    rcases rooted with rfl | rfl | rfl
    · decide
    · decide
    · decide
  | cons n ns =>
    have shown : text ⟨slashes, n :: ns⟩ =
        List.replicate slashes '/' ++ ['/'].intercalate (n :: ns) := by
      simp [text]
    have read : pieces '/' (['/'].intercalate (n :: ns)) = n :: ns :=
      pieces_intercalate (List.cons_ne_nil n ns) fun m hm => (named m hm).whole
    have kept : (n :: ns).filter (fun m => m ≠ [] ∧ m ≠ ['.']) = n :: ns := by
      rw [List.filter_eq_self]
      intro m hm
      exact decide_eq_true ⟨(named m hm).nonempty, (named m hm).notDot⟩
    rw [shown, ofText]
    simp only [takeWhile_slashes slashes ns (named n List.mem_cons_self), filter_pieces_replicate,
      read, kept, List.length_replicate]
    rw [if_neg (by omega)]

end Path

end ChordSymbols
