import ChordSymbols.Proofs.Disk.Place

/-!
# Folders that are made

Making the folder of a path, with those around it, moves no file and keeps every
folder that was there, also where it fails on the way. Where it succeeds the names
of the path can be followed from folder to folder, and to make the folder once more
changes nothing.
-/

namespace ChordSymbols

namespace Disk

/-- Nothing is lost, and only folders are new. -/
structure Grows (before after : Disk) : Prop where
  files : after.files = before.files
  here : after.here = before.here
  folders : ∀ p ∈ before.folders, p ∈ after.folders

theorem Grows.refl (d : Disk) : d.Grows d :=
  ⟨rfl, rfl, fun _ found => found⟩

theorem Grows.trans {a b c : Disk} (first : a.Grows b) (second : b.Grows c) : a.Grows c where
  files := second.files.trans first.files
  here := second.here.trans first.here
  folders p found := second.folders p (first.folders p found)

/-- The names of a path can be followed to the folder that it leads to. -/
def Holds (d : Disk) (p : Path) : Prop :=
  d.follow p.text (p.origin d.here) p.names = .ok (p.place d.here)

variable {d e : Disk} {whole : Text}

theorem Grows.isFolder (grows : d.Grows e) {place : Place} (found : d.isFolder place = true) :
    e.isFolder place = true := by
  rw [Disk.isFolder, Bool.or_eq_true, List.contains_iff_mem] at found ⊢
  exact found.imp_right (grows.folders place)

/-- The way from one folder to the next stays open. -/
theorem Grows.follow (grows : d.Grows e) {start found : Place} {names : List Text}
    (followed : d.follow whole start names = .ok found) :
    e.follow whole start names = .ok found := by
  induction names generalizing start with
  | nil => exact followed
  | cons n ns ih =>
    rw [Disk.follow] at followed ⊢
    by_cases dots : n = ['.', '.']
    · rw [if_pos dots] at followed ⊢
      exact ih followed
    · rw [if_neg dots] at followed ⊢
      by_cases long : longestName < utf8Length n
      · rw [if_pos long] at followed
        cases followed
      · rw [if_neg long] at followed ⊢
        dsimp only at followed ⊢
        by_cases there : d.isFolder (start ++ [n]) = true
        · rw [if_pos there] at followed
          rw [if_pos (grows.isFolder there)]
          exact ih followed
        · rw [if_neg there] at followed
          split at followed
          · cases followed
          · cases followed

theorem follow_append (start : Place) (ms ns : List Text) :
    d.follow whole start (ms ++ ns) =
      (d.follow whole start ms).bind fun found => d.follow whole found ns := by
  induction ms generalizing start with
  | nil => rfl
  | cons m ms ih =>
    rw [List.cons_append, follow, follow]
    dsimp only
    by_cases dots : m = ['.', '.']
    · rw [if_pos dots, if_pos dots, ih]
    · rw [if_neg dots, if_neg dots]
      split
      · rfl
      · split
        · rw [ih]
        · split
          · rfl
          · rfl

theorem follow_enter {around : Place} {name : Text}
    (there : name ≠ ['.', '.'] →
      utf8Length name ≤ longestName ∧ d.isFolder (around ++ [name]) = true) :
    d.follow whole around [name] = .ok (around.enter name) := by
  rw [follow, Place.enter]
  by_cases dots : name = ['.', '.']
  · rw [if_pos dots, if_pos dots, follow]
  · obtain ⟨short, folder⟩ := there dots
    rw [if_neg dots, if_neg dots, if_neg (Nat.not_lt.mpr short)]
    dsimp only
    rw [if_pos folder, follow]

/-- A folder is held if that around it can be followed to, and there is one with its name. -/
theorem holds_of_approach {p : Path} {around : Place} {name : Text}
    (reached : d.approach p = .ok (around, some name))
    (there : name ≠ ['.', '.'] →
      utf8Length name ≤ longestName ∧ d.isFolder (around ++ [name]) = true) : d.Holds p := by
  obtain ⟨-, -, followed, last⟩ := approach_eq_ok.mp reached
  obtain ⟨front, parted⟩ := List.getLast?_eq_some_iff.mp last
  rw [Holds, place_of_approach reached]
  rw [parted, List.dropLast_concat] at followed
  rw [parted, follow_append, followed]
  exact follow_enter there

/-- A folder that is held is not added again. -/
theorem addFolder_approached {p : Path} {around : Place} {name : Text}
    (reached : d.approach p = .ok (around, some name))
    (there : name ≠ ['.', '.'] →
      utf8Length name ≤ longestName ∧ d.isFolder (around ++ [name]) = true) :
    d.addFolder p = .ok d := by
  rw [addFolder]
  refine bind_eq_ok.mpr ⟨_, reached, ?_⟩
  dsimp only
  by_cases dots : name = ['.', '.']
  · rw [if_pos dots]
    rfl
  · obtain ⟨short, folder⟩ := there dots
    rw [if_neg dots, if_neg (Nat.not_lt.mpr short), if_pos folder]
    rfl

theorem Grows.approach (grows : d.Grows e) {p : Path} {around : Place} {last : Option Text}
    (reached : d.approach p = .ok (around, last)) : e.approach p = .ok (around, last) := by
  obtain ⟨free, short, followed, same⟩ := approach_eq_ok.mp reached
  rw [← grows.here] at followed
  exact approach_eq_ok.mpr ⟨free, short, grows.follow followed, same⟩

theorem grows_with (p : Place) :
    d.Grows { d with folders := d.folders ++ [p] } ∧
      { d with folders := d.folders ++ [p] : Disk }.isFolder p = true := by
  refine ⟨⟨rfl, rfl, fun q found => List.mem_append_left _ found⟩, ?_⟩
  rw [Disk.isFolder, Bool.or_eq_true, List.contains_iff_mem]
  exact .inr (List.mem_append_right _ (List.mem_singleton_self _))

/-- What an addition that succeeds leaves: the path was bare, or its last name is that of a folder
now. -/
theorem addFolder_cases {p : Path} (made : d.addFolder p = .ok e) :
    (∃ around, d.approach p = .ok (around, none) ∧ e = d) ∨
      ∃ around name, d.approach p = .ok (around, some name) ∧ d.Grows e ∧
        (name ≠ ['.', '.'] →
          utf8Length name ≤ longestName ∧ e.isFolder (around ++ [name]) = true) := by
  rw [addFolder] at made
  obtain ⟨⟨around, last⟩, reached, made⟩ := bind_eq_ok.mp made
  cases last with
  | none =>
    cases made
    exact .inl ⟨around, reached, rfl⟩
  | some name =>
    refine .inr ⟨around, name, reached, ?_⟩
    dsimp only at made
    by_cases dots : name = ['.', '.']
    · rw [if_pos dots] at made
      cases made
      exact ⟨.refl d, fun solid => absurd dots solid⟩
    · rw [if_neg dots] at made
      by_cases long : longestName < utf8Length name
      · rw [if_pos long] at made
        cases made
      · rw [if_neg long] at made
        have short := Nat.le_of_not_lt long
        by_cases there : d.isFolder (around ++ [name]) = true
        · rw [if_pos there] at made
          cases made
          exact ⟨.refl d, fun _ => ⟨short, there⟩⟩
        · rw [if_neg there] at made
          split at made
          · cases made
          · cases made
            obtain ⟨grows, added⟩ := grows_with (d := d) (around ++ [name])
            exact ⟨grows, fun _ => ⟨short, added⟩⟩

/-- After a folder was added it is held, whether it is new or was there already. -/
theorem addFolder_ok {p : Path} (made : d.addFolder p = .ok e) :
    d.Grows e ∧ e.Holds p ∧ e.addFolder p = .ok e := by
  obtain ⟨around, reached, rfl⟩ | ⟨around, name, reached, grows, there⟩ := addFolder_cases made
  · have bare : p.names = [] := List.getLast?_eq_none_iff.mp (approach_eq_ok.mp reached).2.2.2
    refine ⟨.refl e, ?_, made⟩
    rw [Holds, Path.place, bare]
    rfl
  · have after := grows.approach reached
    exact ⟨grows, holds_of_approach after there, addFolder_approached after there⟩

theorem settle_grows {tried : Except DiskError Disk} (grows : ∀ e, tried = .ok e → d.Grows e) :
    d.Grows (d.settle tried).2 := by
  cases tried with
  | error cause => exact .refl d
  | ok e => exact grows e rfl

theorem addFolder_grows (p : Path) : d.Grows (d.settle (d.addFolder p)).2 :=
  settle_grows fun _ made => (addFolder_ok made).1

/-- Also where a folder cannot be made, nothing is lost. -/
theorem ensureUpTo_grows (d : Disk) (p : Path) (k : Nat) : d.Grows (d.ensureUpTo p k).2 := by
  induction k with
  | zero => exact addFolder_grows _
  | succ k ih =>
    rw [ensureUpTo]
    split
    · split
      · rename_i between around
        rw [around] at ih
        exact ih.trans (addFolder_grows _)
      · exact ih
    · exact addFolder_grows _

theorem settle_eq_ok {tried : Except DiskError Disk} :
    d.settle tried = (.ok (), e) ↔ tried = .ok e := by
  cases tried with
  | error cause => simp [settle]
  | ok made => simp [settle]

/-- A folder was made by an attempt that succeeded, the first or the second one. -/
theorem ensureUpTo_ok {p : Path} {k : Nat} (made : d.ensureUpTo p k = (.ok (), e)) :
    ∃ between, d.Grows between ∧ between.addFolder (p.upTo k) = .ok e := by
  cases k with
  | zero => exact ⟨d, .refl d, settle_eq_ok.mp made⟩
  | succ k =>
    rw [ensureUpTo] at made
    split at made
    · split at made
      · rename_i between around
        have grows := ensureUpTo_grows d p k
        rw [around] at grows
        exact ⟨between, grows, settle_eq_ok.mp made⟩
      · rename_i failed
        exact absurd made (failed e)
    · exact ⟨d, .refl d, settle_eq_ok.mp made⟩

theorem Path.upTo_length (p : Path) : p.upTo p.names.length = p := by
  rw [Path.upTo, List.take_length]

theorem ensureFolder_grows (d : Disk) (p : Path) : d.Grows (d.ensureFolder p).2 :=
  ensureUpTo_grows d p p.names.length

theorem ensureFolder_holds {p : Path} (made : d.ensureFolder p = (.ok (), e)) : e.Holds p := by
  obtain ⟨between, -, added⟩ := ensureUpTo_ok made
  rw [Path.upTo_length] at added
  exact (addFolder_ok added).2.1

/-- A folder that was made is there when it is to be made again. -/
theorem ensureFolder_again {p : Path} (made : d.ensureFolder p = (.ok (), e)) :
    e.ensureFolder p = (.ok (), e) := by
  obtain ⟨between, -, added⟩ := ensureUpTo_ok made
  have again := (addFolder_ok added).2.2
  rw [ensureFolder]
  cases count : p.names.length with
  | zero =>
    rw [count] at again
    exact settle_eq_ok.mpr again
  | succ k =>
    rw [count] at again
    rw [ensureUpTo, again]
    rfl

end Disk

end ChordSymbols
