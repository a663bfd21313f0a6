import ChordSymbols.Disk
import ChordSymbols.Proofs.Outcome

/-!
# The place a path leads to

Following a name leads into the folder around, for two dots, or down to what has
that name. A row of names comes to a course that is the same from everywhere: so
many steps up, then some names down. A path that a disk finds a place for leads
there. Whether it stays below the folder it starts from is read off its course.
-/

namespace ChordSymbols

def Place.enter (place : Place) (name : Text) : Place :=
  if name = ['.', '.'] then place.dropLast else place ++ [name]

/-- Follows names whether or not there is something there; the root is around itself. -/
def Place.walk (place : Place) (names : List Text) : Place :=
  names.foldl Place.enter place

theorem Place.enter_name {name : Text} (solid : name ≠ ['.', '.']) (place : Place) :
    place.enter name = place ++ [name] :=
  if_neg solid

theorem Place.walk_cons (place : Place) (n : Text) (ns : List Text) :
    place.walk (n :: ns) = (place.enter n).walk ns := rfl

theorem Place.walk_append (place : Place) (ms ns : List Text) :
    place.walk (ms ++ ns) = (place.walk ms).walk ns :=
  List.foldl_append

/-- The place of a path, for a relative one from a given folder. -/
def Path.place (here : Place) (p : Path) : Place :=
  Place.walk (p.origin here) p.names

/-- Strictly below a folder. -/
def Place.Below (folder place : Place) : Prop :=
  folder <+: place ∧ folder ≠ place

instance (folder place : Place) : Decidable (folder.Below place) :=
  inferInstanceAs (Decidable (folder <+: place ∧ folder ≠ place))

theorem Path.place_join (here : Place) (p q : Path) :
    (p.join q).place here =
      if q.slashes = 0 then (p.place here).walk q.names else Place.walk [] q.names := by
  rw [Path.join]
  by_cases relative : q.slashes = 0
  · rw [if_pos relative, if_pos relative]
    exact Place.walk_append _ p.names q.names
  · rw [if_neg relative, if_neg relative, Path.place, Path.origin, if_neg relative]

theorem Place.below_append (common folder place : Place) :
    Place.Below (common ++ folder) (common ++ place) ↔ Place.Below folder place := by
  rw [Place.Below, Place.Below, List.prefix_append_right_inj, ne_eq, List.append_cancel_left_eq]

/-- Steps up, then names down. -/
structure Course where
  up : Nat
  down : List Text
deriving DecidableEq, Repr

namespace Course

/-- Two dots undo the last step down, where there is one. -/
def enter (c : Course) (name : Text) : Course :=
  if name = ['.', '.'] then
    if c.down = [] then ⟨c.up + 1, []⟩ else ⟨c.up, c.down.dropLast⟩
  else ⟨c.up, c.down ++ [name]⟩

def ofNames (names : List Text) : Course :=
  names.foldl enter ⟨0, []⟩

/-- Where a course leads; above the root there is no further step up. -/
def leadsTo (c : Course) (place : Place) : Place :=
  place.take (place.length - c.up) ++ c.down

theorem leadsTo_enter (c : Course) (place : Place) (name : Text) :
    (c.enter name).leadsTo place = (c.leadsTo place).enter name := by
  rw [enter, Place.enter]
  by_cases dots : name = ['.', '.']
  · rw [if_pos dots, if_pos dots]
    by_cases bottom : c.down = []
    · rw [if_pos bottom, leadsTo, leadsTo, bottom, List.append_nil, List.append_nil,
        List.dropLast_eq_take, List.take_take, List.length_take]
      congr 1
      show place.length - (c.up + 1) = _
      omega
    · rw [if_neg bottom, leadsTo, leadsTo, List.dropLast_append_of_ne_nil bottom]
  · rw [if_neg dots, if_neg dots, leadsTo, leadsTo, List.append_assoc]

theorem leadsTo_foldl (names : List Text) (c : Course) (place : Place) :
    (names.foldl enter c).leadsTo place = (c.leadsTo place).walk names := by
  induction names generalizing c with
  | nil => rfl
  | cons n ns ih =>
    calc ((n :: ns).foldl enter c).leadsTo place
      _ = ((c.enter n).leadsTo place).walk ns := ih (c.enter n)
      _ = ((c.leadsTo place).enter n).walk ns := by rw [leadsTo_enter]
      _ = (c.leadsTo place).walk (n :: ns) := rfl

/-- Names lead where their course leads. -/
theorem leadsTo_ofNames (names : List Text) (place : Place) :
    (ofNames names).leadsTo place = place.walk names := by
  have start : (⟨0, []⟩ : Course).leadsTo place = place := by simp [leadsTo]
  rw [ofNames, leadsTo_foldl, start]

theorem ofNames_concat {name : Text} (solid : name ≠ ['.', '.']) (names : List Text) :
    (ofNames (names ++ [name])).down ≠ [] := by
  rw [ofNames, List.foldl_append, List.foldl_cons, List.foldl_nil, enter, if_neg solid]
  exact List.append_ne_nil_of_right_ne_nil _ (List.cons_ne_nil name [])

/-- A course leads below the folder that it starts from exactly if it comes down again, and
further, along the names that it went up. -/
theorem below_leadsTo (c : Course) (folder : Place) :
    folder.Below (c.leadsTo folder) ↔
      Place.Below (folder.drop (folder.length - c.up)) c.down := by
  have parted := List.take_append_drop (folder.length - c.up) folder
  calc folder.Below (c.leadsTo folder)
    _ ↔ Place.Below (folder.take (folder.length - c.up) ++ folder.drop (folder.length - c.up))
          (folder.take (folder.length - c.up) ++ c.down) := by rw [parted, leadsTo]
    _ ↔ Place.Below (folder.drop (folder.length - c.up)) c.down := Place.below_append _ _ _

/-- A course that never goes up stays below every folder. -/
theorem below_of_down {c : Course} (level : c.up = 0) (further : c.down ≠ []) (folder : Place) :
    folder.Below (c.leadsTo folder) := by
  rw [below_leadsTo, level, Nat.sub_zero, List.drop_length]
  exact ⟨List.nil_prefix, fun same => further same.symm⟩

end Course

namespace Disk

variable {disk : Disk} {whole : Text}

theorem follow_walks {place found : Place} {names : List Text}
    (followed : disk.follow whole place names = .ok found) : found = place.walk names := by
  induction names generalizing place with
  | nil =>
    cases followed
    rfl
  | cons n ns ih =>
    rw [follow] at followed
    by_cases dots : n = ['.', '.']
    · rw [if_pos dots] at followed
      rw [Place.walk_cons, Place.enter, if_pos dots]
      exact ih followed
    · rw [if_neg dots] at followed
      split at followed
      · cases followed
      · dsimp only at followed
        split at followed
        · rw [Place.walk_cons, Place.enter_name dots]
          exact ih followed
        · split at followed
          · cases followed
          · cases followed

theorem approach_eq_ok {p : Path} {around : Place} {last : Option Text} :
    disk.approach p = .ok (around, last) ↔
      Char.ofNat 0 ∉ p.text ∧ utf8Length p.text ≤ longestPath ∧
        disk.follow p.text (p.origin disk.here) p.names.dropLast = .ok around ∧
        p.names.getLast? = last := by
  rw [approach]
  by_cases zero : p.text.contains (Char.ofNat 0) = true
  · rw [if_pos zero]
    have held : Char.ofNat 0 ∈ p.text := List.contains_iff_mem.mp zero
    exact ⟨(nomatch ·), fun met => absurd held met.1⟩
  · rw [if_neg zero]
    have free : Char.ofNat 0 ∉ p.text := fun held => zero (List.contains_iff_mem.mpr held)
    by_cases long : longestPath < utf8Length p.text
    · rw [if_pos long]
      exact ⟨(nomatch ·), fun met => absurd long (Nat.not_lt.mpr met.2.1)⟩
    · rw [if_neg long]
      constructor
      · intro reached
        obtain ⟨found, followed, same⟩ := bind_eq_ok.mp reached
        cases same
        exact ⟨free, Nat.le_of_not_lt long, followed, rfl⟩
      · rintro ⟨-, -, followed, rfl⟩
        exact bind_eq_ok.mpr ⟨around, followed, rfl⟩

/-- Entering the last name from the folder around it, one gets to the place of the path. -/
theorem place_of_approach {p : Path} {around : Place} {name : Text}
    (reached : disk.approach p = .ok (around, some name)) :
    p.place disk.here = around.enter name := by
  obtain ⟨-, -, followed, last⟩ := approach_eq_ok.mp reached
  obtain ⟨front, parted⟩ := List.getLast?_eq_some_iff.mp last
  rw [parted, List.dropLast_concat] at followed
  rw [Path.place, parted, Place.walk_append, ← follow_walks followed]
  rfl

/-- What a disk finds for a path is the place that the path leads to. -/
theorem locate_place {p : Path} {place : Place} (located : disk.locate p = .ok place) :
    place = p.place disk.here := by
  rw [locate] at located
  obtain ⟨⟨around, last⟩, reached, found⟩ := bind_eq_ok.mp located
  cases last with
  | none => cases found
  | some name =>
    dsimp only at found
    by_cases taken : name = ['.', '.'] ∨ disk.isFolder (around ++ [name]) = true
    · rw [if_pos taken] at found
      cases found
    · rw [if_neg taken] at found
      by_cases long : longestName < utf8Length name
      · rw [if_pos long] at found
        cases found
      · rw [if_neg long] at found
        cases found
        have solid : name ≠ ['.', '.'] := fun dots => taken (Or.inl dots)
        rw [place_of_approach reached, Place.enter_name solid]

end Disk

end ChordSymbols
