import ChordSymbols.Proofs.Tool.Exporting

/-!
# Where an export writes

The name of an export is joined to the output folder as it is, so that it may
begin at the root or go up. The names that stay below whatever folder they are
exported to are those that do neither; for the others it depends on the folder,
and some leave it.
-/

namespace ChordSymbols

/-- The path of an exported file, as it is seen from the output folder. -/
def exportFile (name : Text) : Path :=
  Path.ofText (name ++ ".mid".toList)

/-- The steps of that path, from where it begins. -/
def exportCourse (name : Text) : Course :=
  Course.ofNames (exportFile name).names

theorem exportPath_eq (folder : Path) (name : Text) :
    exportPath folder name = folder.join (exportFile name) := rfl

/-- Exported to a folder, the file is strictly below it. -/
def StaysBelow (folder : Path) (here : Place) (name : Text) : Prop :=
  (folder.place here).Below ((folder.join (exportFile name)).place here)

/-- The last name of the file is not two dots, since it has an ending. -/
theorem exportCourse_down_ne_nil (name : Text) : (exportCourse name).down ≠ [] := by
  have whole : '/' ∉ ".mid".toList := by decide
  have long : 2 ≤ ".mid".toList.length := by decide
  obtain ⟨front, last, names⟩ := Path.names_ofText_append whole long name
  have solid : last ++ ".mid".toList ≠ ['.', '.'] := by
    intro dots
    have sizes := congrArg List.length dots
    have four : ".mid".toList.length = 4 := by decide
    rw [List.length_append, four] at sizes
    simp at sizes
  rw [exportCourse, exportFile, names]
  exact Course.ofNames_concat solid front

/-- From the root a course leads to its names. -/
theorem walk_root (names : List Text) : Place.walk [] names = (Course.ofNames names).down := by
  rw [← Course.leadsTo_ofNames]
  simp [Course.leadsTo]

theorem place_exported (folder : Path) (here : Place) (name : Text) :
    (folder.join (exportFile name)).place here =
      if (exportFile name).slashes = 0 then (exportCourse name).leadsTo (folder.place here)
      else (exportCourse name).down := by
  rw [Path.place_join, exportCourse, Course.leadsTo_ofNames, walk_root]

/-- Whether an exported file stays below a folder is read off the course of its name. -/
theorem staysBelow_iff (folder : Path) (here : Place) (name : Text) :
    StaysBelow folder here name ↔
      if (exportFile name).slashes = 0 then
        Place.Below ((folder.place here).drop ((folder.place here).length - (exportCourse name).up))
          (exportCourse name).down
      else (folder.place here).Below (exportCourse name).down := by
  rw [StaysBelow, place_exported]
  by_cases relative : (exportFile name).slashes = 0
  · simp only [relative, if_true]
    exact Course.below_leadsTo _ _
  · simp only [relative, if_false]

/-- The names that stay below every folder neither begin at the root nor go up. -/
theorem staysBelow_always_iff (name : Text) :
    (∀ folder here, StaysBelow folder here name) ↔
      (exportFile name).slashes = 0 ∧ (exportCourse name).up = 0 := by
  constructor
  · intro stays
    by_cases relative : (exportFile name).slashes = 0
    · refine ⟨relative, ?_⟩
      by_contra climbs
      obtain ⟨first, rest, down⟩ := List.exists_cons_of_ne_nil (exportCourse_down_ne_nil name)
      -- From a folder at the root that has another name, one step up is a step out of it.
      have out := (staysBelow_iff ⟨0, []⟩ [first ++ ['x']] name).mp (stays _ _)
      have place : (⟨0, []⟩ : Path).place [first ++ ['x']] = [first ++ ['x']] := rfl
      have top : [first ++ ['x']].length - (exportCourse name).up = 0 := by
        rw [List.length_singleton]
        omega
      rw [if_pos relative, place, top, List.drop_zero, down] at out
      have same : first ++ ['x'] = first := (List.cons_prefix_cons.mp out.1).1
      simp at same
    · -- A file at the root is not below itself.
      have out := (staysBelow_iff (exportFile name) [] name).mp (stays _ _)
      have place : (exportFile name).place [] = (exportCourse name).down := by
        rw [Path.place, Path.origin, if_neg relative, walk_root]
        rfl
      rw [if_neg relative, place] at out
      exact absurd rfl out.2
  · rintro ⟨relative, level⟩ folder here
    rw [StaysBelow, place_exported, if_pos relative]
    exact Course.below_of_down level (exportCourse_down_ne_nil name) _

/-- An export that has a track to write stays below its folder exactly if its name does: one that
does not begin at the root, if it comes down again along the names of the folder as far as it goes
up, and further. The names that stay below every folder are those that do not even go up. -/
theorem export_stays_below_iff {progression tonic tempo name : Value} {beats : Quantity}
    {d : Document} {chords : List Chord} {track : Track}
    (made : (exportedTrack progression tonic tempo beats name).outcome = .ok (d, chords, track)) :
    name = .text d.name ∧
      (∀ folder, exportPath folder d.name = folder.join (exportFile d.name)) ∧
      (∀ folder (disk : Disk) place, disk.locate (exportPath folder d.name) = .ok place →
        place = (exportPath folder d.name).place disk.here) ∧
      (∀ folder here, StaysBelow folder here d.name ↔
        if (exportFile d.name).slashes = 0 then
          Place.Below
            ((folder.place here).drop ((folder.place here).length - (exportCourse d.name).up))
            (exportCourse d.name).down
        else (folder.place here).Below (exportCourse d.name).down) ∧
      ((∀ folder here, StaysBelow folder here d.name) ↔
        (exportFile d.name).slashes = 0 ∧ (exportCourse d.name).up = 0) := by
  obtain ⟨⟨named, -⟩, -⟩ := exportedTrack_eq_ok.mp made
  refine ⟨named, fun folder => exportPath_eq folder d.name, ?_, ?_, staysBelow_always_iff d.name⟩
  · intro folder disk place located
    exact Disk.locate_place located
  · intro folder here
    exact staysBelow_iff folder here d.name

/-- A name that goes down before it goes up stays below every folder. -/
theorem export_stays_below_iff_down_first :
    ∃ track, (exportedTrack (.text ['1']) (.text ['C']) (.whole 120) (.whole 1)
        (.text ['a', '/', '.', '.', '/', 'b'])).outcome =
          .ok (⟨['a', '/', '.', '.', '/', 'b'], ['C'], 120, [['1']]⟩,
            [⟨.ionian, .one, none, none⟩], track) ∧
      ∀ folder here, StaysBelow folder here ['a', '/', '.', '.', '/', 'b'] := by
  have named : ['a', '/', '.', '.', '/', 'b'] ≠ [] := by decide
  obtain ⟨track, made, -⟩ := exportedTrack_one_beat named
  obtain ⟨-, -, -, -, always⟩ := export_stays_below_iff made
  exact ⟨track, made, always.mpr (by decide)⟩

/-- A name that goes up first leaves its folder, and the file is written outside. -/
theorem export_leaves_folder :
    ∃ reply after, exportMidiReply (Path.ofText ['o', 'u', 't']) (.text ['1']) (.text ['C'])
        (.whole 120) (.whole 1) (.text ['.', '.', '/', 'x']) {} = (reply, after) ∧
      reply.Succeeds ∧
      (∃ bytes, after.file? [['x', '.', 'm', 'i', 'd']] = some bytes) ∧
      ¬ StaysBelow (Path.ofText ['o', 'u', 't']) [] ['.', '.', '/', 'x'] := by
  have named : ['.', '.', '/', 'x'] ≠ [] := by decide
  obtain ⟨track, made, size⟩ := exportedTrack_one_beat named
  obtain ⟨bytes, encoded⟩ := Track.file_ok (closed_of_exportedTrack made) size
  have opened : ({} : Disk).ensureFolder (Path.ofText ['o', 'u', 't']) =
    (.ok (), ⟨[], [[['o', 'u', 't']]], []⟩) := rfl
  have located : (⟨[], [[['o', 'u', 't']]], []⟩ : Disk).locate
      (exportPath (Path.ofText ['o', 'u', 't']) ['.', '.', '/', 'x']) =
    .ok [['x', '.', 'm', 'i', 'd']] := rfl
  have done := Disk.writeTrack_ok opened located encoded
  obtain ⟨reply, replied, answered⟩ := exportMidiReply_written made done
  refine ⟨reply, _, replied, Reply.succeeds_of_success answered, ⟨bytes, ?_⟩, ?_⟩
  · rw [Disk.file?_put, if_pos rfl]
  · rw [StaysBelow]
    decide

end ChordSymbols
