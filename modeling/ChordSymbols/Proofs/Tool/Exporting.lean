import ChordSymbols.Proofs.Disk.Folder
import ChordSymbols.Proofs.Disk.Path
import ChordSymbols.Proofs.Document.Playing
import ChordSymbols.Proofs.Playback.ReadBack
import ChordSymbols.Proofs.Tool.Reply
import ChordSymbols.Tool.Export

/-!
# What an export writes

An export opens its file only when its track is built, and a track of the
default resolution that is not too long is always put into bytes. So no export
leaves an empty file behind: one that fails leaves all files as they were, and
one that succeeds changes a single file, at the path that it reports.
-/

namespace ChordSymbols

theorem outcome_textOr_eq_ok {wording : String → String} {v : Value} {t : Text} :
    (textOr wording v).outcome = .ok t ↔ v = .text t := by
  unfold textOr
  split
  · constructor
    · intro same
      cases same
      rfl
    · rintro ⟨⟩
      rfl
  · rename_i other
    constructor
    · intro failed
      cases failed
    · intro same
      exact absurd same (other t)

section Made

variable {progression tonic tempo name : Value} {beats : Quantity} {d : Document}
  {chords : List Chord} {track : Track}

theorem exportDocument_eq_ok :
    (exportDocument progression name tonic tempo).outcome = .ok d ↔
      ∃ t, progression = .text t ∧
        (Draft.ofProgression t name tonic tempo).validate.outcome = .ok d := by
  rw [exportDocument, Run.outcome_bind]
  constructor
  · intro made
    obtain ⟨t, given, valid⟩ := bind_eq_ok.mp made
    exact ⟨t, outcome_textOr_eq_ok.mp given, mapError_eq_ok.mp valid⟩
  · rintro ⟨t, rfl, valid⟩
    exact bind_eq_ok.mpr ⟨t, rfl, mapError_eq_ok.mpr valid⟩

theorem documentTrack_eq_ok :
    (documentTrack d beats).outcome = .ok (chords, track) ↔
      d.compile.outcome = .ok chords ∧ ∃ p, PitchClass.parse d.tonic = .ok p ∧
        progressionTrack { beats := beats } (.whole d.tempo) p chords = .ok track := by
  simp only [documentTrack, unforeseenIn, Run.outcome_bind]
  constructor
  · intro made
    obtain ⟨cs, compiled, made⟩ := bind_eq_ok.mp made
    obtain ⟨p, keyed, made⟩ := bind_eq_ok.mp made
    obtain ⟨built, played, made⟩ := bind_eq_ok.mp made
    cases made
    exact ⟨mapError_eq_ok.mp compiled, p, mapError_eq_ok.mp keyed, mapError_eq_ok.mp played⟩
  · rintro ⟨compiled, p, keyed, played⟩
    refine bind_eq_ok.mpr ⟨chords, mapError_eq_ok.mpr compiled, ?_⟩
    refine bind_eq_ok.mpr ⟨p, mapError_eq_ok.mpr keyed, ?_⟩
    exact bind_eq_ok.mpr ⟨track, mapError_eq_ok.mpr played, rfl⟩

/-- What an export makes before it touches the disk. -/
def exportedTrack (progression tonic tempo : Value) (beats : Quantity) (name : Value) :
    Run Refusal (Document × List Chord × Track) := do
  let d ← exportDocument progression name tonic tempo
  let (chords, track) ← documentTrack d beats
  return (d, chords, track)

/-- An export has a track to write exactly for the text of a progression that has symbols and
compiles strictly, a name, a tonic, a tempo in its bounds, and beats in which the chords play. -/
theorem exportedTrack_eq_ok :
    (exportedTrack progression tonic tempo beats name).outcome = .ok (d, chords, track) ↔
      (name = .text d.name ∧ d.name ≠ []) ∧ tempoOfValue tempo = .ok d.tempo ∧
      ∃ t r p, progression = .text t ∧ tonic = .text d.tonic ∧
        PitchClass.parse d.tonic = .ok p ∧
        d.chords = splitProgression t ∧ d.chords ≠ [] ∧
        (compileProgression true t).outcome = .ok r ∧ r.chords = chords ∧
        progressionTrack { beats := beats } (.whole d.tempo) p chords = .ok track := by
  rw [exportedTrack, Run.outcome_bind]
  constructor
  · intro made
    obtain ⟨d', documented, made⟩ := bind_eq_ok.mp made
    rw [Run.outcome_bind] at made
    obtain ⟨⟨cs, built⟩, tracked, made⟩ := bind_eq_ok.mp made
    cases made
    obtain ⟨t, given, valid⟩ := exportDocument_eq_ok.mp documented
    obtain ⟨named, ⟨key, -⟩, pace, filled, r, compiled, listed⟩ :=
      validate_ofProgression_eq_ok.mp valid
    obtain ⟨symbols, parsed, -⟩ := compileProgression_true_ok compiled
    obtain ⟨again, p, keyed, played⟩ := documentTrack_eq_ok.mp tracked
    rw [Document.outcome_compile, ← listed, symbols, parsed] at again
    cases again
    refine ⟨named, pace, t, r, p, given, key, keyed, listed.symm.trans symbols, ?_, compiled, rfl,
      played⟩
    rwa [← listed, symbols]
  · rintro ⟨named, pace, t, r, p, rfl, key, keyed, listed, filled, compiled, rfl, played⟩
    obtain ⟨symbols, parsed, -⟩ := compileProgression_true_ok compiled
    have valid : (Draft.ofProgression t name tonic tempo).validate.outcome = .ok d :=
      validate_ofProgression_eq_ok.mpr
        ⟨named, ⟨key, p, keyed⟩, pace, listed ▸ filled, r, compiled, symbols.trans listed.symm⟩
    have again : d.compile.outcome = .ok r.chords := by
      rw [Document.outcome_compile, listed, parsed]
    refine bind_eq_ok.mpr ⟨d, exportDocument_eq_ok.mpr ⟨t, rfl, valid⟩, ?_⟩
    rw [Run.outcome_bind]
    exact bind_eq_ok.mpr
      ⟨(r.chords, track), documentTrack_eq_ok.mpr ⟨again, p, keyed, played⟩, rfl⟩

end Made

theorem readable_exportPath {folder : Path} (readable : folder.Readable) (name : Text) :
    (exportPath folder name).Readable :=
  readable.join (Path.readable_ofText (name ++ ".mid".toList))

/-- The track of an export is written as it is. -/
theorem closed_of_exportedTrack {progression tonic tempo name : Value} {beats : Quantity}
    {d : Document} {chords : List Chord} {track : Track}
    (made : (exportedTrack progression tonic tempo beats name).outcome = .ok (d, chords, track)) :
    track.closed = track := by
  obtain ⟨-, -, t, r, p, -, -, -, -, -, -, -, played⟩ := exportedTrack_eq_ok.mp made
  obtain ⟨events, -, built⟩ := bind_eq_ok.mp played
  exact Track.closed_of_built (mapError_eq_ok.mp built)

namespace Disk

variable {disk : Disk}

theorem writeTrack_ok {folder path : Path} {track : Track} {opened : Disk} {place : Place}
    {bytes : List UInt8} (made : disk.ensureFolder folder = (.ok (), opened))
    (located : opened.locate path = .ok place)
    (encoded : track.file defaultTicksPerBeat = .ok bytes) :
    disk.writeTrack folder path track = (.ok (), opened.put place bytes) := by
  simp only [writeTrack, made, located, encoded]

/-- Writing a track comes to nothing but new folders, or to the file at its path. -/
theorem writeTrack_cases (disk : Disk) (folder path : Path) (track : Track) :
    (∃ message opened, disk.writeTrack folder path track = (.error message, opened) ∧
      disk.Grows opened) ∨
    ∃ opened, disk.Grows opened ∧ disk.writeTrack folder path track =
      match track.file defaultTicksPerBeat with
      | .error e => (.error e.message, opened.put (path.place disk.here) [])
      | .ok bytes => (.ok (), opened.put (path.place disk.here) bytes) := by
  have grows := ensureFolder_grows disk folder
  rw [writeTrack]
  generalize disk.ensureFolder folder = attempt at grows ⊢
  obtain ⟨made, opened⟩ := attempt
  cases made with
  | error e => exact .inl ⟨_, _, rfl, grows⟩
  | ok =>
    dsimp only at grows ⊢
    cases located : opened.locate path with
    | error e => exact .inl ⟨_, _, rfl, grows⟩
    | ok place =>
      have leads : place = path.place disk.here := by rw [locate_place located, grows.here]
      subst leads
      exact .inr ⟨opened, grows, rfl⟩

theorem Grows.file?_eq {opened : Disk} (grows : disk.Grows opened) (q : Place) :
    opened.file? q = disk.file? q := by
  rw [file?, file?, grows.files]

/-- A track that can be put into bytes leaves the files alone, or is the one file that changes. -/
theorem writeTrack_encoded {folder path : Path} {track : Track} {bytes : List UInt8}
    (encoded : track.file defaultTicksPerBeat = .ok bytes) :
    (∃ message after, disk.writeTrack folder path track = (.error message, after) ∧
      after.files = disk.files) ∨
    ∃ after, disk.writeTrack folder path track = (.ok (), after) ∧
      ∀ q, after.file? q = if q = path.place disk.here then some bytes else disk.file? q := by
  rcases writeTrack_cases disk folder path track with
    ⟨message, opened, failed, grows⟩ | ⟨opened, grows, written⟩
  · exact .inl ⟨message, opened, failed, grows.files⟩
  · rw [encoded] at written
    refine .inr ⟨_, written, fun q => ?_⟩
    rw [file?_put, grows.file?_eq]

/-- No file but the one at the path changes, whether or not the track can be put into bytes. -/
theorem writeTrack_elsewhere (disk : Disk) (folder path : Path) (track : Track) :
    (disk.writeTrack folder path track).2.here = disk.here ∧
      ∀ q, q ≠ path.place disk.here →
        (disk.writeTrack folder path track).2.file? q = disk.file? q := by
  rcases writeTrack_cases disk folder path track with
    ⟨message, opened, failed, grows⟩ | ⟨opened, grows, written⟩
  · rw [failed]
    exact ⟨grows.here, fun q _ => grows.file?_eq q⟩
  · have put (bytes : List UInt8) : (opened.put (path.place disk.here) bytes).here = disk.here ∧
        ∀ q, q ≠ path.place disk.here →
          (opened.put (path.place disk.here) bytes).file? q = disk.file? q := by
      refine ⟨grows.here, fun q other => ?_⟩
      rw [file?_put, if_neg other, grows.file?_eq]
    rw [written]
    cases track.file defaultTicksPerBeat with
    | error e => exact put []
    | ok bytes => exact put bytes

end Disk

/-- A track of the default resolution is put into bytes if it is not too long. -/
theorem Track.file_ok {track : Track} (whole : track.closed = track)
    (short : (trackBytes none track).length < 2 ^ 32) :
    ∃ bytes, track.file defaultTicksPerBeat = .ok bytes := by
  rw [← whole] at short
  exact ⟨_, Track.file_eq_ok.mpr ⟨by decide, short, rfl⟩⟩

section Reply

variable {folder : Path} {progression tonic tempo name : Value} {beats : Quantity} {disk : Disk}

/-- The answer to a file that was written, with its path and the number of its chords. -/
def exportedAnswer (path : Path) (count : Nat) : Value :=
  success [("path", .text path.text), ("chords", .whole count),
    ("message", .ofString (exportedMessage count path.text))]

theorem exportMidi_eq :
    exportMidi folder progression tonic tempo beats name disk =
      match (exportedTrack progression tonic tempo beats name).outcome with
      | .error r => (⟨(exportedTrack progression tonic tempo beats name).records, .error r⟩, disk)
      | .ok (d, chords, track) =>
        (⟨(exportedTrack progression tonic tempo beats name).records,
          ((disk.writeTrack folder (exportPath folder d.name) track).1.map fun _ =>
            exportedAnswer (exportPath folder d.name) chords.length).mapError .unforeseen⟩,
          (disk.writeTrack folder (exportPath folder d.name) track).2) := rfl

/-- An export without a track to write leaves the disk alone. -/
theorem exportMidiReply_refused {r : Refusal}
    (refused : (exportedTrack progression tonic tempo beats name).outcome = .error r) :
    ∃ reply, exportMidiReply folder progression tonic tempo beats name disk = (reply, disk) ∧
      reply.Fails := by
  have exported : exportMidi folder progression tonic tempo beats name disk =
      (⟨(exportedTrack progression tonic tempo beats name).records, .error r⟩, disk) := by
    rw [exportMidi_eq, refused]
  rw [exportMidiReply, exported]
  exact ⟨_, rfl, Reply.fails_of_refused (Run.answer_error rfl)⟩

section Made

variable {d : Document} {chords : List Chord} {track : Track} {after : Disk}

theorem exportMidiReply_unwritten {message : String}
    (made : (exportedTrack progression tonic tempo beats name).outcome = .ok (d, chords, track))
    (failed : disk.writeTrack folder (exportPath folder d.name) track = (.error message, after)) :
    ∃ reply, exportMidiReply folder progression tonic tempo beats name disk = (reply, after) ∧
      reply.Fails := by
  have exported : exportMidi folder progression tonic tempo beats name disk =
      (⟨(exportedTrack progression tonic tempo beats name).records,
        .error (.unforeseen message)⟩, after) := by
    rw [exportMidi_eq, made]
    simp only [failed]
    rfl
  rw [exportMidiReply, exported]
  exact ⟨_, rfl, Reply.fails_of_refused (Run.answer_error rfl)⟩

theorem exportMidiReply_written
    (made : (exportedTrack progression tonic tempo beats name).outcome = .ok (d, chords, track))
    (done : disk.writeTrack folder (exportPath folder d.name) track = (.ok (), after)) :
    ∃ reply, exportMidiReply folder progression tonic tempo beats name disk = (reply, after) ∧
      reply.answer = exportedAnswer (exportPath folder d.name) chords.length := by
  have exported : exportMidi folder progression tonic tempo beats name disk =
      (⟨(exportedTrack progression tonic tempo beats name).records,
        .ok (exportedAnswer (exportPath folder d.name) chords.length)⟩, after) := by
    rw [exportMidi_eq, made]
    simp only [done]
    rfl
  rw [exportMidiReply, exported]
  exact ⟨_, rfl, Run.answer_ok rfl⟩

/-- An export leaves all files as they were but the one that has its name. -/
theorem exportMidiReply_elsewhere (folder : Path) (progression tonic tempo : Value)
    (beats : Quantity) (name : Value) (disk : Disk) :
    (exportMidiReply folder progression tonic tempo beats name disk).2.here = disk.here ∧
      ∀ q, (∀ title, name = .text title → q ≠ (exportPath folder title).place disk.here) →
        (exportMidiReply folder progression tonic tempo beats name disk).2.file? q =
          disk.file? q := by
  cases made : (exportedTrack progression tonic tempo beats name).outcome with
  | error r =>
    obtain ⟨reply, replied, -⟩ := exportMidiReply_refused made
    rw [replied]
    exact ⟨rfl, fun q _ => rfl⟩
  | ok whole =>
    obtain ⟨d, chords, track⟩ := whole
    obtain ⟨⟨named, -⟩, -⟩ := exportedTrack_eq_ok.mp made
    have written : (exportMidiReply folder progression tonic tempo beats name disk).2 =
        (disk.writeTrack folder (exportPath folder d.name) track).2 := by
      rw [exportMidiReply, exportMidi_eq, made]
    obtain ⟨here, kept⟩ := disk.writeTrack_elsewhere folder (exportPath folder d.name) track
    rw [written]
    exact ⟨here, fun q other => kept q (other d.name named)⟩

end Made

/-- An export into any folder fails and leaves all files as they were, or it succeeds and changes
one: the one at the path that it reports now holds the track of the chords that the progression
compiles to, played at the given tonic, tempo and beats, and there are as many chords as symbols. -/
theorem export_all_or_nothing (output : Text) (disk : Disk)
    (short : ∀ d chords track,
      (exportedTrack progression tonic tempo beats name).outcome = .ok (d, chords, track) →
        (trackBytes none track).length < 2 ^ 32) :
    ∃ reply after,
      exportMidiReply (Path.ofText output) progression tonic tempo beats name disk =
        (reply, after) ∧
      (reply.Fails ∨ reply.Succeeds) ∧
      (reply.Fails → after.files = disk.files) ∧
      (reply.Succeeds → ∃ text key title pace p r track bytes reported,
        progression = .text text ∧ tonic = .text key ∧ name = .text title ∧
        tempoOfValue tempo = .ok pace ∧ PitchClass.parse key = .ok p ∧
        (compileProgression true text).outcome = .ok r ∧
        progressionTrack { beats := beats } (.whole pace) p r.chords = .ok track ∧
        track.file defaultTicksPerBeat = .ok bytes ∧
        reported = (exportPath (Path.ofText output) title).text ∧
        reply.answer.field? "path" = some (.text reported) ∧
        reply.answer.field? "chords" = some (.whole (splitProgression text).length) ∧
        ∀ q, after.file? q =
          if q = (Path.ofText reported).place disk.here then some bytes else disk.file? q) := by
  cases made : (exportedTrack progression tonic tempo beats name).outcome with
  | error r =>
    obtain ⟨reply, replied, fails⟩ := exportMidiReply_refused made
    exact ⟨reply, disk, replied, .inl fails, fun _ => rfl,
      fun succeeds => absurd succeeds fails.not_succeeds⟩
  | ok whole =>
    obtain ⟨d, chords, track⟩ := whole
    obtain ⟨bytes, encoded⟩ :=
      Track.file_ok (closed_of_exportedTrack made) (short d chords track made)
    rcases Disk.writeTrack_encoded encoded with ⟨message, after, failed, kept⟩ | ⟨after, done, holds⟩
    · obtain ⟨reply, replied, fails⟩ := exportMidiReply_unwritten made failed
      exact ⟨reply, after, replied, .inl fails, fun _ => kept,
        fun succeeds => absurd succeeds fails.not_succeeds⟩
    · obtain ⟨reply, replied, answered⟩ := exportMidiReply_written made done
      have succeeds := Reply.succeeds_of_success answered
      refine ⟨reply, after, replied, .inr succeeds, fun fails => absurd succeeds fails.not_succeeds,
        fun _ => ?_⟩
      obtain ⟨⟨rfl, -⟩, pace, text, r, p, rfl, rfl, keyed, -, -, compiled, rfl, played⟩ :=
        exportedTrack_eq_ok.mp made
      have count : r.chords.length = (splitProgression text).length :=
        compileProgression_true_length compiled
      refine ⟨text, d.tonic, d.name, d.tempo, p, r, track, bytes, _, rfl, rfl, rfl, pace, keyed,
        compiled, played, encoded, rfl, ?_, ?_, ?_⟩
      · rw [answered]
        rfl
      · rw [answered, ← count]
        rfl
      · intro q
        have readable := readable_exportPath (Path.readable_ofText output) d.name
        rw [readable.ofText_text]
        exact holds q

end Reply

/-- The track of one chord, a beat long. -/
theorem progressionTrack_one_beat :
    ∃ track, progressionTrack { beats := .whole 1 } (.whole 120) 0 [⟨.ionian, .one, none, none⟩] =
      .ok track ∧ (trackBytes none track).length = 32 := by
  have laid : progressionEvents { beats := .whole 1 } 0 [⟨.ionian, .one, none, none⟩] =
      .ok [⟨60, 0, 480, 101, 0⟩, ⟨64, 0, 480, 101, 0⟩, ⟨67, 0, 480, 101, 0⟩] :=
    progressionEvents_eq_ok.mpr ⟨rfl, 480, 101, rfl, defaultVelocity, by decide⟩
  have cues : cueList [⟨60, 0, 480, 101, 0⟩, ⟨64, 0, 480, 101, 0⟩, ⟨67, 0, 480, 101, 0⟩] =
      [⟨0, .noteOn 0 60 101⟩, ⟨0, .noteOn 0 64 101⟩, ⟨0, .noteOn 0 67 101⟩,
        ⟨480, .noteOff 0 60 0⟩, ⟨480, .noteOff 0 64 0⟩, ⟨480, .noteOff 0 67 0⟩] := by
    simp [cueList, NoteEvent.cues, NoteEvent.stop, List.mergeSort,
      List.MergeSort.Internal.splitInTwo, Cue.notAfter, Message.isNoteOff]
  obtain ⟨beat, fits⟩ := beatLength_ok (by decide : (4 : Int) ≤ 120)
  refine ⟨_, progressionTrack_eq_ok.mpr ⟨_, laid, bind_eq_ok.mpr ⟨beat, fits, rfl⟩⟩, ?_⟩
  have near : variableLength 0 = [0x00] := by simp [variableLength, leadingGroups]
  have far : variableLength 480 = [0x83, 0x60] := by simp [variableLength, leadingGroups]
  simp only [cues, deltas, List.cons_append, List.nil_append, Nat.sub_self, Nat.sub_zero,
    trackBytes, near, far]
  rfl

/-- One chord under any name. -/
theorem exportedTrack_one_beat {name : Text} (named : name ≠ []) :
    ∃ track, (exportedTrack (.text ['1']) (.text ['C']) (.whole 120) (.whole 1)
        (.text name)).outcome =
          .ok (⟨name, ['C'], 120, [['1']]⟩, [⟨.ionian, .one, none, none⟩], track) ∧
      (trackBytes none track).length < 2 ^ 32 := by
  obtain ⟨track, played, size⟩ := progressionTrack_one_beat
  refine ⟨track, ?_, by rw [size]; decide⟩
  exact exportedTrack_eq_ok.mpr ⟨⟨rfl, named⟩, rfl, ['1'], _, 0, rfl, rfl, rfl, rfl,
    List.cons_ne_nil ['1'] [], rfl, rfl, played⟩

/-- The first file on an empty disk, where the folder and the one around it are missing. -/
theorem export_all_or_nothing_first_file :
    ∃ reply after, exportMidiReply (Path.ofText ['m', '/', 'o']) (.text ['1']) (.text ['C'])
        (.whole 120) (.whole 1) (.text ['a']) {} = (reply, after) ∧ reply.Succeeds ∧
      ∃ bytes, after.file? [['m'], ['o'], ['a', '.', 'm', 'i', 'd']] = some bytes := by
  obtain ⟨track, made, size⟩ := exportedTrack_one_beat (by decide : ['a'] ≠ [])
  have short : ∀ d chords other, (exportedTrack (.text ['1']) (.text ['C']) (.whole 120) (.whole 1)
      (.text ['a'])).outcome = .ok (d, chords, other) → (trackBytes none other).length < 2 ^ 32 := by
    intro d chords other same
    rw [made] at same
    cases same
    exact size
  obtain ⟨bytes, encoded⟩ := Track.file_ok (closed_of_exportedTrack made) size
  have opened : ({} : Disk).ensureFolder (Path.ofText ['m', '/', 'o']) =
    (.ok (), ⟨[], [[['m']], [['m'], ['o']]], []⟩) := rfl
  have located : (⟨[], [[['m']], [['m'], ['o']]], []⟩ : Disk).locate
      (exportPath (Path.ofText ['m', '/', 'o']) ['a']) =
    .ok [['m'], ['o'], ['a', '.', 'm', 'i', 'd']] := rfl
  have done := Disk.writeTrack_ok opened located encoded
  obtain ⟨reply, replied, answered⟩ := exportMidiReply_written made done
  have succeeds := Reply.succeeds_of_success answered
  obtain ⟨reply', after, replied', -, -, writes⟩ :=
    export_all_or_nothing ['m', '/', 'o'] {} short
  cases replied.symm.trans replied'
  obtain ⟨text, key, title, pace, p, r, track', bytes', reported, -, -, named, -, -, -, -, -,
    rfl, -, -, holds⟩ := writes succeeds
  cases named
  refine ⟨reply, _, replied, succeeds, bytes', ?_⟩
  exact (holds _).trans (if_pos rfl)

end ChordSymbols
