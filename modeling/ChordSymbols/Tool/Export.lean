import ChordSymbols.Disk
import ChordSymbols.Document.Text
import ChordSymbols.Playback.File
import ChordSymbols.Playback.Layout
import ChordSymbols.Progression
import ChordSymbols.Tool.Reply

/-!
# Tools that export

A progression is made a document first, and one that is not valid is refused
with the report of its faults. One tool replies with the text of the document.
The other plays it and writes a track file into the folder for output, which is
made if it is missing: a file is opened only after the track is built, so a
progression that cannot be played leaves the disk as it is.
-/

namespace ChordSymbols

/-- The document of a progression, with the other fields as given. -/
def exportDocument (progression name tonic tempo : Value) : Run Refusal Document := do
  let t ← textOr (noOperation "split") progression
  let symbols := (splitProgression t).map Value.text
  let draft : Draft := ⟨none, some name, some tonic, some tempo, some (.list symbols)⟩
  draft.validate.mapError fun faults => .known none none (faultReport faults)

def exportYamlReply (progression name tonic tempo : Value) : Reply :=
  Run.reply .progressionTools "Failed to export YAML" do
    let d ← exportDocument progression name tonic tempo
    return success [("yaml", .text d.yaml)]

def exportedMessage (count : Nat) (path : Text) : String :=
  "Exported " ++ toString count ++ " chords to " ++ String.ofList path ++ "."

/-- Runs an activity whose failure no tool foresees. -/
def unforeseenIn {ε α : Type} (message : ε → String) (x : Run ε α) : Run Refusal α :=
  x.mapError fun e => .unforeseen (message e)

/-- The chords of a valid document, and their track. -/
def documentTrack (d : Document) (beats : Quantity) : Run Refusal (List Chord × Track) := do
  let chords ← unforeseenIn SymbolError.message d.compile
  let tonic ← unforeseenIn UnknownPitch.message (Run.of (PitchClass.parse d.tonic))
  let s : Setting := { beats := beats }
  let track ← unforeseenIn PlaybackError.message
    (Run.of (progressionTrack s (.whole d.tempo) tonic chords))
  return (chords, track)

/-- The path that a file is exported to. -/
def exportPath (folder : Path) (name : Text) : Path :=
  folder.join (Path.ofText (name ++ ".mid".toList))

/-- Writes a track file. The file is opened, and so emptied, before its bytes are put together. -/
def Disk.writeTrack (disk : Disk) (folder path : Path) (track : Track) :
    Except String Unit × Disk :=
  match disk.ensureFolder folder with
  | (.error e, disk) => (.error e.message, disk)
  | (.ok (), disk) =>
    match disk.locate path with
    | .error e => (.error e.message, disk)
    | .ok place =>
      match track.file defaultTicksPerBeat with
      | .error e => (.error e.message, disk.put place [])
      | .ok bytes => (.ok (), disk.put place bytes)

def exportMidi (folder : Path) (progression tonic tempo : Value) (beats : Quantity)
    (name : Value) (disk : Disk) : Run Refusal Value × Disk :=
  let made := do
    let d ← exportDocument progression name tonic tempo
    let (chords, track) ← documentTrack d beats
    return (d, chords, track)
  match made.outcome with
  | .error r => (⟨made.records, .error r⟩, disk)
  | .ok (d, chords, track) =>
    let path := exportPath folder d.name
    let (written, disk) := disk.writeTrack folder path track
    let answer := written.map fun _ =>
      success [("path", .text path.text), ("chords", .whole chords.length),
        ("message", .ofString (exportedMessage chords.length path.text))]
    (⟨made.records, answer.mapError .unforeseen⟩, disk)

def exportMidiReply (folder : Path) (progression tonic tempo : Value) (beats : Quantity)
    (name : Value) (disk : Disk) : Reply × Disk :=
  let (x, disk) := exportMidi folder progression tonic tempo beats name disk
  (x.reply .progressionTools "Failed to export MIDI", disk)

end ChordSymbols
