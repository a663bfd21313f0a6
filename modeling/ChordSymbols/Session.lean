import ChordSymbols.Document.Summary
import ChordSymbols.Tool.Request

/-!
# Sessions

A session is the state of someone at work on a progression: its text, the key,
the last compilation, the events put together so far, and the disk with the
folder that exports go to. It goes from step to step; a step gives an answer and a
new state, and one that fails leaves the state as it was.
-/

namespace ChordSymbols

structure Session where
  text : Text := []
  tonic : PitchClass := 0
  octave : Int := 4
  compiled : Compiled := {}
  events : List NoteEvent := []
  disk : Disk := {}
  folder : Text := outputFolder
deriving DecidableEq, Repr

/-- An event by its numbers, before they are known to be in range. -/
structure EventNumbers where
  pitch : Int
  start : Int
  duration : Int
  velocity : Int
  channel : Int := defaultChannel
deriving DecidableEq, Repr

def EventNumbers.event (n : EventNumbers) : Except EventError NoteEvent :=
  NoteEvent.ofInts n.pitch n.start n.duration n.velocity n.channel

inductive Step where
  | set (text : Text)
  | append (symbol : Text)
  | split
  | compile (strict : Bool)
  | merge (text : Text) (strict : Bool)
  | push (parts : ChordParts)
  | canonical
  | tonic (name : Text)
  | transpose (semitones : Int)
  | octave (octave : Int)
  | notes
  | events (beats loudness : Quantity) (channel ticksPerBeat : Int)
  | addEvent (numbers : EventNumbers)
  | clear
  | midi (beatsPerMinute : Quantity) (ticksPerBeat : Int)
  | document (name tempo : Value) (flats : Bool)
  | request (r : Request)
deriving Repr

inductive StepAnswer where
  | nothing
  | symbols (ts : List Text)
  | realizations (rs : List Realization)
  | events (es : List NoteEvent)
  | rendering (r : Rendering)
  | summary (s : Summary)
  | reply (value : Value) (exported : List (Text × List UInt8))

namespace Session

/-- The text of the compiled chords. -/
def canonical (s : Session) : Except Unspellable Text :=
  formatProgression s.compiled.chords

def draft (s : Session) (name tempo : Value) (flats : Bool) : Draft :=
  ⟨none, some name, some (.text (s.tonic.spell flats)), some tempo,
    some (.list ((splitProgression s.text).map .text))⟩

/-- One step, with its answer and the new state. -/
def step (s : Session) : Step → Run Failure (StepAnswer × Session)
  | .set text => return (.nothing, { s with text := text })
  | .append symbol => do
    let text ← (appendSymbol s.text symbol).mapError .symbol
    return (.nothing, { s with text := text })
  | .split => return (.symbols (splitProgression s.text), s)
  | .compile strict => do
    let r ← (compileProgression strict s.text).mapError .symbol
    return (.nothing, { s with compiled := r })
  | .merge text strict => do
    let r ← (compileProgression strict text).mapError .symbol
    return (.nothing, { s with compiled := s.compiled.append r })
  | .push parts => do
    let c ← Run.orFailure .notMember parts.chord
    return (.nothing, { s with compiled := s.compiled.append { chords := [c] } })
  | .canonical => do
    let text ← Run.orFailure .unspellable s.canonical
    return (.nothing, { s with text := text })
  | .tonic name => do
    let p ← Run.orFailure .pitch (PitchClass.parse name)
    return (.nothing, { s with tonic := p })
  | .transpose semitones => return (.nothing, { s with tonic := s.tonic.transpose semitones })
  | .octave octave => return (.nothing, { s with octave := octave })
  | .notes => return (.realizations (s.compiled.chords.map (·.realize s.tonic s.octave)), s)
  | .events beats loudness channel ticksPerBeat => do
    let setting : Setting := ⟨s.octave, beats, loudness, channel, ticksPerBeat⟩
    let es ← Run.orFailure .playback (progressionEvents setting s.tonic s.compiled.chords)
    return (.events es, { s with events := s.events ++ es })
  | .addEvent numbers => do
    let e ← Run.orFailure .event numbers.event
    return (.nothing, { s with events := s.events ++ [e] })
  | .clear => return (.nothing, { s with events := [] })
  | .midi beatsPerMinute ticksPerBeat => do
    let track ← Run.orFailure (.playback ∘ .track) (Track.ofEvents beatsPerMinute s.events)
    return (.rendering (track.render ticksPerBeat), s)
  | .document name tempo flats => do
    let summary ← (s.draft name tempo flats).summary
    return (.summary summary, s)
  | .request r =>
    let (reply, disk) := r.run s.disk s.folder
    ⟨reply.records, .ok (.reply reply.answer (disk.filesBelow s.folder),
      { s with disk := disk })⟩

/-- What came of a step, and the state after it, which is the one before if it failed. -/
def move (s : Session) (st : Step) : Except Failure StepAnswer × Session :=
  match (s.step st).outcome with
  | .ok (answer, next) => (.ok answer, next)
  | .error e => (.error e, s)

/-- The outcome of every step in turn, each with the state after it. -/
def play (s : Session) : List Step → List Record × List (Except Failure StepAnswer × Session)
  | [] => ([], [])
  | st :: rest =>
    let now := s.move st
    let (records, outcomes) := now.2.play rest
    ((s.step st).records ++ records, now :: outcomes)

end Session

end ChordSymbols
