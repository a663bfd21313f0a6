import ChordSymbols.Playback.Track

/-!
# Track files

A file is a header chunk and one track chunk, each a four-letter tag, a length in
four bytes, and data. The time before a message is written in groups of seven
bits, all but the last with the high bit set. A channel message leaves out its
status byte when the one before it had the same; tempo and end of track have no
place in that rule and end it. A track is written with one end, its last message,
wherever it had others.
-/

namespace ChordSymbols

/-- The last `width` bytes of a number, the highest first. -/
def bigEndian : Nat → Nat → List UInt8
  | 0, _ => []
  | width + 1, n => bigEndian width (n / 256) ++ [UInt8.ofNat (n % 256)]

/-- The groups of a number before its last one; none for zero. -/
def leadingGroups (n : Nat) : List UInt8 :=
  if n = 0 then [] else leadingGroups (n / 128) ++ [UInt8.ofNat (128 + n % 128)]
termination_by n
decreasing_by omega

/-- A natural of any size in groups of seven bits. -/
def variableLength (n : Nat) : List UInt8 :=
  leadingGroups (n / 128) ++ [UInt8.ofNat (n % 128)]

namespace Message

/-- The status byte, and the data bytes after it. -/
def bytes : Message → UInt8 × List UInt8
  | .noteOn c p v => (UInt8.ofNat (0x90 + c.val), [UInt8.ofNat p.val, UInt8.ofNat v.val])
  | .noteOff c p v => (UInt8.ofNat (0x80 + c.val), [UInt8.ofNat p.val, UInt8.ofNat v.val])
  | .tempo t => (0xFF, 0x51 :: 0x03 :: bigEndian 3 t.val)
  | .endOfTrack => (0xFF, [0x2F, 0x00])

def isChannel : Message → Bool
  | .noteOn .. | .noteOff .. => true
  | .tempo _ | .endOfTrack => false

end Message

/-- The data of a track, where `running` is the status byte that may be left out. -/
def trackBytes (running : Option UInt8) : Track → List UInt8
  | [] => []
  | ⟨delta, m⟩ :: rest =>
    let (status, payload) := m.bytes
    let written := if running = some status then payload else status :: payload
    let next := if m.isChannel then some status else none
    variableLength delta ++ written ++ trackBytes next rest

/-- Drops every end of a track and puts one behind it. The delay of one that is dropped is
`waiting` for the next message. -/
def closeFrom (waiting : Nat) : Track → Track
  | [] => [⟨waiting, .endOfTrack⟩]
  | ⟨delta, m⟩ :: rest =>
    if m = .endOfTrack then closeFrom (waiting + delta) rest
    else ⟨waiting + delta, m⟩ :: closeFrom 0 rest

/-- A track as it is written. -/
def Track.closed (track : Track) : Track := closeFrom 0 track

inductive FileError where
  | resolution
  | resolutionSize
  | length
deriving DecidableEq, Repr

def FileError.message : FileError → String
  | .resolution => "'h' format requires -32768 <= number <= 32767"
  | .resolutionSize => "argument out of range"
  | .length => "'L' format requires 0 <= number <= 4294967295"

/-- Two bytes for the ticks of a beat; a negative number counts down from the top. -/
def resolutionBytes (ticksPerBeat : Int) : Except FileError (List UInt8) :=
  if ticksPerBeat < -0x8000000000000000 ∨ 0x8000000000000000 ≤ ticksPerBeat then
    .error .resolutionSize
  else if ticksPerBeat < -32768 ∨ 32767 < ticksPerBeat then .error .resolution
  else .ok (bigEndian 2 (ticksPerBeat % 65536).toNat)

def headerTag : List UInt8 := [0x4D, 0x54, 0x68, 0x64]
def trackTag : List UInt8 := [0x4D, 0x54, 0x72, 0x6B]

/-- The bytes of a file of format 1 with one track. -/
def Track.file (ticksPerBeat : Int) (track : Track) : Except FileError (List UInt8) := do
  let resolution ← resolutionBytes ticksPerBeat
  let payload := trackBytes none track.closed
  if 0x100000000 ≤ payload.length then .error .length
  else
    return headerTag ++ bigEndian 4 6 ++ bigEndian 2 1 ++ bigEndian 2 1 ++ resolution ++
      trackTag ++ bigEndian 4 payload.length ++ payload

/-- A track with its resolution, and its file. -/
structure Rendering where
  track : Track
  ticksPerBeat : Int
  file : Except FileError (List UInt8)

def Track.render (ticksPerBeat : Int) (track : Track) : Rendering :=
  ⟨track, ticksPerBeat, track.file ticksPerBeat⟩

/-- Bytes as pairs of hexadecimal digits. -/
def hexOfBytes (bytes : List UInt8) : String :=
  String.ofList (bytes.flatMap fun b => hexText hexDigit 2 b.toNat)

end ChordSymbols
