import ChordSymbols.Playback.File

/-!
# A reader of track files

The reader knows the format and nothing of the writer: chunks by their tags and
lengths, signed fields of two bytes, times of any number of groups up to the first
byte without the high bit, and a status byte that stays in force until another
one, or a message that is not a channel's, replaces it. It refuses data that ends
early and messages of kinds that no track here holds.

Every part gives back what it read and the bytes after it. These are never more
than before, and fewer after a time, which is why a track ends.
-/

namespace ChordSymbols

/-- So many bytes off the front, if there are so many. -/
def takeBytes (count : Nat) (bytes : List UInt8) : Option (List UInt8 × List UInt8) :=
  if count ≤ bytes.length then some (bytes.take count, bytes.drop count) else none

/-- The number that bytes stand for, the highest first. -/
def ofBigEndian (bytes : List UInt8) : Nat :=
  bytes.foldl (fun n b => 256 * n + b.toNat) 0

def readNumber (width : Nat) (bytes : List UInt8) : Option (Nat × List UInt8) := do
  let (digits, rest) ← takeBytes width bytes
  return (ofBigEndian digits, rest)

/-- A field of two bytes; the upper half of its numbers are the negative ones. -/
def readShort (bytes : List UInt8) : Option (Int × List UInt8) := do
  let (n, rest) ← readNumber 2 bytes
  return (if n < 0x8000 then n else (n : Int) - 0x10000, rest)

/-- The groups of a number whose groups so far are `high`. -/
def readGroups (high : Nat) : List UInt8 → Option (Nat × List UInt8)
  | [] => none
  | b :: rest =>
    let n := 128 * high + b.toNat % 128
    if b.toNat < 128 then some (n, rest) else readGroups n rest

def readVariable (bytes : List UInt8) : Option (Nat × List UInt8) :=
  readGroups 0 bytes

/-- A byte without the high bit. -/
def readData : List UInt8 → Option (Fin 128 × List UInt8)
  | [] => none
  | b :: rest => if h : b.toNat < 128 then some (⟨b.toNat, h⟩, rest) else none

/-- What a status byte and two bytes of data say. -/
def noteMessage (status : UInt8) (pitch velocity : Fin 128) : Option Message :=
  match status.toNat / 16 with
  | 0x8 => some (.noteOff (Fin.ofNat 16 status.toNat) pitch velocity)
  | 0x9 => some (.noteOn (Fin.ofNat 16 status.toNat) pitch velocity)
  | _ => none

def readChannel (status : UInt8) (bytes : List UInt8) : Option (Message × List UInt8) := do
  let (pitch, bytes) ← readData bytes
  let (velocity, rest) ← readData bytes
  let m ← noteMessage status pitch velocity
  return (m, rest)

/-- What the data of a message outside the channels say, by its kind. -/
def metaMessage (kind : UInt8) (payload : List UInt8) : Option Message :=
  if kind = 0x51 ∧ payload.length = 3 then some (.tempo (Fin.ofNat _ (ofBigEndian payload)))
  else if kind = 0x2F ∧ payload = [] then some .endOfTrack
  else none

def readMeta : List UInt8 → Option (Message × List UInt8)
  | [] => none
  | kind :: bytes => do
    let (length, bytes) ← readVariable bytes
    let (payload, rest) ← takeBytes length bytes
    let m ← metaMessage kind payload
    return (m, rest)

/-- A message, and the status byte that the next one may leave out. -/
def readMessage (running : Option UInt8) :
    List UInt8 → Option ((Message × Option UInt8) × List UInt8)
  | [] => none
  | b :: rest =>
    if b = 0xFF then do
      let (m, rest) ← readMeta rest
      return ((m, none), rest)
    else if 128 ≤ b.toNat then do
      let (m, rest) ← readChannel b rest
      return ((m, some b), rest)
    else do
      let status ← running
      let (m, rest) ← readChannel status (b :: rest)
      return ((m, some status), rest)

def readTimed (running : Option UInt8) (bytes : List UInt8) :
    Option ((Timed × Option UInt8) × List UInt8) := do
  let (delta, bytes) ← readVariable bytes
  let ((m, next), rest) ← readMessage running bytes
  return ((⟨delta, m⟩, next), rest)

section Left

variable {bytes rest : List UInt8}

theorem takeBytes_left {count : Nat} {front : List UInt8}
    (h : takeBytes count bytes = some (front, rest)) : rest.length ≤ bytes.length := by
  unfold takeBytes at h
  split at h
  · cases h
    rw [List.length_drop]
    exact Nat.sub_le _ _
  · cases h

theorem readGroups_left {high n : Nat} (h : readGroups high bytes = some (n, rest)) :
    rest.length < bytes.length := by
  induction bytes generalizing high with
  | nil => cases h
  | cons b tail ih =>
    rw [readGroups] at h
    split at h
    · cases h
      exact Nat.lt_succ_self _
    · exact Nat.lt_succ_of_lt (ih h)

theorem readData_left {d : Fin 128} (h : readData bytes = some (d, rest)) :
    rest.length ≤ bytes.length := by
  cases bytes with
  | nil => cases h
  | cons b tail =>
    rw [readData] at h
    split at h
    · cases h
      exact Nat.le_succ _
    · cases h

theorem readChannel_left {status : UInt8} {m : Message}
    (h : readChannel status bytes = some (m, rest)) : rest.length ≤ bytes.length := by
  obtain ⟨⟨pitch, middle⟩, first, h⟩ := Option.bind_eq_some_iff.mp h
  obtain ⟨⟨velocity, last⟩, second, h⟩ := Option.bind_eq_some_iff.mp h
  obtain ⟨m, -, h⟩ := Option.bind_eq_some_iff.mp h
  cases h
  exact Nat.le_trans (readData_left second) (readData_left first)

theorem readMeta_left {m : Message} (h : readMeta bytes = some (m, rest)) :
    rest.length ≤ bytes.length := by
  cases bytes with
  | nil => cases h
  | cons kind tail =>
    obtain ⟨⟨length, middle⟩, counted, h⟩ := Option.bind_eq_some_iff.mp h
    obtain ⟨⟨payload, last⟩, taken, h⟩ := Option.bind_eq_some_iff.mp h
    obtain ⟨m, -, h⟩ := Option.bind_eq_some_iff.mp h
    cases h
    have shorter := readGroups_left counted
    have kept := takeBytes_left taken
    rw [List.length_cons]
    omega

theorem readMessage_left {running next : Option UInt8} {m : Message}
    (h : readMessage running bytes = some ((m, next), rest)) : rest.length ≤ bytes.length := by
  cases bytes with
  | nil => cases h
  | cons b tail =>
    rw [readMessage] at h
    split at h
    · obtain ⟨⟨m, last⟩, read, h⟩ := Option.bind_eq_some_iff.mp h
      cases h
      exact Nat.le_succ_of_le (readMeta_left read)
    · split at h
      · obtain ⟨⟨m, last⟩, read, h⟩ := Option.bind_eq_some_iff.mp h
        cases h
        exact Nat.le_succ_of_le (readChannel_left read)
      · obtain ⟨status, -, h⟩ := Option.bind_eq_some_iff.mp h
        obtain ⟨⟨m, last⟩, read, h⟩ := Option.bind_eq_some_iff.mp h
        cases h
        exact readChannel_left read

theorem readTimed_left {running next : Option UInt8} {m : Timed}
    (h : readTimed running bytes = some ((m, next), rest)) : rest.length < bytes.length := by
  obtain ⟨⟨delta, middle⟩, counted, h⟩ := Option.bind_eq_some_iff.mp h
  obtain ⟨⟨⟨message, status⟩, last⟩, read, h⟩ := Option.bind_eq_some_iff.mp h
  cases h
  exact Nat.lt_of_le_of_lt (readMessage_left read) (readGroups_left counted)

end Left

/-- The messages of the data of a track, to its last byte. -/
def readTrack (running : Option UInt8) (bytes : List UInt8) : Option Track :=
  if bytes = [] then some []
  else
    match h : readTimed running bytes with
    | none => none
    | some ((m, next), rest) =>
      have := readTimed_left h
      (readTrack next rest).map (m :: ·)
termination_by bytes.length

theorem readTrack_nil (running : Option UInt8) : readTrack running [] = some [] := by
  rw [readTrack, if_pos rfl]

theorem readTrack_timed {running next : Option UInt8} {bytes rest : List UInt8} {m : Timed}
    (h : readTimed running bytes = some ((m, next), rest)) :
    readTrack running bytes = (readTrack next rest).map (m :: ·) := by
  have filled : bytes ≠ [] := by
    rintro rfl
    cases h
  rw [readTrack, if_neg filled]
  split
  · rename_i missing
    cases missing.symm.trans h
  · rename_i found
    cases found.symm.trans h
    rfl

/-- The data of a chunk of a given tag. -/
def readChunk (tag : List UInt8) (bytes : List UInt8) : Option (List UInt8 × List UInt8) := do
  let (found, bytes) ← takeBytes 4 bytes
  let (length, bytes) ← readNumber 4 bytes
  if found = tag then takeBytes length bytes else none

/-- So many track chunks, `MTrk`. -/
def readTracks : Nat → List UInt8 → Option (List Track × List UInt8)
  | 0, bytes => some ([], bytes)
  | count + 1, bytes => do
    let (payload, bytes) ← readChunk [0x4D, 0x54, 0x72, 0x6B] bytes
    let track ← readTrack none payload
    let (tracks, rest) ← readTracks count bytes
    return (track :: tracks, rest)

/-- What a file says. -/
structure FileContent where
  format : Int
  ticksPerBeat : Int
  tracks : List Track
deriving DecidableEq, Repr

/-- The three fields of a header, which has no further ones: format, tracks, resolution. -/
def readHeader (header : List UInt8) : Option (Int × Int × Int) := do
  let (format, header) ← readShort header
  let (count, header) ← readShort header
  let (ticksPerBeat, rest) ← readShort header
  if rest = [] then return (format, count, ticksPerBeat) else none

/-- A header chunk, `MThd`, and the track chunks that it announces. -/
def readFile (bytes : List UInt8) : Option (FileContent × List UInt8) := do
  let (header, bytes) ← readChunk [0x4D, 0x54, 0x68, 0x64] bytes
  let (format, count, ticksPerBeat) ← readHeader header
  let (tracks, rest) ← readTracks count.toNat bytes
  return (⟨format, ticksPerBeat, tracks⟩, rest)

end ChordSymbols
