import ChordSymbols.Proofs.Outcome
import ChordSymbols.Proofs.Playback.Ending
import ChordSymbols.Proofs.Playback.Reader
import Mathlib.Algebra.Group.Nat.Defs

/-!
# Files are read back

What is written of a message depends on the message before it, and so does what is
read; the two agree because a status byte can be left out only before a byte
without the high bit, and is never one that belongs to no channel. From there on
tracks go by induction, and a file by its chunks. What is read is the track as it
was written, which for one that was built is the track itself.
-/

namespace ChordSymbols

section Numbers

variable (rest : List UInt8)

theorem length_bigEndian (width n : Nat) : (bigEndian width n).length = width := by
  induction width generalizing n with
  | zero => rfl
  | succ width ih => rw [bigEndian, List.length_append, ih, List.length_singleton]

theorem ofBigEndian_bigEndian (width n : Nat) :
    ofBigEndian (bigEndian width n) = n % 256 ^ width := by
  induction width generalizing n with
  | zero => rw [pow_zero, Nat.mod_one, bigEndian, ofBigEndian, List.foldl_nil]
  | succ width ih =>
    have last : (UInt8.ofNat (n % 256)).toNat = n % 256 :=
      UInt8.toNat_ofNat_of_lt (Nat.mod_lt n (by decide))
    calc ofBigEndian (bigEndian (width + 1) n)
        = 256 * ofBigEndian (bigEndian width (n / 256)) + n % 256 := by
          rw [bigEndian, ofBigEndian, List.foldl_append, ← ofBigEndian, List.foldl_cons,
            List.foldl_nil, last]
      _ = n % 256 + 256 * (n / 256 % 256 ^ width) := by rw [ih, Nat.add_comm]
      _ = n % 256 ^ (width + 1) := by rw [pow_succ', Nat.mod_mul]

theorem takeBytes_append (front : List UInt8) :
    takeBytes front.length (front ++ rest) = some (front, rest) := by
  have enough : front.length ≤ (front ++ rest).length := by
    rw [List.length_append]
    exact Nat.le_add_right _ _
  rw [takeBytes, if_pos enough, List.take_left, List.drop_left]

theorem takeBytes_bigEndian (width n : Nat) :
    takeBytes width (bigEndian width n ++ rest) = some (bigEndian width n, rest) := by
  have taken := takeBytes_append rest (bigEndian width n)
  rwa [length_bigEndian] at taken

theorem readNumber_bigEndian {width n : Nat} (fits : n < 256 ^ width) :
    readNumber width (bigEndian width n ++ rest) = some (n, rest) := by
  have value : ofBigEndian (bigEndian width n) = n := by
    rw [ofBigEndian_bigEndian, Nat.mod_eq_of_lt fits]
  rw [readNumber, takeBytes_bigEndian, Option.bind_eq_bind, Option.bind_some]
  exact congrArg (fun k => some (k, rest)) value

theorem readShort_bigEndian {n : Int} (fits : -32768 ≤ n ∧ n ≤ 32767) :
    readShort (bigEndian 2 (n % 65536).toNat ++ rest) = some (n, rest) := by
  have unsigned : (n % 65536).toNat < 256 ^ 2 := by omega
  have signed : (if (n % 65536).toNat < 0x8000 then ((n % 65536).toNat : Int)
      else ((n % 65536).toNat : Int) - 0x10000) = n := by
    split <;> omega
  rw [readShort, readNumber_bigEndian rest unsigned, Option.bind_eq_bind, Option.bind_some]
  exact congrArg (fun k => some (k, rest)) signed

/-- Groups with the high bit add up to the number that they are the groups of. -/
theorem readGroups_leadingGroups (n : Nat) :
    readGroups 0 (leadingGroups n ++ rest) = readGroups n rest := by
  induction n using Nat.strongRecOn generalizing rest with
  | ind n ih =>
    rw [leadingGroups]
    split
    · rename_i zero
      rw [zero]
      rfl
    · rename_i positive
      have group : (UInt8.ofNat (128 + n % 128)).toNat = 128 + n % 128 :=
        UInt8.toNat_ofNat_of_lt (show 128 + n % 128 < 256 by omega)
      have more : ¬ 128 + n % 128 < 128 := by omega
      have value : 128 * (n / 128) + (128 + n % 128) % 128 = n := by omega
      rw [List.append_assoc, ih (n / 128) (by omega), List.singleton_append, readGroups, group,
        if_neg more, value]

theorem readVariable_variableLength (n : Nat) :
    readVariable (variableLength n ++ rest) = some (n, rest) := by
  have group : (UInt8.ofNat (n % 128)).toNat = n % 128 :=
    UInt8.toNat_ofNat_of_lt (show n % 128 < 256 by omega)
  have final : n % 128 < 128 := Nat.mod_lt n (by decide)
  have value : 128 * (n / 128) + n % 128 % 128 = n := by omega
  rw [readVariable, variableLength, List.append_assoc, readGroups_leadingGroups,
    List.singleton_append, readGroups, group, if_pos final, value]

end Numbers

namespace Message

/-- The bytes of a message when `running` may be left out. -/
def after (running : Option UInt8) (m : Message) : List UInt8 :=
  if running = some m.bytes.1 then m.bytes.2 else m.bytes.1 :: m.bytes.2

/-- The status byte that may be left out after a message. -/
def leaves (m : Message) : Option UInt8 :=
  if m.isChannel then some m.bytes.1 else none

end Message

theorem trackBytes_cons (running : Option UInt8) (delta : Nat) (m : Message) (rest : Track) :
    trackBytes running (⟨delta, m⟩ :: rest) =
      variableLength delta ++ m.after running ++ trackBytes m.leaves rest :=
  rfl

section Messages

variable (rest : List UInt8)

theorem toNat_data (d : Fin 128) : (UInt8.ofNat d.val).toNat = d.val :=
  UInt8.toNat_ofNat_of_lt (show d.val < 256 by omega)

theorem readData_data (d : Fin 128) : readData (UInt8.ofNat d.val :: rest) = some (d, rest) := by
  have byte := toNat_data d
  rw [readData, dif_pos (by omega)]
  congr

/-- A status byte holds a kind in its upper half and a channel in its lower one. -/
theorem status_halves {kind : Nat} (small : kind < 16) (c : Fin 16) :
    (UInt8.ofNat (16 * kind + c.val)).toNat / 16 = kind ∧
      Fin.ofNat 16 (UInt8.ofNat (16 * kind + c.val)).toNat = c := by
  have byte : (UInt8.ofNat (16 * kind + c.val)).toNat = 16 * kind + c.val :=
    UInt8.toNat_ofNat_of_lt (show 16 * kind + c.val < 256 by omega)
  rw [byte]
  refine ⟨by omega, Fin.ext ?_⟩
  rw [Fin.val_ofNat]
  omega

theorem noteMessage_noteOn (c : Fin 16) (p v : Fin 128) :
    noteMessage (UInt8.ofNat (0x90 + c.val)) p v = some (.noteOn c p v) := by
  obtain ⟨upper, lower⟩ := status_halves (by decide : 9 < 16) c
  simp only [noteMessage, upper, lower]

theorem noteMessage_noteOff (c : Fin 16) (p v : Fin 128) :
    noteMessage (UInt8.ofNat (0x80 + c.val)) p v = some (.noteOff c p v) := by
  obtain ⟨upper, lower⟩ := status_halves (by decide : 8 < 16) c
  simp only [noteMessage, upper, lower]

theorem metaMessage_tempo (t : Fin 0x1000000) :
    metaMessage 0x51 (bigEndian 3 t.val) = some (.tempo t) := by
  have fits : t.val < 256 ^ 3 := by omega
  have value : Fin.ofNat 0x1000000 (ofBigEndian (bigEndian 3 t.val)) = t := by
    rw [ofBigEndian_bigEndian, Nat.mod_eq_of_lt fits]
    exact Fin.ext (Nat.mod_eq_of_lt t.isLt)
  rw [metaMessage, if_pos ⟨rfl, length_bigEndian 3 t.val⟩, value]

theorem noteMessage_status {status : UInt8} {p v : Fin 128} {m : Message}
    (h : noteMessage status p v = some m) : 128 ≤ status.toNat ∧ status ≠ 0xFF := by
  have upper : status.toNat / 16 = 8 ∨ status.toNat / 16 = 9 := by
    unfold noteMessage at h
    split at h
    · exact .inl ‹_›
    · exact .inr ‹_›
    · cases h
  refine ⟨by omega, ?_⟩
  rintro rfl
  revert upper
  decide

/-- A channel message is a status byte and two bytes of data. -/
theorem Message.channel_bytes {m : Message} (channel : m.isChannel = true) :
    ∃ p v : Fin 128, m.bytes.2 = [UInt8.ofNat p.val, UInt8.ofNat v.val] ∧
      noteMessage m.bytes.1 p v = some m := by
  cases m with
  | noteOn c p v => exact ⟨p, v, rfl, noteMessage_noteOn c p v⟩
  | noteOff c p v => exact ⟨p, v, rfl, noteMessage_noteOff c p v⟩
  | tempo t => cases channel
  | endOfTrack => cases channel

theorem readChannel_bytes {m : Message} (channel : m.isChannel = true) :
    readChannel m.bytes.1 (m.bytes.2 ++ rest) = some (m, rest) := by
  obtain ⟨p, v, payload, message⟩ := m.channel_bytes channel
  rw [payload, readChannel]
  simp only [List.cons_append, List.nil_append, readData_data, message, Option.bind_eq_bind,
    Option.bind_some, Option.pure_def]

theorem readMeta_bytes {m : Message} (other : m.isChannel = false) :
    m.bytes.1 = 0xFF ∧ readMeta (m.bytes.2 ++ rest) = some (m, rest) := by
  cases m with
  | noteOn c p v => cases other
  | noteOff c p v => cases other
  | tempo t =>
    have counted : readVariable (0x03 :: (bigEndian 3 t.val ++ rest)) =
        some (3, bigEndian 3 t.val ++ rest) := rfl
    refine ⟨rfl, ?_⟩
    simp only [Message.bytes, List.cons_append, readMeta, counted, takeBytes_bigEndian,
      metaMessage_tempo, Option.bind_eq_bind, Option.bind_some, Option.pure_def]
  | endOfTrack =>
    have counted : readVariable (0x00 :: rest) = some (0, rest) := rfl
    have taken : takeBytes 0 rest = some ([], rest) := takeBytes_append rest []
    refine ⟨rfl, ?_⟩
    simp only [Message.bytes, List.cons_append, List.nil_append, readMeta, counted, taken,
      Option.bind_eq_bind, Option.bind_some, Option.pure_def]
    rfl

/-- A byte of data where a status could stand belongs to the status that is in force. -/
theorem readMessage_data (status : UInt8) (d : Fin 128) :
    readMessage (some status) (UInt8.ofNat d.val :: rest) =
      (readChannel status (UInt8.ofNat d.val :: rest)).map fun r => ((r.1, some status), r.2) := by
  have byte := toNat_data d
  have low : ¬ 128 ≤ (UInt8.ofNat d.val).toNat := by omega
  have channel : UInt8.ofNat d.val ≠ 0xFF := by
    intro all
    rw [all] at low
    exact low (by decide)
  rw [readMessage, if_neg channel, if_neg low, Option.bind_eq_bind, Option.bind_some]
  cases readChannel status (UInt8.ofNat d.val :: rest) <;> rfl

/-- A message is read after any that came before it. -/
theorem readMessage_after {running : Option UInt8} (fresh : running ≠ some 0xFF) (m : Message) :
    readMessage running (m.after running ++ rest) = some ((m, m.leaves), rest) := by
  cases kind : m.isChannel with
  | false =>
    obtain ⟨status, read⟩ := readMeta_bytes rest kind
    have stated : m.after running = 0xFF :: m.bytes.2 := by
      rw [Message.after, status, if_neg fresh]
    rw [stated, List.cons_append, readMessage, if_pos rfl, read, Message.leaves, kind]
    rfl
  | true =>
    have read := readChannel_bytes rest kind
    obtain ⟨p, v, payload, message⟩ := m.channel_bytes kind
    obtain ⟨high, channel⟩ := noteMessage_status message
    rw [Message.leaves, kind, if_pos rfl]
    by_cases same : running = some m.bytes.1
    · rw [payload, List.cons_append] at read
      rw [Message.after, if_pos same, same, payload, List.cons_append, readMessage_data, read]
      rfl
    · rw [Message.after, if_neg same, List.cons_append, readMessage, if_neg channel, if_pos high,
        read]
      rfl

theorem Message.leaves_ne (m : Message) : m.leaves ≠ some 0xFF := by
  unfold leaves
  split
  · rename_i channel
    obtain ⟨p, v, -, message⟩ := m.channel_bytes channel
    intro all
    exact (noteMessage_status message).2 (Option.some.inj all)
  · intro all
    cases all

end Messages

/-- One step of a track. -/
theorem readTimed_trackBytes {running : Option UInt8} (fresh : running ≠ some 0xFF) (m : Timed)
    (rest : Track) :
    readTimed running (trackBytes running (m :: rest)) =
      some ((m, m.message.leaves), trackBytes m.message.leaves rest) := by
  rw [trackBytes_cons, List.append_assoc, readTimed]
  simp only [readVariable_variableLength, readMessage_after _ fresh, Option.bind_eq_bind,
    Option.bind_some, Option.pure_def]

/-- All of a track is read, whatever status byte was in force before it. -/
theorem readTrack_trackBytes {running : Option UInt8} (fresh : running ≠ some 0xFF)
    (track : Track) : readTrack running (trackBytes running track) = some track := by
  induction track generalizing running with
  | nil => exact readTrack_nil running
  | cons m rest ih =>
    rw [readTrack_timed (readTimed_trackBytes fresh m rest), ih m.message.leaves_ne]
    rfl

section Files

/-- A tag, the length of the data, and the data. -/
def chunk (tag payload : List UInt8) : List UInt8 :=
  tag ++ (bigEndian 4 payload.length ++ payload)

/-- Format 1, one track, and the ticks of a beat. -/
def headerBytes (ticksPerBeat : Int) : List UInt8 :=
  bigEndian 2 1 ++ (bigEndian 2 1 ++ bigEndian 2 (ticksPerBeat % 65536).toNat)

theorem length_headerBytes (ticksPerBeat : Int) : (headerBytes ticksPerBeat).length = 6 := by
  rw [headerBytes, List.length_append, List.length_append, length_bigEndian, length_bigEndian]

theorem resolutionBytes_eq_ok {ticksPerBeat : Int} {bytes : List UInt8} :
    resolutionBytes ticksPerBeat = .ok bytes ↔
      (-32768 ≤ ticksPerBeat ∧ ticksPerBeat ≤ 32767) ∧
        bytes = bigEndian 2 (ticksPerBeat % 65536).toNat := by
  constructor
  · intro h
    unfold resolutionBytes at h
    split at h
    · cases h
    · split at h
      · cases h
      · cases h
        exact ⟨by omega, rfl⟩
  · rintro ⟨inside, rfl⟩
    rw [resolutionBytes, if_neg (by omega), if_neg (by omega)]

theorem Track.file_eq_ok {ticksPerBeat : Int} {track : Track} {bytes : List UInt8} :
    track.file ticksPerBeat = .ok bytes ↔
      (-32768 ≤ ticksPerBeat ∧ ticksPerBeat ≤ 32767) ∧
        (trackBytes none track.closed).length < 2 ^ 32 ∧
        bytes = chunk headerTag (headerBytes ticksPerBeat) ++
          chunk trackTag (trackBytes none track.closed) := by
  have layout : headerTag ++ bigEndian 4 6 ++ bigEndian 2 1 ++ bigEndian 2 1 ++
      bigEndian 2 (ticksPerBeat % 65536).toNat ++ trackTag ++
      bigEndian 4 (trackBytes none track.closed).length ++ trackBytes none track.closed =
        chunk headerTag (headerBytes ticksPerBeat) ++
          chunk trackTag (trackBytes none track.closed) := by
    rw [chunk, chunk, length_headerBytes, headerBytes]
    simp only [List.append_assoc]
  rw [Track.file, bind_eq_ok]
  constructor
  · rintro ⟨resolution, sized, h⟩
    obtain ⟨inside, rfl⟩ := resolutionBytes_eq_ok.mp sized
    dsimp only at h
    split at h
    · cases h
    · rename_i short
      cases h
      exact ⟨inside, by omega, layout⟩
  · rintro ⟨inside, short, rfl⟩
    refine ⟨_, resolutionBytes_eq_ok.mpr ⟨inside, rfl⟩, ?_⟩
    dsimp only
    rw [if_neg (by omega), layout]
    rfl

theorem readChunk_chunk {tag payload : List UInt8} (rest : List UInt8) (four : tag.length = 4)
    (fits : payload.length < 2 ^ 32) :
    readChunk tag (chunk tag payload ++ rest) = some (payload, rest) := by
  have tagged := takeBytes_append (bigEndian 4 payload.length ++ (payload ++ rest)) tag
  rw [four] at tagged
  have counted : readNumber 4 (bigEndian 4 payload.length ++ (payload ++ rest)) =
      some (payload.length, payload ++ rest) := readNumber_bigEndian _ fits
  rw [readChunk, chunk, List.append_assoc, List.append_assoc]
  simp only [tagged, counted, takeBytes_append, if_true, Option.bind_eq_bind, Option.bind_some]

theorem readHeader_headerBytes {ticksPerBeat : Int}
    (inside : -32768 ≤ ticksPerBeat ∧ ticksPerBeat ≤ 32767) :
    readHeader (headerBytes ticksPerBeat) = some (1, 1, ticksPerBeat) := by
  have one (rest : List UInt8) : readShort (bigEndian 2 1 ++ rest) = some (1, rest) :=
    readShort_bigEndian rest (n := 1) (by decide)
  have resolution := readShort_bigEndian [] inside
  rw [List.append_nil] at resolution
  rw [readHeader, headerBytes]
  simp only [one, resolution, if_true, Option.bind_eq_bind, Option.bind_some,
    Option.pure_def]

theorem readTracks_chunk {track : Track} (rest : List UInt8)
    (short : (trackBytes none track).length < 2 ^ 32) :
    readTracks 1 (chunk trackTag (trackBytes none track) ++ rest) = some ([track], rest) := by
  have read : readTrack none (trackBytes none track) = some track :=
    readTrack_trackBytes (by decide) track
  have found : readChunk [0x4D, 0x54, 0x72, 0x6B]
      (chunk trackTag (trackBytes none track) ++ rest) = some (trackBytes none track, rest) :=
    readChunk_chunk rest rfl short
  simp only [readTracks, found, read, Option.bind_eq_bind, Option.bind_some, Option.pure_def]

/-- Every file that is written at all is read back whole. -/
theorem readFile_file {ticksPerBeat : Int} {track : Track} {bytes : List UInt8}
    (written : track.file ticksPerBeat = .ok bytes) :
    readFile bytes = some (⟨1, ticksPerBeat, [track.closed]⟩, []) := by
  obtain ⟨inside, short, rfl⟩ := Track.file_eq_ok.mp written
  have six : (headerBytes ticksPerBeat).length < 2 ^ 32 := by
    rw [length_headerBytes]
    decide
  have header : readChunk [0x4D, 0x54, 0x68, 0x64] (chunk headerTag (headerBytes ticksPerBeat) ++
      chunk trackTag (trackBytes none track.closed)) =
        some (headerBytes ticksPerBeat, chunk trackTag (trackBytes none track.closed)) :=
    readChunk_chunk _ rfl six
  have tracks := readTracks_chunk [] short
  rw [List.append_nil] at tracks
  rw [readFile]
  simp only [header, readHeader_headerBytes inside, Int.toNat_one, tracks, Option.bind_eq_bind,
    Option.bind_some, Option.pure_def]

end Files

/-- Events make a file whenever tempo, resolution and length have room in the format, and the
file says to a reader what was built, with nothing left over. -/
theorem file_reads_back {tempo : Quantity} {beat ticksPerBeat : Int} (events : List NoteEvent)
    (value : tempo.dividing microsecondsPerMinute = .ok beat)
    (room : 0 ≤ beat ∧ beat ≤ 16777215) (resolution : 1 ≤ ticksPerBeat ∧ ticksPerBeat ≤ 32767) :
    ∃ track, Track.ofEvents tempo events = .ok track ∧
      ((trackBytes none track).length < 2 ^ 32 →
        ∃ bytes, track.file ticksPerBeat = .ok bytes ∧
          readFile bytes = some (⟨1, ticksPerBeat, [track]⟩, [])) := by
  have fits : beat.toNat < 0x1000000 := by omega
  have held : below? 0x1000000 beat = some ⟨beat.toNat, fits⟩ :=
    below?_eq_some_iff.mpr (Int.toNat_of_nonneg room.1).symm
  have cut : beatLength tempo = .ok ⟨beat.toNat, fits⟩ := by
    simp only [beatLength, value, held]
  obtain ⟨track, built⟩ : ∃ track, Track.ofEvents tempo events = .ok track :=
    ⟨_, bind_eq_ok.mpr ⟨_, cut, rfl⟩⟩
  refine ⟨track, built, fun short => ?_⟩
  have inside : -32768 ≤ ticksPerBeat ∧ ticksPerBeat ≤ 32767 := by omega
  have whole := Track.closed_of_built built
  rw [← whole] at short
  obtain ⟨bytes, written⟩ : ∃ bytes, track.file ticksPerBeat = .ok bytes :=
    ⟨_, Track.file_eq_ok.mpr ⟨inside, short, rfl⟩⟩
  have read := readFile_file written
  rw [whole] at read
  exact ⟨bytes, written, read⟩

/-- A chord, in which a status byte is left out, over a silent note of another channel; the
times between them take two groups. -/
theorem file_reads_back_two_channels :
    ∃ track bytes, Track.ofEvents (.whole 120)
        [⟨60, 0, 480, 101, 0⟩, ⟨64, 0, 480, 101, 0⟩, ⟨67, 240, 480, 0, 3⟩] = .ok track ∧
      track.file 480 = .ok bytes ∧ readFile bytes = some (⟨1, 480, [track]⟩, []) := by
  have minute : (Quantity.whole 120).dividing microsecondsPerMinute = .ok 500000 := rfl
  have cues : cueList [⟨60, 0, 480, 101, 0⟩, ⟨64, 0, 480, 101, 0⟩, ⟨67, 240, 480, 0, 3⟩] =
      [⟨0, .noteOn 0 60 101⟩, ⟨0, .noteOn 0 64 101⟩, ⟨240, .noteOn 3 67 0⟩,
        ⟨480, .noteOff 0 60 0⟩, ⟨480, .noteOff 0 64 0⟩, ⟨720, .noteOff 3 67 0⟩] := by
    simp [cueList, NoteEvent.cues, NoteEvent.stop, List.mergeSort,
      List.MergeSort.Internal.splitInTwo, Cue.notAfter, Message.isNoteOff]
  obtain ⟨track, built, read⟩ := file_reads_back
    [⟨60, 0, 480, 101, 0⟩, ⟨64, 0, 480, 101, 0⟩, ⟨67, 240, 480, 0, 3⟩] minute (by decide)
    (by decide : (1 : Int) ≤ 480 ∧ (480 : Int) ≤ 32767)
  obtain ⟨t, -, same⟩ := bind_eq_ok.mp built
  rw [cues] at same
  cases same
  have near : variableLength 0 = [0x00] := by simp [variableLength, leadingGroups]
  have far : variableLength 240 = [0x81, 0x70] := by simp [variableLength, leadingGroups]
  have size : (trackBytes none (⟨0, .tempo t⟩ :: (deltas 0
      [⟨0, .noteOn 0 60 101⟩, ⟨0, .noteOn 0 64 101⟩, ⟨240, .noteOn 3 67 0⟩,
        ⟨480, .noteOff 0 60 0⟩, ⟨480, .noteOff 0 64 0⟩, ⟨720, .noteOff 3 67 0⟩] ++
      [⟨0, .endOfTrack⟩]))).length = 36 := by
    simp only [deltas, List.cons_append, List.nil_append, Nat.sub_self, Nat.reduceSub, trackBytes,
      near, far]
    rfl
  obtain ⟨bytes, written, back⟩ := read (by rw [size]; decide)
  exact ⟨_, bytes, built, written, back⟩

end ChordSymbols
