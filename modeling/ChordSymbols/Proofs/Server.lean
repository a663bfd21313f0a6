import ChordSymbols.Server
import ChordSymbols.Proofs.Activity
import ChordSymbols.Proofs.CommandLine

/-!
# What the server starts with

The server starts exactly if its options are read and the folder has no zero
byte; then it writes one record, and otherwise none. The starts that some command
line leads to are told by the folder and by the port alone, whatever folder was
set before.
-/

namespace ChordSymbols

variable {before : Text} {line : List Text} {x : Start}

/-- The way requests come in. -/
def Options.channel (o : Options) : Channel :=
  match o.transport with
  | .value .stdio => .stdio
  | .value .http | .void => .http o.port

/-- The start that the options ask for. -/
def Options.start (before : Text) (o : Options) : Start :=
  ⟨o.channel, o.debug, chosenFolder before o⟩

def startRecord (o : Options) : Record :=
  ⟨.info, .server, "Starting CHUK Chorder MCP Server (" ++ shownTransport o.transport ++ ")"⟩

theorem startServer_of_usage {e : Stop} (refused : readOptions line = .error e) :
    startServer before line = ⟨[], .error (.stop e)⟩ := by
  unfold startServer
  rw [refused]
  rfl

theorem startServer_of_options {o : Options} (read : readOptions line = .ok o) :
    startServer before line =
      if (chosenFolder before o).contains (Char.ofNat 0) then Run.fail .zeroByte
      else ⟨[startRecord o], .ok (o.start before)⟩ := by
  unfold startServer
  rw [read]
  -- What follows the reading is run on the options; the channel is told by the cases of a transport.
  show (if (chosenFolder before o).contains (Char.ofNat 0) then Run.fail .zeroByte
    else (do
      Run.note .info .server (startRecord o).message
      match o.transport with
      | .value .stdio => return ⟨.stdio, o.debug, chosenFolder before o⟩
      | .value .http | .void => return ⟨.http o.port, o.debug, chosenFolder before o⟩)
      : Run StartError Start) = _
  congr 1
  obtain ⟨transport, port, folder, debug⟩ := o
  obtain (_ | _) | _ := transport <;> rfl

theorem startServer_starts_iff :
    (startServer before line).outcome = .ok x ↔
      ∃ o, readOptions line = .ok o ∧ Char.ofNat 0 ∉ chosenFolder before o ∧
        x = o.start before := by
  constructor
  · intro started
    cases read : readOptions line with
    | error e =>
      rw [startServer_of_usage read] at started
      cases started
    | ok o =>
      rw [startServer_of_options read] at started
      split at started
      · cases started
      · rename_i clear
        cases started
        exact ⟨o, rfl, fun zero => clear (List.contains_iff_mem.mpr zero), rfl⟩
  · rintro ⟨o, read, clear, rfl⟩
    rw [startServer_of_options read, if_neg fun zero => clear (List.contains_iff_mem.mp zero)]

/-- A server that starts writes one record, and one that does not writes none. -/
theorem records_startServer :
    ((startServer before line).records = [] ∧ ∃ e, (startServer before line).outcome = .error e) ∨
      ∃ o, readOptions line = .ok o ∧ (startServer before line).records = [startRecord o] ∧
        (startServer before line).outcome = .ok (o.start before) := by
  cases read : readOptions line with
  | error e =>
    rw [startServer_of_usage read]
    exact .inl ⟨rfl, _, rfl⟩
  | ok o =>
    rw [startServer_of_options read]
    split
    · exact .inl ⟨rfl, _, rfl⟩
    · exact .inr ⟨o, rfl, rfl, rfl⟩

/-- The folder is the one that was set before, or a name that was given. -/
theorem chosenFolder_cases (before : Text) (o : Options) :
    chosenFolder before o = before ∨
      ∃ t, t ≠ [] ∧ o.outputFolder = some (.value t) ∧ chosenFolder before o = t := by
  unfold chosenFolder
  split
  · exact .inl rfl
  · exact .inl rfl
  · exact .inl rfl
  · rename_i t filled chosen
    exact .inr ⟨t, filled, chosen, rfl⟩

theorem chosenFolder_of_value {o : Options} {t : Text} (chosen : o.outputFolder = some (.value t))
    (filled : t ≠ []) : chosenFolder before o = t := by
  unfold chosenFolder
  rw [chosen]
  cases t with
  | nil => exact absurd rfl filled
  | cons c cs => rfl

/-- Options that ask for a channel. -/
def Channel.options : Channel → Options
  | .stdio => {}
  | .http port => { transport := .value .http, port := port }

theorem Channel.sensible_options {c : Channel}
    (few : ∀ n, c = .http (.value n) → isShowable n = true) : c.options.Sensible := by
  cases c with
  | stdio => exact sensible_default
  | http port => exact ⟨fun n same => few n (congrArg Channel.http same), (nomatch ·)⟩

theorem Channel.channel_options (c : Channel) : c.options.channel = c := by
  cases c <;> rfl

theorem Options.port_of_channel {o : Options} {n : Int} (listens : o.channel = .http (.value n)) :
    o.port = .value n := by
  unfold Options.channel at listens
  split at listens
  · cases listens
  · exact Channel.http.inj listens
  · exact Channel.http.inj listens

theorem Options.Sensible.chosenFolder_cases {o : Options} (sensible : o.Sensible) (before : Text) :
    chosenFolder before o = before ∨
      chosenFolder before o ≠ [] ∧ chosenFolder before o ≠ ['-', '-'] := by
  obtain same | ⟨t, filled, chosen, same⟩ := ChordSymbols.chosenFolder_cases before o
  · exact .inl same
  · rw [same]
    exact .inr ⟨filled, fun dashes => sensible.folder (dashes ▸ chosen)⟩

/-- The starts that some command line leads to. -/
theorem startServer_reaches_iff :
    (∃ line, (startServer before line).outcome = .ok x) ↔
      Char.ofNat 0 ∉ x.outputFolder ∧
        (x.outputFolder = before ∨ x.outputFolder ≠ [] ∧ x.outputFolder ≠ ['-', '-']) ∧
        ∀ n, x.channel = .http (.value n) → isShowable n = true := by
  constructor
  · rintro ⟨line, started⟩
    obtain ⟨o, read, clear, rfl⟩ := startServer_starts_iff.mp started
    have sensible := readOptions_reaches_iff.mp ⟨line, read⟩
    exact ⟨clear, sensible.chosenFolder_cases before,
      fun n listens => sensible.port n (Options.port_of_channel listens)⟩
  · rintro ⟨clear, folder, port⟩
    obtain ⟨f, plain, chosen⟩ : ∃ f, f ≠ some (.value ['-', '-']) ∧
        ∀ o : Options, o.outputFolder = f → chosenFolder before o = x.outputFolder := by
      rcases folder with same | ⟨filled, other⟩
      · refine ⟨none, (nomatch ·), fun o unset => ?_⟩
        rw [same, chosenFolder, unset]
      · refine ⟨some (.value x.outputFolder), fun same => other ?_,
          fun o given => chosenFolder_of_value given filled⟩
        exact Given.value.inj (Option.some.inj same)
    let o : Options := { x.channel.options with outputFolder := f, debug := x.debug }
    have sensible : o.Sensible := ⟨(Channel.sensible_options port).port, plain⟩
    obtain ⟨line, read⟩ := readOptions_reaches_iff.mpr sensible
    have asked : x = o.start before := by
      have channel : o.channel = x.channel := x.channel.channel_options
      rw [Options.start, channel, chosen o rfl]
    exact ⟨line, startServer_starts_iff.mpr ⟨o, read, chosen o rfl ▸ clear, asked⟩⟩

end ChordSymbols
