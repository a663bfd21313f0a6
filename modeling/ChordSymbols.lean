import ChordSymbols.CommandLine
import ChordSymbols.Disk
import ChordSymbols.Document.Fault
import ChordSymbols.Document.Record
import ChordSymbols.Document.Summary
import ChordSymbols.Document.Tempo
import ChordSymbols.Document.Text
import ChordSymbols.Document.Validation
import ChordSymbols.Failure
import ChordSymbols.Harmony.Chord
import ChordSymbols.Harmony.Marker
import ChordSymbols.Harmony.Mode
import ChordSymbols.Harmony.Parts
import ChordSymbols.Harmony.PitchClass
import ChordSymbols.Journal
import ChordSymbols.Json
import ChordSymbols.Main
import ChordSymbols.Number.Binary64
import ChordSymbols.Number.Decimal
import ChordSymbols.Number.Quantity
import ChordSymbols.Playback.Event
import ChordSymbols.Playback.File
import ChordSymbols.Playback.Layout
import ChordSymbols.Playback.Track
import ChordSymbols.Progression
import ChordSymbols.Server
import ChordSymbols.Session
import ChordSymbols.Symbol.Code
import ChordSymbols.Symbol.Compile
import ChordSymbols.Symbol.Error
import ChordSymbols.Symbol.Parse
import ChordSymbols.Symbol.Scan
import ChordSymbols.Symbol.Spelling
import ChordSymbols.Symbol.Token
import ChordSymbols.Symbol.Value
import ChordSymbols.Text.Basic
import ChordSymbols.Text.Blank
import ChordSymbols.Text.Integer
import ChordSymbols.Text.Pattern
import ChordSymbols.Text.Printable
import ChordSymbols.Text.Quoted
import ChordSymbols.Tool.Export
import ChordSymbols.Tool.Progression
import ChordSymbols.Tool.Reply
import ChordSymbols.Tool.Request
import ChordSymbols.Tool.Symbol
import ChordSymbols.Tool.Vocabulary
import ChordSymbols.Value
import ChordSymbols.Yaml.Plain
import ChordSymbols.Yaml.Scalar
import ChordSymbols.Proofs.Outcome
import ChordSymbols.Proofs.Symbol.Lexing
import ChordSymbols.Proofs.Symbol.Lexemes
import ChordSymbols.Proofs.Symbol.Tokenizing
import ChordSymbols.Proofs.Symbol.Grammar
import ChordSymbols.Proofs.Symbol.Lookup
import ChordSymbols.Proofs.Symbol.Language
import ChordSymbols.Proofs.Symbol.Verdict
import ChordSymbols.Proofs.Symbol.Canonical
import ChordSymbols.Proofs.Symbol.Writing
import ChordSymbols.Proofs.Symbol.Parsing
import ChordSymbols.Proofs.Progression.Compilation
import ChordSymbols.Proofs.Playback.Timeline
import ChordSymbols.Proofs.Progression.RoundTrip
import ChordSymbols.Proofs.Playback.Replay
import ChordSymbols.Proofs.Playback.Ordering
import ChordSymbols.Proofs.Playback.Bracketing
import ChordSymbols.Proofs.Harmony.Voicing
import ChordSymbols.Proofs.Harmony.ClosePosition
import ChordSymbols.Proofs.Playback.Sounding
import ChordSymbols.Proofs.Playback.Laying
import ChordSymbols.Proofs.Playback.Transposition
import ChordSymbols.Proofs.Progression.Appending
import ChordSymbols.Proofs.Progression.Leniency
import ChordSymbols.Proofs.Tool.Reply
import ChordSymbols.Proofs.Tool.Extension
import ChordSymbols.Proofs.Number.Rounding
import ChordSymbols.Proofs.Playback.Release
import ChordSymbols.Proofs.Playback.Ending
import ChordSymbols.Proofs.Playback.Reader
import ChordSymbols.Proofs.Playback.ReadBack
import ChordSymbols.Proofs.Number.Bounded
import ChordSymbols.Proofs.Playback.Playable
import ChordSymbols.Proofs.Document.Validation
import ChordSymbols.Proofs.Document.Agreement
import ChordSymbols.Proofs.Disk.Path
import ChordSymbols.Proofs.Disk.Place
import ChordSymbols.Proofs.Disk.Folder
import ChordSymbols.Proofs.Document.Faults
import ChordSymbols.Proofs.Document.Playing
import ChordSymbols.Proofs.Document.Record
import ChordSymbols.Proofs.Tool.Exporting
import ChordSymbols.Proofs.Tool.ExportPlace
import ChordSymbols.Proofs.Session
import ChordSymbols.Proofs.Harmony.Naming
import ChordSymbols.Proofs.Tool.ChordNotes
import ChordSymbols.Proofs.Tool.PaddedTonic
import ChordSymbols.Proofs.Activity
import ChordSymbols.Proofs.Tool.Foreseen
import ChordSymbols.Proofs.Tool.SharedFaults
import ChordSymbols.Proofs.Progression.Records
import ChordSymbols.Proofs.Playback.Reordering
import ChordSymbols.Proofs.Harmony.Readings
import ChordSymbols.Proofs.Text.Pattern
import ChordSymbols.Proofs.Yaml.Folding
import ChordSymbols.Proofs.Yaml.Escapes
import ChordSymbols.Proofs.Yaml.ReadBack
import ChordSymbols.Proofs.Text.Integer
import ChordSymbols.Proofs.CommandLine
import ChordSymbols.Proofs.Server
import ChordSymbols.Proofs.Tool.Vocabulary
