import BranchingStory.Assoc
import BranchingStory.Calendar
import BranchingStory.Console.Command
import BranchingStory.Console.Help
import BranchingStory.Console.Loop
import BranchingStory.Console.Options
import BranchingStory.Console.Program
import BranchingStory.Console.Screen
import BranchingStory.Console.Session
import BranchingStory.Console.Settings
import BranchingStory.Console.Slot
import BranchingStory.Disk.Basic
import BranchingStory.Disk.Path
import BranchingStory.Json.Basic
import BranchingStory.Json.Reader
import BranchingStory.Json.Text
import BranchingStory.Library.Bundled
import BranchingStory.Library.Load
import BranchingStory.Library.Repository
import BranchingStory.Notice
import BranchingStory.Number.Basic
import BranchingStory.Number.Decimal
import BranchingStory.Number.Double
import BranchingStory.Number.Rounding
import BranchingStory.Places
import BranchingStory.Play.Block
import BranchingStory.Play.Collection
import BranchingStory.Play.Engine
import BranchingStory.Play.History
import BranchingStory.Play.Save
import BranchingStory.Play.Snapshot
import BranchingStory.Play.World
import BranchingStory.Story.Authored
import BranchingStory.Story.Cast
import BranchingStory.Story.Catalogue
import BranchingStory.Story.Flag
import BranchingStory.Story.Graph
import BranchingStory.Story.Node
import BranchingStory.Story.Reading
import BranchingStory.Story.Walk
import BranchingStory.Text.Blank
import BranchingStory.Text.Charset
import BranchingStory.Text.Digit
import BranchingStory.Text.Half
import BranchingStory.Text.Hex
import BranchingStory.Text.Lines
import BranchingStory.Text.Numeral
import BranchingStory.Text.Printable
import BranchingStory.Text.Quoted
import BranchingStory.Text.Utf8
import BranchingStory.Text.Wrap
import BranchingStory.Told
import BranchingStory.Main
import BranchingStory.Proofs.Orbit
import BranchingStory.Proofs.Links
import BranchingStory.Proofs.Moves
import BranchingStory.Proofs.DisplayedNodes
import BranchingStory.Proofs.Consistency
import BranchingStory.Proofs.DisplayLog
import BranchingStory.Proofs.Progress
import BranchingStory.Proofs.Reread
import BranchingStory.Proofs.Stability
import BranchingStory.Proofs.Collections
import BranchingStory.Proofs.Worlds
import BranchingStory.Proofs.Mirror
import BranchingStory.Proofs.Sessions
import BranchingStory.Proofs.Checkpoint
import BranchingStory.Proofs.PendingPrompt
import BranchingStory.Proofs.Refusals
import BranchingStory.Proofs.SnapshotFaults
import BranchingStory.Proofs.Bounds
import BranchingStory.Proofs.Effects
import BranchingStory.Proofs.FrozenSpeakers
import BranchingStory.Proofs.Ambience
import BranchingStory.Proofs.Utf8
import BranchingStory.Proofs.JsonFaults
import BranchingStory.Proofs.SnapshotDepth
import BranchingStory.Proofs.LoadFaults
import BranchingStory.Proofs.DoubleRange
import BranchingStory.Proofs.AuthoredFormat
import BranchingStory.Proofs.NewGame
import BranchingStory.Proofs.DiskChanges
import BranchingStory.Proofs.SlotWrites
import BranchingStory.Proofs.TypedLines
import BranchingStory.Proofs.ConsoleRuns
import BranchingStory.Proofs.Steering
import BranchingStory.Proofs.OlderSnapshots
import BranchingStory.Proofs.NumberedChoices
import BranchingStory.Proofs.PrintedBlocks
import BranchingStory.Proofs.WrappedWords
import BranchingStory.Proofs.LoadedOnce
import BranchingStory.Proofs.NodeEffects
import BranchingStory.Proofs.HeldIds
import BranchingStory.Proofs.SettingsFile
import BranchingStory.Proofs.FlagEquality
import BranchingStory.Proofs.GuardedWalks
import BranchingStory.Proofs.WrittenNodes
import BranchingStory.Proofs.NameReveals
