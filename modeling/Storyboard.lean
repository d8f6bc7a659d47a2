import Storyboard.Camera
import Storyboard.Color.Basic
import Storyboard.Color.Conversion
import Storyboard.Color.Names
import Storyboard.Color.Reader
import Storyboard.Color.Render
import Storyboard.CommandLine.Arguments
import Storyboard.CommandLine.Disk
import Storyboard.CommandLine.Headless
import Storyboard.CommandLine.Run
import Storyboard.Diagnostic.Basic
import Storyboard.Diagram.Basic
import Storyboard.Diagram.Caption
import Storyboard.Diagram.Direction
import Storyboard.Diagram.Effect
import Storyboard.Diagram.Element
import Storyboard.Diagram.Options
import Storyboard.Diagram.Property
import Storyboard.Diagram.Step
import Storyboard.Diagram.Style
import Storyboard.Document.Animation
import Storyboard.Document.ConfigBlock
import Storyboard.Document.Fault
import Storyboard.Document.Flowchart
import Storyboard.Document.Grammar
import Storyboard.Document.Line
import Storyboard.Document.NarrationBlock
import Storyboard.Document.Parse
import Storyboard.Document.PropertyLine
import Storyboard.Document.Section
import Storyboard.Document.StyleBlock
import Storyboard.Failure
import Storyboard.Geometry
import Storyboard.Layout.Basic
import Storyboard.Layout.Layered
import Storyboard.Layout.Ranks
import Storyboard.Main
import Storyboard.Number.Binary
import Storyboard.Number.Decimal
import Storyboard.Number.Float
import Storyboard.Number.Literal
import Storyboard.Number.Scalar
import Storyboard.OrderedMap
import Storyboard.Playback.Clock
import Storyboard.Playback.Command
import Storyboard.Playback.LoggedNarrator
import Storyboard.Playback.Narrator
import Storyboard.Playback.Player
import Storyboard.Playback.Screen
import Storyboard.Playback.Shared
import Storyboard.Playback.SimulatedNarrator
import Storyboard.Program
import Storyboard.Proofs.Diagram.EdgeIds
import Storyboard.Proofs.Document.Arrangement
import Storyboard.Proofs.Document.CameraTargets
import Storyboard.Proofs.Document.Codes
import Storyboard.Proofs.Document.Endpoints
import Storyboard.Proofs.Document.Entries
import Storyboard.Proofs.Document.Graph
import Storyboard.Proofs.Document.Headers
import Storyboard.Proofs.Document.Ids
import Storyboard.Proofs.Document.Lines
import Storyboard.Proofs.Document.Mentions
import Storyboard.Proofs.Document.Options
import Storyboard.Proofs.Document.Orphans
import Storyboard.Proofs.Document.Outcome
import Storyboard.Proofs.Document.Placeless
import Storyboard.Proofs.Document.Portions
import Storyboard.Proofs.Document.Readings
import Storyboard.Proofs.Document.Reformatting
import Storyboard.Proofs.Document.Remarks
import Storyboard.Proofs.Document.Spans
import Storyboard.Proofs.Document.StepTexts
import Storyboard.Proofs.Document.Syntax
import Storyboard.Proofs.Document.TargetWarnings
import Storyboard.Proofs.Document.Warnings
import Storyboard.Proofs.Layout.Covering
import Storyboard.Proofs.Layout.Distance
import Storyboard.Proofs.Layout.Layered
import Storyboard.Proofs.Layout.Mirror
import Storyboard.Proofs.Layout.Ranks
import Storyboard.Proofs.Layout.Rows
import Storyboard.Proofs.Layout.Separation
import Storyboard.Proofs.Lists
import Storyboard.Proofs.Number.Exact
import Storyboard.Proofs.Number.Numeral
import Storyboard.Proofs.OrderedMap
import Storyboard.Proofs.Playback.Announcement
import Storyboard.Proofs.Playback.Clock
import Storyboard.Proofs.Playback.Completion
import Storyboard.Proofs.Playback.Control
import Storyboard.Proofs.Playback.Course
import Storyboard.Proofs.Playback.Display
import Storyboard.Proofs.Playback.Ending
import Storyboard.Proofs.Playback.Gate
import Storyboard.Proofs.Playback.History
import Storyboard.Proofs.Playback.Likeness
import Storyboard.Proofs.Playback.Log
import Storyboard.Proofs.Playback.Navigation
import Storyboard.Proofs.Playback.Operation
import Storyboard.Proofs.Playback.Order
import Storyboard.Proofs.Playback.Pace
import Storyboard.Proofs.Playback.Part
import Storyboard.Proofs.Playback.Performance
import Storyboard.Proofs.Playback.Position
import Storyboard.Proofs.Playback.Recital
import Storyboard.Proofs.Playback.Recorder
import Storyboard.Proofs.Playback.Resumption
import Storyboard.Proofs.Playback.Sharing
import Storyboard.Proofs.Playback.Silence
import Storyboard.Proofs.Playback.Speech
import Storyboard.Proofs.Playback.Timekeeping
import Storyboard.Proofs.Playback.Visits
import Storyboard.Proofs.Program.Build
import Storyboard.Proofs.Program.Framing
import Storyboard.Proofs.Program.Headless
import Storyboard.Proofs.Program.Session
import Storyboard.Proofs.Program.Viewports
import Storyboard.Proofs.Text.Pieces
import Storyboard.Proofs.Text.Place
import Storyboard.Proofs.Text.Trimmed
import Storyboard.Proofs.Timeline.Camera
import Storyboard.Proofs.Timeline.Composition
import Storyboard.Proofs.Timeline.Cues
import Storyboard.Proofs.Timeline.Curves
import Storyboard.Proofs.Timeline.Drawing
import Storyboard.Proofs.Timeline.Drift
import Storyboard.Proofs.Timeline.Ease
import Storyboard.Proofs.Timeline.Frame
import Storyboard.Proofs.Timeline.Groups
import Storyboard.Proofs.Timeline.Highlight
import Storyboard.Proofs.Timeline.Lookup
import Storyboard.Proofs.Timeline.Resolution
import Storyboard.Proofs.Timeline.Schedule
import Storyboard.Proofs.Timeline.Settled
import Storyboard.Proofs.Timeline.Shares
import Storyboard.Proofs.Timeline.Targets
import Storyboard.Proofs.Timeline.Tiling
import Storyboard.Proofs.Timeline.Visibility
import Storyboard.Session
import Storyboard.Settings.Basic
import Storyboard.Settings.Toml.Definitions
import Storyboard.Settings.Toml.Document
import Storyboard.Settings.Toml.Moment
import Storyboard.Settings.Toml.Quoted
import Storyboard.Settings.Toml.Reader
import Storyboard.Settings.Toml.Word
import Storyboard.Settings.Value
import Storyboard.Text.Alphanumeric
import Storyboard.Text.Blank
import Storyboard.Timeline.Basic
import Storyboard.Timeline.Compile
import Storyboard.Timeline.Ease
import Storyboard.Timeline.Frame
import Storyboard.Timeline.Operation
