import Playout.Binary64.Fixed
import Playout.Binary64.Reader
import Playout.Binary64.Shortest
import Playout.Binary64.Value
import Playout.Catalogue.Inspection
import Playout.Catalogue.Library
import Playout.Catalogue.Resolution
import Playout.Codec
import Playout.CommandLine.Arguments
import Playout.CommandLine.Invocation
import Playout.CommandLine.Report
import Playout.Config.Basic
import Playout.Config.Reader
import Playout.Encoder.Job
import Playout.Encoder.Launch
import Playout.Encoder.Process
import Playout.Encoder.Progress
import Playout.Encoder.SegmentName
import Playout.Encoding.Ladder
import Playout.Encoding.Level
import Playout.Encoding.Scale
import Playout.Encoding.Settings
import Playout.Error
import Playout.Fragment
import Playout.Host.Files
import Playout.Host.Program
import Playout.Http.Exchange
import Playout.Http.Request
import Playout.Http.Response
import Playout.Http.Route
import Playout.Identity
import Playout.Json.Member
import Playout.Json.Number
import Playout.Json.Pretty
import Playout.Json.Reader
import Playout.Json.Record
import Playout.Json.Token
import Playout.Json.Value
import Playout.Locator
import Playout.Main
import Playout.Manifest.MasterPlaylist
import Playout.Manifest.MediaPlaylist
import Playout.Manifest.Mpd
import Playout.Manifest.Offer
import Playout.Path
import Playout.Playable
import Playout.Playback.Acquire
import Playout.Playback.Await
import Playout.Playback.Bind
import Playout.Playback.Feedback
import Playout.Playback.Idle
import Playout.Playback.Lock
import Playout.Playback.Request
import Playout.Playback.Served
import Playout.Playback.Shutdown
import Playout.Playback.Start
import Playout.Playback.State
import Playout.Playback.Teardown
import Playout.Probe.Basic
import Playout.Probe.Report
import Playout.Proofs.Encoder.Pieces
import Playout.Proofs.Binary64.Fixed
import Playout.Proofs.Encoder.FileNames
import Playout.Proofs.Encoder.ForcedKeyframes
import Playout.Proofs.Catalogue.Findings
import Playout.Proofs.Catalogue.Currency
import Playout.Proofs.Manifest.MediaPlaylist
import Playout.Proofs.Playback.Bookkeeping
import Playout.Proofs.Playback.Decision
import Playout.Proofs.Playback.Disconnection
import Playout.Proofs.Playback.Exited
import Playout.Proofs.Playback.Handoff
import Playout.Proofs.Playback.IdleCleanup
import Playout.Proofs.Playback.Viewing
import Playout.Proofs.Run.Work
import Playout.Representation.Basic
import Playout.Representation.Cache
import Playout.Representation.Id
import Playout.Representation.Resolve
import Playout.Run.Available
import Playout.Run.Basic
import Playout.Scenario.Call
import Playout.Scenario.Reader
import Playout.Scenario.Sample
import Playout.Scenario.Scene
import Playout.Scenario.SingleRun
import Playout.Scenario.Snapshot
import Playout.Scenario.Step
import Playout.Segment.Plan
import Playout.Shell.Arithmetic
import Playout.Shell.Command
import Playout.Shell.Expansion
import Playout.Shell.Group
import Playout.Shell.Machine
import Playout.Shell.Reader
import Playout.Shell.Signal
import Playout.Shell.Token
import Playout.Shell.Utility
import Playout.Stream.Basic
import Playout.Stream.Json
import Playout.Stream.Ratio
import Playout.Text.Base64Url
import Playout.Text.Blank
import Playout.Text.Hex
import Playout.Text.LowerCase
import Playout.Text.Numeral
import Playout.Text.Percent
import Playout.Text.Quoted
import Playout.Text.Split
import Playout.Text.Utf8
import Playout.Toml.Reader
import Playout.Toml.Scalar
import Playout.Toml.Value
import Playout.Tool.Inspector
import Playout.Tool.Lookup
import Playout.Tool.Run
import Playout.Tool.Supervision
import Playout.Turn
import Playout.Word
import Playout.Proofs.Manifest.Mpd
import Playout.Proofs.Manifest.AdaptationSets
import Playout.Proofs.Text.Base64Url
import Playout.Proofs.Json.Token
import Playout.Proofs.Json.Reader
import Playout.Proofs.Json.Number
import Playout.Proofs.Json.Record
import Playout.Proofs.Encoding.Settings
import Playout.Proofs.Representation.Cache
import Playout.Proofs.Representation.Canonical
import Playout.Proofs.Path
import Playout.Proofs.Locator
import Playout.Proofs.Playback.Inert
import Playout.Proofs.Playback.LifeCycle
import Playout.Proofs.Manifest.AudioGroups
import Playout.Proofs.Manifest.Names
import Playout.Proofs.Manifest.Quoting
import Playout.Proofs.Playback.Closing
import Playout.Proofs.Playback.Switching
import Playout.Proofs.Playback.Throttling
import Playout.Proofs.Catalogue.Plans
import Playout.Proofs.Segment.Merging
import Playout.Proofs.Fragment.Renumbering
import Playout.Proofs.Fragment.Walk
import Playout.Proofs.Delivery
import Playout.Proofs.Encoder.Progress
import Playout.Proofs.Playback.FailedStart
import Playout.Proofs.Playback.Waiting
import Playout.Proofs.Representation.Alignment
import Playout.Proofs.Encoding.Level
import Playout.Proofs.Encoding.Scale
import Playout.Proofs.Playable
