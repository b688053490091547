import AccessPattern.Coverage
import AccessPattern.Files.Fault
import AccessPattern.Files.System
import AccessPattern.Json.Reader
import AccessPattern.Json.Token
import AccessPattern.Json.Value
import AccessPattern.Json.Writer
import AccessPattern.Main
import AccessPattern.Manifest
import AccessPattern.Order.Generate
import AccessPattern.Order.Lanes
import AccessPattern.Order.Session
import AccessPattern.Path
import AccessPattern.Plan.Block
import AccessPattern.Plan.Buckets
import AccessPattern.Plan.Geometry
import AccessPattern.Plan.Strategy
import AccessPattern.Random.Shuffle
import AccessPattern.Random.Source
import AccessPattern.Random.Xoshiro
import AccessPattern.RequestError
import AccessPattern.Run.Basic
import AccessPattern.Run.Host
import AccessPattern.Run.Job
import AccessPattern.Run.Log
import AccessPattern.Run.Report
import AccessPattern.Settings.Basic
import AccessPattern.Settings.CommandLine
import AccessPattern.Settings.File
import AccessPattern.Settings.Options
import AccessPattern.Settings.Validation
import AccessPattern.Size
import AccessPattern.Testset
import AccessPattern.Text.Alphabetic
import AccessPattern.Text.Blank
import AccessPattern.Text.Decimal
import AccessPattern.Text.Hexadecimal
import AccessPattern.Text.LetterCase
import AccessPattern.Timestamp.Basic
import AccessPattern.Timestamp.Reader
import AccessPattern.Toml.Document
import AccessPattern.Toml.Lexeme
import AccessPattern.Toml.Node
import AccessPattern.Toml.Scalar
import AccessPattern.Toml.Value
import AccessPattern.Proofs.Order.Blocks
import AccessPattern.Proofs.Order.Interleave
import AccessPattern.Proofs.Order.Permutation
import AccessPattern.Proofs.Order.Chunks
import AccessPattern.Proofs.Order.Pages
import AccessPattern.Proofs.Order.PageTurns
import AccessPattern.Proofs.Order.PageGrain
import AccessPattern.Proofs.Order.Rotation
import AccessPattern.Proofs.Except
import AccessPattern.Proofs.Files.Writing
import AccessPattern.Proofs.Size
import AccessPattern.Proofs.Files.Neighbours
import AccessPattern.Proofs.Files.Storing
import AccessPattern.Proofs.Coverage
import AccessPattern.Proofs.Settings.OutputPaths
import AccessPattern.Proofs.Settings.DistinctPaths
import AccessPattern.Proofs.Settings.Validity
import AccessPattern.Proofs.Testset
import AccessPattern.Proofs.Run.Job
import AccessPattern.Proofs.Run.Jobs
import AccessPattern.Proofs.Run.OutputFiles
import AccessPattern.Proofs.Json.Scanning
import AccessPattern.Proofs.Json.RoundTrip
import AccessPattern.Proofs.Timestamp
import AccessPattern.Proofs.Manifest
import AccessPattern.Proofs.Replay
import AccessPattern.Proofs.Run.Replay
import AccessPattern.Proofs.Run.Verification
import AccessPattern.Proofs.Timestamp.Validity
import AccessPattern.Proofs.Checks
import AccessPattern.Proofs.Plan.Requests
import AccessPattern.Proofs.Settings.Checks
import AccessPattern.Proofs.Coverage.Bytes
import AccessPattern.Proofs.Settings.DryRunSwitch
import AccessPattern.Proofs.Files.Beside
import AccessPattern.Proofs.Run.Fate
import AccessPattern.Proofs.Run.Isolation
import AccessPattern.Proofs.Toml.Keys
import AccessPattern.Proofs.Toml.Document
import AccessPattern.Proofs.Toml.Writing
import AccessPattern.Proofs.Settings.Sources
import AccessPattern.Proofs.Settings.Precedence
import AccessPattern.Proofs.Settings.FileFaults
import AccessPattern.Proofs.Settings.SizeTexts
import AccessPattern.Proofs.Run.Course
import AccessPattern.Proofs.Random.Choices
import AccessPattern.Proofs.Order.LaneChoices
import AccessPattern.Proofs.Order.Unmixing
import AccessPattern.Proofs.Order.EveryOrder
import AccessPattern.Proofs.Order.Ranks
import AccessPattern.Proofs.Order.Rounds
import AccessPattern.Proofs.Order.Places
import AccessPattern.Proofs.Order.Histogram
import AccessPattern.Proofs.Checked.Steps
import AccessPattern.Proofs.Coverage.FirstFault
import AccessPattern.Proofs.Checked.Coverage
import AccessPattern.Proofs.Checked.Generate
import AccessPattern.Proofs.Checked.Plans
import AccessPattern.Proofs.Text.Decimal
import AccessPattern.Proofs.Text.Bytes
import AccessPattern.Proofs.Text.LetterCase
import AccessPattern.Proofs.Text.Trim
import AccessPattern.Proofs.Size.Grammar
import AccessPattern.Proofs.Checked.Size
import AccessPattern.Proofs.Size.Shortest
import AccessPattern.Proofs.Testset.Grammar
import AccessPattern.Proofs.Testset.FaultLines
import AccessPattern.Proofs.Order.BlockNumbers
import AccessPattern.Proofs.Order.PageRuns
import AccessPattern.Proofs.Order.Scaling
import AccessPattern.Proofs.Order.Agreement
import AccessPattern.Proofs.Order.Session
import AccessPattern.Proofs.Order.Lanes
import AccessPattern.Proofs.Run.EarlyCheck
