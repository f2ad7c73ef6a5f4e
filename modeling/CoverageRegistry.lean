import CoverageRegistry.Json.Reader
import CoverageRegistry.Main
import CoverageRegistry.Proofs.Path.Segments
import CoverageRegistry.Proofs.Path.StackMachine
import CoverageRegistry.Proofs.Collector.Bucket
import CoverageRegistry.Proofs.Collector.Offer
import CoverageRegistry.Proofs.Collector.Operation
import CoverageRegistry.Proofs.Collector.Log
import CoverageRegistry.Proofs.Collector.Open
import CoverageRegistry.Proofs.Collector.Sealing
import CoverageRegistry.Proofs.Sensor.Contributions
import CoverageRegistry.Proofs.Run.Report
import CoverageRegistry.Proofs.Collector.Reorder
import CoverageRegistry.Proofs.TextMap
import CoverageRegistry.Proofs.Run.Task
import CoverageRegistry.Proofs.Run.Sound
import CoverageRegistry.Proofs.Run.Build
import CoverageRegistry.Proofs.Run.Conservation
import CoverageRegistry.Proofs.Run.Order
import CoverageRegistry.Proofs.Run.Isolation
import CoverageRegistry.Proofs.Report.Outcome
import CoverageRegistry.Proofs.Collector.ReportFiles
import CoverageRegistry.Proofs.Sensor.Rejection
import CoverageRegistry.Proofs.Sensor.Operations
import CoverageRegistry.Proofs.Run.Open
import CoverageRegistry.Proofs.Run.Finish
import CoverageRegistry.Proofs.Run.Rejection
import CoverageRegistry.Proofs.Command.Collect
import CoverageRegistry.Proofs.Text.Utf8
import CoverageRegistry.Proofs.Language.PropertyKeys
import CoverageRegistry.Proofs.Language.Registration
import CoverageRegistry.Proofs.Path.Idempotence
import CoverageRegistry.Proofs.Report.Digest
import CoverageRegistry.Proofs.Path.Noise
import CoverageRegistry.Proofs.Sensor.OutputDirs
import CoverageRegistry.Proofs.Collector.Growth
import CoverageRegistry.Proofs.Sensor.Atomicity
import CoverageRegistry.Proofs.Run.Execution
import CoverageRegistry.Proofs.Run.Slots
import CoverageRegistry.Proofs.Text.Blank
import CoverageRegistry.Proofs.Path.List
import CoverageRegistry.Proofs.Path.Relative
import CoverageRegistry.Proofs.Language.Lookup
import CoverageRegistry.Proofs.Language.Calls
import CoverageRegistry.Proofs.Language.File
import CoverageRegistry.Proofs.Settings.File
import CoverageRegistry.Proofs.Collector.Events
import CoverageRegistry.Proofs.Codec.Record
import CoverageRegistry.Proofs.Codec.Report
import CoverageRegistry.Proofs.Codec.Run
import CoverageRegistry.Proofs.Run.Splitting
import CoverageRegistry.Proofs.Collector.Representation
import CoverageRegistry.Proofs.Report.Views
