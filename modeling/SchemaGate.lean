import SchemaGate.Command.Run
import SchemaGate.Generation
import SchemaGate.Main
import SchemaGate.Output
import SchemaGate.Plan
import SchemaGate.Render
import SchemaGate.Settings
import SchemaGate.Validation
import SchemaGate.Workflow
import SchemaGate.Proofs.Repeats
import SchemaGate.Proofs.Paired
import SchemaGate.Proofs.Lookup
import SchemaGate.Proofs.Text.Split
import SchemaGate.Proofs.Text.Slugs
import SchemaGate.Proofs.Text.Bytes
import SchemaGate.Proofs.Json.Presentation
import SchemaGate.Proofs.Json.Scanning
import SchemaGate.Proofs.Json.Writing
import SchemaGate.Proofs.Disk.Paths
import SchemaGate.Proofs.Disk.Places
import SchemaGate.Proofs.Disk.Directories
import SchemaGate.Proofs.Validation.Correspondence
import SchemaGate.Proofs.Validation.Indexes
import SchemaGate.Proofs.Validation.Names
import SchemaGate.Proofs.Validation.Ambiguity
import SchemaGate.Proofs.Validation.Acceptance
import SchemaGate.Proofs.Schema.Bare
import SchemaGate.Proofs.Schema.Undescribed
import SchemaGate.Proofs.Schema.Decoding
import SchemaGate.Proofs.Plan.Partition
import SchemaGate.Proofs.Plan.Walk
import SchemaGate.Proofs.Plan.Hints
import SchemaGate.Proofs.Plan.Order
import SchemaGate.Proofs.Plan.Filenames
import SchemaGate.Proofs.Plan.Findings
import SchemaGate.Proofs.Plan.Realizable
import SchemaGate.Proofs.Validation.Undescribed
import SchemaGate.Proofs.Validation.Isolation
import SchemaGate.Proofs.Validation.Findings
import SchemaGate.Proofs.Validation.Relations
import SchemaGate.Proofs.Validation.Ownership
import SchemaGate.Proofs.Validation.Paths
import SchemaGate.Proofs.Validation.Others
import SchemaGate.Proofs.Validation.Rearranged
import SchemaGate.Proofs.Validation.IndexReports
import SchemaGate.Proofs.Render.Relations
import SchemaGate.Proofs.Render.RelationEnds
import SchemaGate.Proofs.Render.Properties
import SchemaGate.Proofs.Render.Legible
import SchemaGate.Proofs.Render.Spelled
import SchemaGate.Proofs.Render.IndexLines
import SchemaGate.Proofs.Render.Blocks
import SchemaGate.Proofs.Render.Closure
import SchemaGate.Proofs.Render.Comments
import SchemaGate.Proofs.Render.Descriptions
import SchemaGate.Proofs.Render.Providers
import SchemaGate.Proofs.Render.Recovery
import SchemaGate.Proofs.Render.Outputs
import SchemaGate.Proofs.Render.SingleFiles
import SchemaGate.Proofs.Render.Locality
import SchemaGate.Proofs.Output.Confined
import SchemaGate.Proofs.Output.Placed
import SchemaGate.Proofs.Output.Written
import SchemaGate.Proofs.Output.Orphans
import SchemaGate.Proofs.Generation.Attempts
import SchemaGate.Proofs.Generation.Candidates
import SchemaGate.Proofs.Generation.Report
import SchemaGate.Proofs.Generation.Replay
import SchemaGate.Proofs.Generation.Interleaving
import SchemaGate.Proofs.Generation.Feedback
import SchemaGate.Proofs.Generation.Routing
import SchemaGate.Proofs.Generation.Decisive
