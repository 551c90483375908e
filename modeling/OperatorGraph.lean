import OperatorGraph.Config.Document
import OperatorGraph.Config.Environment
import OperatorGraph.Device
import OperatorGraph.Device.Word
import OperatorGraph.Error.Kind
import OperatorGraph.Graph.Describe
import OperatorGraph.Launch.DryRun
import OperatorGraph.Operation.Builtin
import OperatorGraph.Operation.Probe
import OperatorGraph.Operator.Fields
import OperatorGraph.Pool.Session
import OperatorGraph.Runner.Once
import OperatorGraph.Shader.Grid
import OperatorGraph.Text.Numeral
import OperatorGraph.Proofs.Graph.Topology
import OperatorGraph.Proofs.Runner.Resolution
import OperatorGraph.Proofs.Answers
import OperatorGraph.Proofs.Runner.History
import OperatorGraph.Proofs.Graph.Lifetimes
import OperatorGraph.Proofs.Workspace.Alignment
import OperatorGraph.Proofs.Workspace.Checked
import OperatorGraph.Proofs.Workspace.Geometry
import OperatorGraph.Proofs.Runner.Setup
import OperatorGraph.Proofs.Products
import OperatorGraph.Proofs.Runner.Ranges
import OperatorGraph.Proofs.Runner.Clobbering
import OperatorGraph.Proofs.Operator.Zeros
import OperatorGraph.Proofs.Runner.Zeros
import OperatorGraph.Proofs.Pool.Faithful
import OperatorGraph.Proofs.Pool.Shelves
import OperatorGraph.Proofs.Pool.Reuse
import OperatorGraph.Proofs.Dispatch.Shapes
import OperatorGraph.Proofs.Runner.Reshape
import OperatorGraph.Proofs.Runner.Completeness
import OperatorGraph.Proofs.Runner.Calls
import OperatorGraph.Proofs.Runner.Standing
import OperatorGraph.Proofs.Runner.Lookups
import OperatorGraph.Proofs.Runner.Protocol
import OperatorGraph.Proofs.Pool.Places
import OperatorGraph.Proofs.Pool.Table
import OperatorGraph.Proofs.Pool.Decisions
import OperatorGraph.Proofs.Runner.Containment
import OperatorGraph.Proofs.Runner.Planning
import OperatorGraph.Proofs.Inference.Checks
import OperatorGraph.Proofs.Inference.Rules
import OperatorGraph.Proofs.Dispatch.Excuses
import OperatorGraph.Proofs.Dispatch.Planning
import OperatorGraph.Proofs.Operator.Batch
import OperatorGraph.Proofs.Runner.Inferred
import OperatorGraph.Proofs.Shader.Evaluation
import OperatorGraph.Proofs.Shader.Frames
import OperatorGraph.Proofs.Shader.Triples
import OperatorGraph.Proofs.Shader.Threads
import OperatorGraph.Proofs.Dispatch.StridedCopies
import OperatorGraph.Proofs.Dispatch.Contents
import OperatorGraph.Proofs.Dispatch.Steps
import OperatorGraph.Proofs.Dispatch.Rearranging
import OperatorGraph.Proofs.Dispatch.Carrying
import OperatorGraph.Proofs.Dispatch.Transposing
import OperatorGraph.Proofs.Dispatch.Splitting
import OperatorGraph.Proofs.Dispatch.Joining
import OperatorGraph.Proofs.Dispatch.RoundTrips
import OperatorGraph.Proofs.Dispatch.Scores
import OperatorGraph.Proofs.Dispatch.Attending
import OperatorGraph.Proofs.Dispatch.AttendedRows
import OperatorGraph.Proofs.Dispatch.AttentionTraces
import OperatorGraph.Proofs.Device.Blocks
import OperatorGraph.Proofs.Device.Granting
import OperatorGraph.Proofs.Device.AddressTable
import OperatorGraph.Proofs.Dispatch.Measures
import OperatorGraph.Proofs.Dispatch.Addressing
import OperatorGraph.Proofs.Dispatch.Decoding
import OperatorGraph.Proofs.Dispatch.Rotations
import OperatorGraph.Proofs.Dispatch.RotaryTraces
import OperatorGraph.Proofs.Shape.Broadcasting
import OperatorGraph.Proofs.Dispatch.Broadcasts
import OperatorGraph.Proofs.Dispatch.MatrixProducts
import OperatorGraph.Proofs.Dispatch.Gathers
import OperatorGraph.Proofs.Dispatch.RowPasses
import OperatorGraph.Proofs.Dispatch.LayerNorms
import OperatorGraph.Proofs.Dispatch.RmsNorms
import OperatorGraph.Proofs.Dispatch.Softmaxes
import OperatorGraph.Proofs.Dispatch.Gates
import OperatorGraph.Proofs.Dispatch.RowTraces
import OperatorGraph.Proofs.Device.Writes
import OperatorGraph.Proofs.Device.ByteMemory
import OperatorGraph.Proofs.Dispatch.Spans
import OperatorGraph.Proofs.Device.Recording
import OperatorGraph.Proofs.Device.WorkspaceBindings
import OperatorGraph.Proofs.Workspace.Totals
import OperatorGraph.Proofs.Workspace.Room
import OperatorGraph.Proofs.Workspace.Peaks
import OperatorGraph.Proofs.Workspace.LiveRanges
import OperatorGraph.Proofs.Operation.AttentionLayout
import OperatorGraph.Proofs.Dispatch.Programs
import OperatorGraph.Proofs.Device.Refusals
import OperatorGraph.Proofs.Dispatch.Variants
import OperatorGraph.Proofs.Pool.Returns
import OperatorGraph.Proofs.Shader.Asking
import OperatorGraph.Proofs.Shader.Positions
import OperatorGraph.Proofs.Shader.Traps
import OperatorGraph.Proofs.Dispatch.Parameters
import OperatorGraph.Proofs.Dispatch.LastParameters
import OperatorGraph.Proofs.Dispatch.Layouts
import OperatorGraph.Proofs.Operation.FeedForward
import OperatorGraph.Proofs.Shader.Grids
import OperatorGraph.Proofs.Shape.Views
import OperatorGraph.Proofs.Inference.StridedBounds
import OperatorGraph.Proofs.Dispatch.StridedReadings
import OperatorGraph.Proofs.Inference.Faults
import OperatorGraph.Proofs.Inference.Safety
import OperatorGraph.Proofs.Shape.Joins
import OperatorGraph.Proofs.Shape.ByteSizes
import OperatorGraph.Proofs.Runner.Formats
import OperatorGraph.Proofs.Operator.Extents
import OperatorGraph.Proofs.Runner.NodeChanges
import OperatorGraph.Proofs.Runner.Extents
