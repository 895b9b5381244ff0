import PlaneSketch.Arena
import PlaneSketch.Assoc
import PlaneSketch.Block
import PlaneSketch.Closure
import PlaneSketch.CommandLine.Arguments
import PlaneSketch.CommandLine.FileAccess
import PlaneSketch.CommandLine.Flag
import PlaneSketch.CommandLine.Run
import PlaneSketch.CommandLine.UsageError
import PlaneSketch.CommandLine.Verbosity
import PlaneSketch.CommandLine.Word
import PlaneSketch.Compile
import PlaneSketch.Constraint
import PlaneSketch.Cycle
import PlaneSketch.Decimal.Binary
import PlaneSketch.Decimal.Format
import PlaneSketch.Decimal.Read
import PlaneSketch.Decimal.Round
import PlaneSketch.Decimal.Shortest
import PlaneSketch.Descent
import PlaneSketch.Describe
import PlaneSketch.Describe.Numbers
import PlaneSketch.Describe.Solve
import PlaneSketch.Describe.Table
import PlaneSketch.Diagnosis
import PlaneSketch.DisjointSets
import PlaneSketch.Document
import PlaneSketch.Document.File
import PlaneSketch.Document.Table
import PlaneSketch.Doubles
import PlaneSketch.Drag
import PlaneSketch.Equations
import PlaneSketch.Failure
import PlaneSketch.Feature
import PlaneSketch.Flaw
import PlaneSketch.Handle
import PlaneSketch.Island
import PlaneSketch.Json.Printer
import PlaneSketch.Json.Quoted
import PlaneSketch.Json.Reader
import PlaneSketch.Json.Token
import PlaneSketch.Json.Value
import PlaneSketch.LinearAlgebra.LeastSquares
import PlaneSketch.LinearAlgebra.Methods
import PlaneSketch.LinearAlgebra.Rank
import PlaneSketch.LinearAlgebra.SingularValues
import PlaneSketch.LinearAlgebra.Vector
import PlaneSketch.Log
import PlaneSketch.Log.Call
import PlaneSketch.Log.Solve
import PlaneSketch.Main
import PlaneSketch.Number
import PlaneSketch.Options
import PlaneSketch.Outcome
import PlaneSketch.Plan
import PlaneSketch.Pool
import PlaneSketch.Proofs.Acceptance
import PlaneSketch.Proofs.Accounts
import PlaneSketch.Proofs.Agreement
import PlaneSketch.Proofs.Anchors
import PlaneSketch.Proofs.Appending
import PlaneSketch.Proofs.Arena
import PlaneSketch.Proofs.Arithmetic
import PlaneSketch.Proofs.Blocks
import PlaneSketch.Proofs.Closure
import PlaneSketch.Proofs.Compile
import PlaneSketch.Proofs.Conflicts
import PlaneSketch.Proofs.Containment
import PlaneSketch.Proofs.Cycles
import PlaneSketch.Proofs.DampedStep
import PlaneSketch.Proofs.Damping
import PlaneSketch.Proofs.Decoding
import PlaneSketch.Proofs.Deletion
import PlaneSketch.Proofs.Derivative
import PlaneSketch.Proofs.Descent
import PlaneSketch.Proofs.Diagnosis
import PlaneSketch.Proofs.DisjointSets
import PlaneSketch.Proofs.Dragging
import PlaneSketch.Proofs.Editing
import PlaneSketch.Proofs.Faults
import PlaneSketch.Proofs.Gather
import PlaneSketch.Proofs.Geometry
import PlaneSketch.Proofs.History
import PlaneSketch.Proofs.Interruption
import PlaneSketch.Proofs.Isolation
import PlaneSketch.Proofs.Joining
import PlaneSketch.Proofs.Joint
import PlaneSketch.Proofs.LeastSquares
import PlaneSketch.Proofs.Lists
import PlaneSketch.Proofs.Memory
import PlaneSketch.Proofs.Mirroring
import PlaneSketch.Proofs.Outline
import PlaneSketch.Proofs.Partition
import PlaneSketch.Proofs.Permanence
import PlaneSketch.Proofs.Pinning
import PlaneSketch.Proofs.Planning
import PlaneSketch.Proofs.Pool
import PlaneSketch.Proofs.Positions
import PlaneSketch.Proofs.Printing
import PlaneSketch.Proofs.Pulls
import PlaneSketch.Proofs.Rank
import PlaneSketch.Proofs.Reach
import PlaneSketch.Proofs.Reduction
import PlaneSketch.Proofs.Redundancy
import PlaneSketch.Proofs.Registry
import PlaneSketch.Proofs.Repetition
import PlaneSketch.Proofs.Reports
import PlaneSketch.Proofs.RowSpace
import PlaneSketch.Proofs.Skipping
import PlaneSketch.Proofs.Spectrum
import PlaneSketch.Proofs.Success
import PlaneSketch.Proofs.Translation
import PlaneSketch.Proofs.Trimming
import PlaneSketch.Proofs.Trouble
import PlaneSketch.Proofs.Unanchored
import PlaneSketch.Proofs.Unrelated
import PlaneSketch.Proofs.Validation
import PlaneSketch.Proofs.Values
import PlaneSketch.Proofs.Verdicts
import PlaneSketch.Registry
import PlaneSketch.Relation
import PlaneSketch.Report
import PlaneSketch.Report.Printer
import PlaneSketch.Scalar
import PlaneSketch.Scalar.Double
import PlaneSketch.Scalar.Fused
import PlaneSketch.Scalar.Real
import PlaneSketch.Session
import PlaneSketch.Sketch
import PlaneSketch.Sketch.Edit
import PlaneSketch.Sketch.Lookup
import PlaneSketch.Text.CharClass
import PlaneSketch.Text.Numeral
import PlaneSketch.Text.Quoted
import PlaneSketch.Text.Symbols
import PlaneSketch.Text.Unprintable
import PlaneSketch.Total
import PlaneSketch.Validation
import PlaneSketch.Variable
import PlaneSketch.Vec
