import ConstraintGraph.Main
import ConstraintGraph.Proofs.Compilation.Order
import ConstraintGraph.Proofs.Edit.WellBuilt
import ConstraintGraph.Proofs.Evaluation.Exclusive
import ConstraintGraph.Service.Basic
import ConstraintGraph.Proofs.Evaluation.Clears
import ConstraintGraph.Proofs.Evaluation.Register
import ConstraintGraph.Proofs.Compilation.Scopes
import ConstraintGraph.Proofs.Compilation.Entries
import ConstraintGraph.Proofs.Compilation.Declarations
import ConstraintGraph.Proofs.Evaluation.Attribution
import ConstraintGraph.Proofs.Compilation.Neighbors
import ConstraintGraph.Proofs.Edit.Plans
import ConstraintGraph.Proofs.Edit.Connections
import ConstraintGraph.Proofs.Intervals
import ConstraintGraph.Proofs.Compilation.WireBounds
import ConstraintGraph.Proofs.Compilation.Closure
import ConstraintGraph.Proofs.Edit.StoredIntervals
import ConstraintGraph.Proofs.Compilation.Agreement
import ConstraintGraph.Proofs.Compilation.Reordering
import ConstraintGraph.Proofs.Compilation.Renaming
import ConstraintGraph.Proofs.Reading.Plans
import ConstraintGraph.Proofs.Evaluation.Saved
import ConstraintGraph.Proofs.Evaluation.Resolution
import ConstraintGraph.Proofs.Service.Acknowledged
import ConstraintGraph.Proofs.Service.Previews
import ConstraintGraph.Proofs.Compilation.Inheritance
import ConstraintGraph.Proofs.Dependency.Greedy
import ConstraintGraph.Proofs.Compilation.Greedy
import ConstraintGraph.Proofs.CommandLine.Verdicts
import ConstraintGraph.Proofs.Writing.Grammar
import ConstraintGraph.Proofs.Writing.Documents
import ConstraintGraph.Proofs.Writing.Decimals
import ConstraintGraph.Proofs.Writing.Numerals
import ConstraintGraph.Proofs.CommandLine.Streams
import ConstraintGraph.Proofs.Compilation.OutOfScope
import ConstraintGraph.Proofs.Edit.Fields
import ConstraintGraph.Proofs.Edit.Frames
import ConstraintGraph.Proofs.Edit.Undo
import ConstraintGraph.Proofs.Edit.Growth
import ConstraintGraph.Proofs.Edit.Commutation
import ConstraintGraph.Proofs.Reading.Faults
import ConstraintGraph.Proofs.Decoding
import ConstraintGraph.Proofs.Reading.Spellings
import ConstraintGraph.Proofs.Reading.Bounds
import ConstraintGraph.Proofs.Reading.Doubles
import ConstraintGraph.Proofs.Evaluation.Totals
import ConstraintGraph.Proofs.Reading.VariableTables
import ConstraintGraph.Proofs.Edit.Paths
import ConstraintGraph.Proofs.Compilation.Countdown
import ConstraintGraph.Proofs.Compilation.Rounds
