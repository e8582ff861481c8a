import CallChart.Main
import CallChart.Ledger
import CallChart.Proofs.NodeCap
import CallChart.Proofs.Roster
import CallChart.Proofs.Items
import CallChart.Proofs.Marks
import CallChart.Proofs.BlockIds
import CallChart.Proofs.Addresses
import CallChart.Proofs.Layout
import CallChart.Proofs.Edges
import CallChart.Proofs.Agreement
import CallChart.Proofs.Nesting
import CallChart.Proofs.Drawn
import CallChart.Proofs.Lines
import CallChart.Proofs.Check
import CallChart.Proofs.LineKinds
import CallChart.Proofs.Labels
import CallChart.Proofs.Counting
import CallChart.Proofs.Faithful
import CallChart.Proofs.Enrolments
import CallChart.Proofs.Ledger
import CallChart.Proofs.CallChains
import CallChart.Proofs.Closure
import CallChart.Emission
import CallChart.Proofs.Emission
import CallChart.Proofs.WellNested
import CallChart.Proofs.Framing
import CallChart.Proofs.Publishing
import CallChart.Proofs.Paths
import CallChart.Proofs.Planning
import CallChart.Proofs.Literals
import CallChart.Proofs.Written
import CallChart.Proofs.Documents
import CallChart.Register
import CallChart.Proofs.Registers
import CallChart.Proofs.Groups
import CallChart.Proofs.Pruning
import CallChart.Proofs.Packed
import CallChart.Proofs.Sameness
import CallChart.Proofs.Export
import CallChart.Proofs.FileMaps
import CallChart.Proofs.BatchOrder
import CallChart.Proofs.EntryPoints
import CallChart.Proofs.Builds
import CallChart.Proofs.DepthCap
import CallChart.Proofs.Starts
import CallChart.Proofs.EntryNodes
import CallChart.Proofs.Captions
import CallChart.Proofs.Conditions
import CallChart.Proofs.LineEnds
import CallChart.Proofs.Journal
import CallChart.Proofs.Verbosity
import CallChart.Proofs.Turns
import CallChart.Proofs.Relocation
import CallChart.Proofs.Layers
import CallChart.Proofs.Precedence
import CallChart.Proofs.Entities
import CallChart.Proofs.WhiteSpace
import CallChart.Proofs.LineForms
