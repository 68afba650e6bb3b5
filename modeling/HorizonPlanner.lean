import HorizonPlanner.CommandLine.FileTree
import HorizonPlanner.Main
import HorizonPlanner.Problem.Diagnostics
import HorizonPlanner.Proofs.Evaluation
import HorizonPlanner.Proofs.Watching
import HorizonPlanner.Proofs.Allocation
import HorizonPlanner.Proofs.Numbering
import HorizonPlanner.Proofs.BacktrackingSearch
import HorizonPlanner.Proofs.ExactlyOne
import HorizonPlanner.Proofs.LiteralTable
import HorizonPlanner.Proofs.Refinement
import HorizonPlanner.Proofs.Compilation
import HorizonPlanner.Proofs.Declaration
import HorizonPlanner.Proofs.CompiledNetwork
import HorizonPlanner.Proofs.Execution
import HorizonPlanner.Proofs.FixedHorizon
import HorizonPlanner.Proofs.Engines
import HorizonPlanner.Proofs.Export
import HorizonPlanner.Proofs.ShortestPlan
import HorizonPlanner.Proofs.Truncation
import HorizonPlanner.Proofs.TimeLimit
import HorizonPlanner.Proofs.LimitedSearch
import HorizonPlanner.Proofs.DomainPosition
import HorizonPlanner.Proofs.Knowledge
import HorizonPlanner.Proofs.SimulatedPlan
import HorizonPlanner.Proofs.Verification
import HorizonPlanner.Proofs.FirstPlan
import HorizonPlanner.Proofs.Reordering
import HorizonPlanner.Proofs.ClauseCount
import HorizonPlanner.Proofs.EncodingSize
import HorizonPlanner.Proofs.Mirrors
import HorizonPlanner.Proofs.FactOrder
import HorizonPlanner.Proofs.Interchange
import HorizonPlanner.Proofs.Contradiction
import HorizonPlanner.Proofs.WeakestAssumptions
import HorizonPlanner.Proofs.Pruning
import HorizonPlanner.Proofs.RefusedDeclaration
import HorizonPlanner.Proofs.DocumentValue
import HorizonPlanner.Proofs.DocumentFault
import HorizonPlanner.Proofs.CommandEnding
import HorizonPlanner.Proofs.RejectedPost
import HorizonPlanner.Proofs.SearchWork
import HorizonPlanner.Proofs.Deadline
import HorizonPlanner.Proofs.HorizonSizes
import HorizonPlanner.Proofs.BackendProtocol
import HorizonPlanner.Proofs.FactIdentity
import HorizonPlanner.Proofs.DocumentGrammar
import HorizonPlanner.Proofs.DimacsReading
import HorizonPlanner.Proofs.EmptyClause
import HorizonPlanner.Proofs.Extension
import HorizonPlanner.Proofs.SafeDecoding
import HorizonPlanner.Proofs.AtMostOne
import HorizonPlanner.Proofs.SearchNodes
