import StepScript.Main
import StepScript.Rehearsal.Layers
import StepScript.Run.Stream
import StepScript.Proofs.Expr.Parsing
import StepScript.Proofs.Expr.Holes
import StepScript.Proofs.Expr.Quotes
import StepScript.Proofs.Expr.Arrival
import StepScript.Proofs.Plan.Resolution
import StepScript.Proofs.Run.FlatRefinement
import StepScript.Proofs.Template.Occurrence
import StepScript.Proofs.Template.Replacement
import StepScript.Proofs.Run.Disturbed
import StepScript.Proofs.Run.Outcomes
import StepScript.Proofs.Stream.Events
import StepScript.Proofs.Stream.Accounting
import StepScript.Proofs.Stream.Progress
import StepScript.Proofs.Stream.Agreement
import StepScript.Proofs.Stream.Replay
import StepScript.Proofs.Run.TimeLimit
import StepScript.Proofs.Stream.Cancellation
import StepScript.Proofs.Script.RoundTrip
import StepScript.Proofs.Expr.Quoting
import StepScript.Proofs.Expr.Numbers
import StepScript.Proofs.Action.Correspondence
import StepScript.Proofs.Template.Policies
import StepScript.Proofs.Template.Escaping
import StepScript.Proofs.Template.Texts
import StepScript.Proofs.Run.Policy
import StepScript.Proofs.Action.Sessions
import StepScript.Proofs.Expr.Printing
import StepScript.Proofs.Run.Elapsed
import StepScript.Proofs.Run.Counting
import StepScript.Proofs.Run.Recording
import StepScript.Proofs.Expr.Heights
import StepScript.Proofs.Expr.Levels
import StepScript.Proofs.Expr.Stored
import StepScript.Proofs.Expr.Faults
import StepScript.Proofs.Action.Faults
import StepScript.Proofs.CommandLine.Printing
import StepScript.Proofs.Expr.Causes
import StepScript.Proofs.Action.Effects
import StepScript.Proofs.Script.Members
import StepScript.Proofs.Plan.Outline
import StepScript.Proofs.Expr.Logic
import StepScript.Proofs.Config.Layers
import StepScript.Proofs.Expr.Enclosures
import StepScript.Proofs.Plan.Indices
