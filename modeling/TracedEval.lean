import TracedEval.Directory
import TracedEval.Main
import TracedEval.Proofs.StackFree
import TracedEval.Session
import TracedEval.Proofs.Channel
import TracedEval.Proofs.Printing
import TracedEval.Proofs.Machine.Adequacy
import TracedEval.Proofs.Machine.Confined
import TracedEval.Proofs.Machine.Effect
import TracedEval.Proofs.Machine.Frames
import TracedEval.Proofs.DepthLimit
import TracedEval.Proofs.Sessions
import TracedEval.Proofs.SessionTraces
import TracedEval.Proofs.Machine.Events
import TracedEval.Proofs.Machine.Muted
import TracedEval.Proofs.Machine.Alongside
import TracedEval.Proofs.Writing
import TracedEval.Proofs.Room
import TracedEval.Proofs.DepthCheck
import TracedEval.Proofs.Reports
import TracedEval.Proofs.OutputSide
import TracedEval.Proofs.Equality
import TracedEval.Proofs.Identity
import TracedEval.Proofs.Contexts
import TracedEval.Proofs.Launches
import TracedEval.Proofs.Settings
import TracedEval.Proofs.Renaming
import TracedEval.Proofs.SharedCounter
import TracedEval.Proofs.Capture
import TracedEval.Proofs.Leading
import TracedEval.Proofs.TextReport
import TracedEval.Proofs.Json.Grammar
import TracedEval.Proofs.JsonReport
import TracedEval.Proofs.DecimalText
import TracedEval.Proofs.Number.Rounding
import TracedEval.Proofs.Number.Parts
import TracedEval.Proofs.Number.Grid
import TracedEval.Proofs.Number.Shortest
import TracedEval.Proofs.Number.Numeral
import TracedEval.Proofs.Number.Text
import TracedEval.Proofs.Calls
import TracedEval.Proofs.Folding
import TracedEval.Proofs.Addition
import TracedEval.Proofs.Number.Exact
import TracedEval.Proofs.Reductions
import TracedEval.Proofs.Number.Canonical
import TracedEval.Proofs.ZeroSign
import TracedEval.Proofs.Comparisons
import TracedEval.Proofs.Recursion
import TracedEval.Proofs.HostNames
import TracedEval.Proofs.Json.Tree
import TracedEval.Proofs.Config.Scalar
import TracedEval.Proofs.Config.Reader
