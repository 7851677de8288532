import Trellis.CommandLine.Basic
import Trellis.Main
import Trellis.Proofs.Acceptance
import Trellis.Proofs.EarliestError
import Trellis.Proofs.Progress
import Trellis.Proofs.Tiling
import Trellis.Proofs.Writing
import Trellis.Proofs.Shape
import Trellis.Proofs.Recovery
import Trellis.Proofs.Joining
import Trellis.Proofs.Lines
import Trellis.Proofs.Outline
import Trellis.Proofs.Remaining
import Trellis.Proofs.Moves
import Trellis.Proofs.LineNumbers
import Trellis.Proofs.Modes
import Trellis.Proofs.EndOfTokens
import Trellis.Proofs.Coherence
import Trellis.Proofs.ExitCode
import Trellis.Proofs.Respaced
import Trellis.Proofs.Mending
import Trellis.Proofs.LeadingLayout
import Trellis.Proofs.EqualTrees
import Trellis.Proofs.CarriageReturns
import Trellis.Proofs.Listing
import Trellis.Proofs.Boundary
import Trellis.Proofs.Reuse
import Trellis.Proofs.Indentation
import Trellis.Proofs.Equality
import Trellis.Proofs.ScriptContent
import Trellis.Proofs.Quoting
import Trellis.Proofs.PrintedNumber
import Trellis.Proofs.OpenLevels
