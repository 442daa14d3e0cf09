import Quilt.Files.Workspace
import Quilt.Formula.ByteScan
import Quilt.Formula.Printer
import Quilt.Main
import Quilt.Proofs.Binary64
import Quilt.Proofs.Checks
import Quilt.Proofs.Grid
import Quilt.Proofs.Size
import Quilt.Proofs.Subdivision
import Quilt.Proofs.Plan
import Quilt.Proofs.ExactWords
import Quilt.Proofs.Composite
import Quilt.Proofs.Animation
import Quilt.Proofs.Transpose
import Quilt.Proofs.Tokens
import Quilt.Proofs.ByteScan
import Quilt.Proofs.Tiling
import Quilt.Proofs.Grammar
import Quilt.Proofs.Concatenation
import Quilt.Proofs.Compile
import Quilt.Proofs.Alike
import Quilt.Proofs.Mixing
import Quilt.Proofs.Drift
import Quilt.Proofs.Protocol
import Quilt.Proofs.DriftProtocol
import Quilt.Proofs.Decimal
import Quilt.Proofs.Numeral
import Quilt.Proofs.Scaling
import Quilt.Proofs.JsonTokens
import Quilt.Proofs.JsonGrammar
import Quilt.Proofs.JsonText
import Quilt.Proofs.Presentation
import Quilt.Proofs.RequestText
import Quilt.Proofs.Reload
import Quilt.Proofs.Validity
import Quilt.Proofs.WellFormed
import Quilt.Proofs.Addressing
import Quilt.Proofs.Refusal
import Quilt.Proofs.Depth
import Quilt.Proofs.Relabeling
import Quilt.Proofs.Workspace
import Quilt.Proofs.Path
import Quilt.Proofs.Script
import Quilt.Proofs.ImageSequence
import Quilt.Proofs.Failures
import Quilt.Proofs.Delivery
import Quilt.Proofs.Arguments
import Quilt.Proofs.Sequences
import Quilt.Proofs.Feedback
import Quilt.Proofs.HiddenSlots
import Quilt.Proofs.Continuation
import Quilt.Proofs.Limits
import Quilt.Proofs.GridChecks
import Quilt.Proofs.Stages
import Quilt.Proofs.Whole
import Quilt.Proofs.Display
import Quilt.Proofs.ErrorOffset
import Quilt.Proofs.LegalStates
import Quilt.Proofs.Padding
import Quilt.Proofs.FrameStore
