import Reckon.Evaluate
import Reckon.Grammar
import Reckon.Proofs.Outcome
import Reckon.Proofs.Arithmetic
import Reckon.Proofs.Expr
import Reckon.Proofs.Binary64.Bits
import Reckon.Proofs.Binary64.Nearest
import Reckon.Proofs.Decimal.Numeral
import Reckon.Proofs.Decimal.Rounding
import Reckon.Proofs.Literal
import Reckon.Proofs.Numeral
import Reckon.Proofs.Token.Scan
import Reckon.Proofs.Token.Placement
import Reckon.Proofs.Token.Written
import Reckon.Proofs.Token.Context
import Reckon.Proofs.Token.Image
import Reckon.Proofs.Token.Concatenation
import Reckon.Proofs.Token.Characters
import Reckon.Proofs.Token.Nested
import Reckon.Proofs.Token.Partition
import Reckon.Proofs.Token.Offsets
import Reckon.Proofs.Rpn.Conservation
import Reckon.Proofs.Rpn.Failure
import Reckon.Proofs.Rpn.Nesting
import Reckon.Proofs.Rpn.Postorder
import Reckon.Proofs.Rpn.Regrouping
import Reckon.Proofs.Rpn.Reduction
import Reckon.Proofs.Rpn.Defect
import Reckon.Proofs.Rpn.Splitting
import Reckon.Proofs.Rpn.Offence
import Reckon.Proofs.Rpn.Tracking
import Reckon.Proofs.Rpn.Transcript
import Reckon.Proofs.Rpn.Grading
import Reckon.Proofs.Evaluate.Shortcut
import Reckon.Proofs.Evaluate.Sentences
import Reckon.Proofs.Evaluate.Acceptance
import Reckon.Proofs.Evaluate.Failure
import Reckon.Proofs.Evaluate.Composition
import Reckon.Proofs.Evaluate.Accounting
import Reckon.Proofs.Evaluate.ZeroDivisor
import Reckon.Proofs.Evaluate.Spacing
import Reckon.Proofs.Evaluate.Announcement
import Reckon.Proofs.Evaluate.Transcript
