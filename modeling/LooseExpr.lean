import LooseExpr.Code.Writer
import LooseExpr.Expr.Build
import LooseExpr.Expr.Lower
import LooseExpr.Settings.Reader
import LooseExpr.Task
import LooseExpr.Proofs.Decimal.Normal
import LooseExpr.Proofs.Decimal.Reading
import LooseExpr.Proofs.Eval
import LooseExpr.Proofs.Evaluation
import LooseExpr.Proofs.StaticType
import LooseExpr.Proofs.Folding
import LooseExpr.Proofs.Code.Depth
import LooseExpr.Proofs.Code.Agreement
import LooseExpr.Proofs.Decimal.Canonical
import LooseExpr.Proofs.Decimal.Value
import LooseExpr.Proofs.Decimal.Arithmetic
import LooseExpr.Proofs.Decimal.Expansion
import LooseExpr.Proofs.Restriction
import LooseExpr.Proofs.Decimal.Grammar
import LooseExpr.Proofs.Code.Uses
import LooseExpr.Proofs.Code.Interning
import LooseExpr.Proofs.Code.Relocation
import LooseExpr.Proofs.Text.Case
import LooseExpr.Proofs.Code.MemberKeys
import LooseExpr.Proofs.Nodes
import LooseExpr.Proofs.Code.Rejection
import LooseExpr.Proofs.Text.Json
import LooseExpr.Proofs.Registry
import LooseExpr.Proofs.Effects
import LooseExpr.Proofs.Code.PlusSigns
import LooseExpr.Proofs.Decimal.Division
import LooseExpr.Proofs.Assignment
import LooseExpr.Proofs.Decimal.Powers
import LooseExpr.Proofs.Paths
import LooseExpr.Proofs.Places
import LooseExpr.Proofs.Printing
import LooseExpr.Proofs.Decimal.Stripping
import LooseExpr.Proofs.Spans
import LooseExpr.Proofs.Report
