import UnitCheck.Main
import UnitCheck.Proofs.Command.Explained
import UnitCheck.Proofs.Command.ReportText
import UnitCheck.Proofs.Command.View
import UnitCheck.Proofs.Config.Strict
import UnitCheck.Proofs.Diagnostic.Location
import UnitCheck.Proofs.Diagnostic.Underline
import UnitCheck.Proofs.Document.KeyOrder
import UnitCheck.Proofs.Document.Unbound
import UnitCheck.Proofs.Document.Unit
import UnitCheck.Proofs.Environment.Commute
import UnitCheck.Proofs.Expr.Dependencies
import UnitCheck.Proofs.Files.Units
import UnitCheck.Proofs.Resolve.FailFast
import UnitCheck.Proofs.Resolve.Names
import UnitCheck.Proofs.Resolve.Spine
import UnitCheck.Proofs.Ty.Unambiguous
import UnitCheck.Proofs.Unit.Bound
import UnitCheck.Proofs.Unit.Numbering
import UnitCheck.Proofs.Unit.Reordering
import UnitCheck.Proofs.Unit.Report
import UnitCheck.Proofs.Unit.Shadowing
import UnitCheck.Proofs.Unit.Spans
