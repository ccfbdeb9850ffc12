import RouteSheet.Files.Tree
import RouteSheet.Http.RequestId
import RouteSheet.Main
import RouteSheet.Proofs.Condition.Chain
import RouteSheet.Proofs.Condition.Quoted
import RouteSheet.Proofs.Condition.Scalar
import RouteSheet.Proofs.Environment.OverrideKey
import RouteSheet.Proofs.Environment.Settable
import RouteSheet.Proofs.Environment.VariablesFile
import RouteSheet.Proofs.Expr.Arguments
import RouteSheet.Proofs.Expr.Lockstep
import RouteSheet.Proofs.Expr.Unselected
import RouteSheet.Proofs.Http.Form
import RouteSheet.Proofs.Http.SentHeader
import RouteSheet.Proofs.Http.Traceless
import RouteSheet.Proofs.Http.Wire
import RouteSheet.Proofs.Number.Decimal
import RouteSheet.Proofs.Project.DatabaseUrl
import RouteSheet.Proofs.Query.Select
import RouteSheet.Proofs.Route.Capture
import RouteSheet.Proofs.Route.Lockstep
import RouteSheet.Proofs.Route.NamedFields
import RouteSheet.Proofs.Route.NoDatabase
import RouteSheet.Proofs.Route.Repeated
import RouteSheet.Proofs.Route.Swap
import RouteSheet.Proofs.Sheet.Accounted
import RouteSheet.Proofs.Sheet.Append
import RouteSheet.Proofs.Sheet.EmptyStatement
import RouteSheet.Proofs.Sheet.Front
import RouteSheet.Proofs.Sheet.Layout
import RouteSheet.Proofs.Sheet.Lines
import RouteSheet.Proofs.Sheet.Rounds
import RouteSheet.Proofs.Sheet.StrayParenthesis
import RouteSheet.Proofs.Sheet.Unrouted
import RouteSheet.Proofs.Store.Conversion
import RouteSheet.Proofs.Surface.Form
import RouteSheet.Proofs.Text.Enclosed
import RouteSheet.Proofs.Text.Excision
import RouteSheet.Proofs.Text.Index
import RouteSheet.Proofs.Text.Percent
import RouteSheet.Proofs.Text.Place
import RouteSheet.Proofs.Text.Stretch
import RouteSheet.Proofs.Value.Normal
import RouteSheet.Query.Script
import RouteSheet.Text.Offset
