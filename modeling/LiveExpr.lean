import LiveExpr.Cache
import LiveExpr.Expr.Build
import LiveExpr.Expr.Meaning
import LiveExpr.Graph.Dot
import LiveExpr.Proofs.Build.Coercion
import LiveExpr.Proofs.Build.Formula
import LiveExpr.Proofs.Build.Identity
import LiveExpr.Proofs.Build.Mirror
import LiveExpr.Proofs.Cache.WriteOnce
import LiveExpr.Proofs.Compile.Copy
import LiveExpr.Proofs.Compile.Grammar
import LiveExpr.Proofs.Compile.Meaning
import LiveExpr.Proofs.Compile.Numbering
import LiveExpr.Proofs.Compile.Represents
import LiveExpr.Proofs.Compile.Visited
import LiveExpr.Proofs.Graph.Cloning
import LiveExpr.Proofs.Graph.Downstream
import LiveExpr.Proofs.Graph.Topology
import LiveExpr.Proofs.Graph.Tracing
import LiveExpr.Proofs.Graph.Wiring
import LiveExpr.Proofs.Live.Adoption
import LiveExpr.Proofs.Live.Ascent
import LiveExpr.Proofs.Live.Binding
import LiveExpr.Proofs.Live.Cancellation
import LiveExpr.Proofs.Live.Connectives
import LiveExpr.Proofs.Live.Consistency
import LiveExpr.Proofs.Live.Faithful
import LiveExpr.Proofs.Live.Integers
import LiveExpr.Proofs.Live.Mirror
import LiveExpr.Proofs.Live.Rebinding
import LiveExpr.Proofs.Live.Reports
import LiveExpr.Proofs.Live.Services
import LiveExpr.Proofs.Live.Settled
import LiveExpr.Proofs.Live.Soundness
import LiveExpr.Proofs.Live.Step
import LiveExpr.Proofs.Live.Sweep
import LiveExpr.Proofs.Live.Upkeep
import LiveExpr.Proofs.Live.Valuation
import LiveExpr.Proofs.Live.Yield
import LiveExpr.Proofs.Numeric.Sameness
import LiveExpr.Proofs.Numeric.Width
import LiveExpr.Proofs.Object.Announcing
import LiveExpr.Proofs.Session.Agreement
import LiveExpr.Proofs.Session.Attendance
import LiveExpr.Proofs.Session.Audience
import LiveExpr.Proofs.Session.Cancellation
import LiveExpr.Proofs.Session.Course
import LiveExpr.Proofs.Session.Delivery
import LiveExpr.Proofs.Session.Desk
import LiveExpr.Proofs.Session.Dispatch
import LiveExpr.Proofs.Session.Enactment
import LiveExpr.Proofs.Session.Hooks
import LiveExpr.Proofs.Session.Independence
import LiveExpr.Proofs.Session.OrderedDelivery
import LiveExpr.Proofs.Session.Orderly
import LiveExpr.Proofs.Session.Pairing
import LiveExpr.Proofs.Session.Reading
import LiveExpr.Proofs.Session.Registration
import LiveExpr.Proofs.Session.Resemblance
import LiveExpr.Proofs.Session.Roster
import LiveExpr.Proofs.Session.Silence
import LiveExpr.Proofs.Session.SingleSet
import LiveExpr.Proofs.Session.Subscriptions
import LiveExpr.Proofs.Session.Suppression
import LiveExpr.Proofs.Session.Unnoticed
import LiveExpr.Proofs.Session.Unsubscribing
import LiveExpr.Proofs.Typing.Conversion
import LiveExpr.Proofs.Typing.HasType
import LiveExpr.Proofs.Typing.Inferred
import LiveExpr.Proofs.Typing.Integral
import LiveExpr.Proofs.Value.Congruence
import LiveExpr.Proofs.Value.Equality
import LiveExpr.Proofs.Value.Mirror
import LiveExpr.Session.Bench
