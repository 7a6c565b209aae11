import TrackedExpr.Embedded.Construction
import TrackedExpr.Session.Trial
import TrackedExpr.Proofs.ControlFlow
import TrackedExpr.Proofs.StackSafety
import TrackedExpr.Proofs.Splicing
import TrackedExpr.Proofs.Neutrality
import TrackedExpr.Proofs.Relocation
import TrackedExpr.Proofs.Sites
import TrackedExpr.Proofs.Simulation
import TrackedExpr.Proofs.Transparency
import TrackedExpr.Proofs.Registries
import TrackedExpr.Proofs.Accesses
import TrackedExpr.Proofs.Lifetimes
import TrackedExpr.Proofs.Wiring
import TrackedExpr.Proofs.Coverage
import TrackedExpr.Proofs.SideCalls
import TrackedExpr.Proofs.Retracing
import TrackedExpr.Proofs.Changes
import TrackedExpr.Proofs.Freshness
import TrackedExpr.Proofs.Reports
import TrackedExpr.Proofs.Numerals
import TrackedExpr.Proofs.Quoting
import TrackedExpr.Proofs.Lexing
import TrackedExpr.Proofs.Listings
import TrackedExpr.Proofs.Assembling
import TrackedExpr.Proofs.Rerunning
import TrackedExpr.Proofs.Families
import TrackedExpr.Proofs.Reactions
import TrackedExpr.Proofs.Currency
import TrackedExpr.Proofs.Silence
import TrackedExpr.Proofs.Exactness
import TrackedExpr.Proofs.Hookups
import TrackedExpr.Proofs.Onward
import TrackedExpr.Proofs.Announcements
import TrackedExpr.Proofs.Ledgers
import TrackedExpr.Proofs.Policies
import TrackedExpr.Proofs.Books
import TrackedExpr.Proofs.Delivery
import TrackedExpr.Proofs.Tending
import TrackedExpr.Proofs.NativeCalls
import TrackedExpr.Proofs.Conduct
import TrackedExpr.Proofs.Attention
import TrackedExpr.Proofs.Dealings
import TrackedExpr.Proofs.Dependencies
import TrackedExpr.Proofs.Callbacks
import TrackedExpr.Proofs.Posts
import TrackedExpr.Proofs.Moments
import TrackedExpr.Proofs.Proceedings
import TrackedExpr.Proofs.Notices
import TrackedExpr.Proofs.Allotments
import TrackedExpr.Proofs.Neighbours
import TrackedExpr.Proofs.Placement
import TrackedExpr.Proofs.Effects
import TrackedExpr.Proofs.Exploration
import TrackedExpr.Proofs.Scanning
import TrackedExpr.Proofs.Statements
import TrackedExpr.Proofs.Denotations
import TrackedExpr.Proofs.Concordance
import TrackedExpr.Proofs.Undertakings
import TrackedExpr.Proofs.Undisturbed
import TrackedExpr.Proofs.Staging
import TrackedExpr.Proofs.Lookups
import TrackedExpr.Proofs.CallForms
import TrackedExpr.Proofs.Rosters
import TrackedExpr.Proofs.Snapshots
import TrackedExpr.Proofs.Integers
import TrackedExpr.Proofs.Layouts
import TrackedExpr.Proofs.Departures
import TrackedExpr.Proofs.Identities
import TrackedExpr.Proofs.Escapes
import TrackedExpr.Proofs.Heights
import TrackedExpr.Proofs.Signs
