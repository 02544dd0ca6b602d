import MapQuery.CommandLine
import MapQuery.Main
import MapQuery.Proofs.Area.Agreement
import MapQuery.Proofs.Area.Gml
import MapQuery.Proofs.Area.Orientation
import MapQuery.Proofs.Area.WellKnown
import MapQuery.Proofs.Dialect.Enclosure
import MapQuery.Proofs.Dialect.Geometries
import MapQuery.Proofs.Dialect.Quotations
import MapQuery.Proofs.Dialect.TimeWindows
import MapQuery.Proofs.Filter.Fixpoint
import MapQuery.Proofs.Filter.Patterns
import MapQuery.Proofs.Json.Reading
import MapQuery.Proofs.Junction.Division
import MapQuery.Proofs.Junction.Phrases
import MapQuery.Proofs.Junction.Regrouping
import MapQuery.Proofs.Request.Accounting
import MapQuery.Proofs.Request.Agreement
import MapQuery.Proofs.Request.Bindings
import MapQuery.Proofs.Request.Checking
import MapQuery.Proofs.Request.Conjunction
import MapQuery.Proofs.Request.Documents
import MapQuery.Proofs.Request.Isolation
import MapQuery.Proofs.Request.Registrations
import MapQuery.Proofs.Request.Survival
import MapQuery.Proofs.Schedule.Admission
import MapQuery.Proofs.Schedule.Closing
import MapQuery.Proofs.Schedule.Debounce
import MapQuery.Proofs.Schedule.Phases
import MapQuery.Proofs.Schedule.Removal
import MapQuery.Proofs.Schedule.Replacement
import MapQuery.Proofs.Text.Brackets
import MapQuery.Proofs.Time.Hulls
import MapQuery.Proofs.Workspace.Expansion
import MapQuery.Proofs.Workspace.Ranking
import MapQuery.Proofs.Workspace.Selection
import MapQuery.Schedule.Session
