import DataAccess.Text
import DataAccess.Text.LowerCase
import DataAccess.Text.Hex
import DataAccess.Dict
import DataAccess.Double.Notation
import DataAccess.Value.Order
import DataAccess.ColumnType.Conversion
import DataAccess.Condition
import DataAccess.Search
import DataAccess.Catalog
import DataAccess.Magazine
import DataAccess.Desk
import DataAccess.Recorder
import DataAccess.StatementLog
import DataAccess.Proofs.Template.Reading
import DataAccess.Proofs.Term.Reading
import DataAccess.Proofs.Session.Condition
import DataAccess.Proofs.Connections.Release
import DataAccess.Proofs.Connections.Isolation
import DataAccess.Proofs.Nesting
import DataAccess.Proofs.Dictionaries
import DataAccess.Proofs.Template.Splitting
import DataAccess.Proofs.Template.Acceptance
import DataAccess.Proofs.Template.Independence
import DataAccess.Proofs.Term.Independence
import DataAccess.Proofs.Parameters.Names
import DataAccess.Proofs.Parameters.Sequences
import DataAccess.Proofs.Parameters.Reading
import DataAccess.Proofs.Search.Independence
import DataAccess.Proofs.Template.Binding
import DataAccess.Proofs.Search.Written
import DataAccess.Proofs.Search.Substitution
import DataAccess.Proofs.Term.Bindings
import DataAccess.Proofs.Search.Lowering
import DataAccess.Proofs.Connections.Restoring
import DataAccess.Proofs.Connections.SavePoints
import DataAccess.Proofs.Catalog.Beans
import DataAccess.Proofs.Catalog.Filling
import DataAccess.Proofs.Catalog.Statements
import DataAccess.Proofs.Catalog.Records
import DataAccess.Proofs.Catalog.RoundTrip
import DataAccess.Proofs.Groups.Shutdown
import DataAccess.Proofs.Session.Routing
import DataAccess.Proofs.Session.Tracing
import DataAccess.Proofs.Session.Sending
import DataAccess.Proofs.Session.Runs
import DataAccess.Proofs.Session.Building
import DataAccess.Proofs.Session.Versions
import DataAccess.Proofs.Pattern.Likes
import DataAccess.Proofs.Flavor.Windows
import DataAccess.Proofs.Search.Paging
import DataAccess.Proofs.Catalog.Parameters
import DataAccess.Proofs.Flavor.Locks
import DataAccess.Proofs.Session.Locking
import DataAccess.Proofs.Conversion
import DataAccess.Proofs.Term.Nulls
import DataAccess.Proofs.Template.Chains
import DataAccess.Proofs.Template.Assignments
import DataAccess.Proofs.Catalog.PartialUpdates
import DataAccess.Proofs.Value.Integers
import DataAccess.Proofs.Condition.Texts
import DataAccess.Proofs.Session.Keys
import DataAccess.Proofs.Template.Completeness
import DataAccess.Proofs.Connections.FailedSets
import DataAccess.Proofs.Connections.Attempts
import DataAccess.Proofs.Groups.Shards
import DataAccess.Proofs.Mapping.Suffixes
import DataAccess.Proofs.Phrase.Quotes
import DataAccess.Proofs.Text.Bytes
import DataAccess.Proofs.Template.Scanner
import DataAccess.Proofs.Template.Parser
import DataAccess.Proofs.Condition.Bytes
import DataAccess.Proofs.Flavor.Bytes
import DataAccess.Proofs.Boundaries
import DataAccess.Proofs.Session.Overflow
