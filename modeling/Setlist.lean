import Setlist.Text.Like
import Setlist.Text.Reader
import Setlist.Number.Decimal
import Setlist.Number.Numeral
import Setlist.Json.Reader
import Setlist.Json.Record
import Setlist.Json.Writer
import Setlist.Calendar.Timestamp
import Setlist.Rule.Expression
import Setlist.Cache.Store
import Setlist.Query.Order
import Setlist.Query.Selection
import Setlist.Catalogue.Users
import Setlist.Catalogue.Artists
import Setlist.Catalogue.Albums
import Setlist.Catalogue.Songs
import Setlist.Catalogue.Interactions
import Setlist.Catalogue.Playlists
import Setlist.Catalogue.Evaluate
import Setlist.Settings.Source
import Setlist.Session
import Setlist.Proofs.Number.Notation
import Setlist.Proofs.Json.Numbers
import Setlist.Proofs.Json.Parsing
import Setlist.Proofs.Cache.Content
import Setlist.Proofs.Cache.Soundness
import Setlist.Proofs.Catalogue.Actions
import Setlist.Proofs.Catalogue.Reachable
import Setlist.Proofs.Session.Transparency
import Setlist.Proofs.Catalogue.Evaluation
import Setlist.Proofs.Catalogue.Substrings
import Setlist.Proofs.Catalogue.Literals
import Setlist.Proofs.Catalogue.Complements
import Setlist.Proofs.Catalogue.Dates
import Setlist.Proofs.Session.Isolation
import Setlist.Proofs.Catalogue.JoinSets
import Setlist.Proofs.Playlists.Runs
import Setlist.Proofs.Session.Preview
import Setlist.Proofs.Rule.Spelling
import Setlist.Proofs.Query.Places
import Setlist.Proofs.Catalogue.Failures
import Setlist.Proofs.Cache.Recency
import Setlist.Proofs.Catalogue.Leniency
import Setlist.Proofs.Query.Rendering
import Setlist.Proofs.Rule.Verdict
import Setlist.Proofs.Catalogue.Windows
import Setlist.Proofs.Catalogue.Orderings
import Setlist.Proofs.Interactions.Lists
import Setlist.Proofs.Interactions.Likes
import Setlist.Proofs.Calendar.RoundTrip
import Setlist.Proofs.Catalogue.Caseless
import Setlist.Proofs.Query.Scope
import Setlist.Proofs.Catalogue.Lookups
import Setlist.Proofs.Calendar.Chronology
import Setlist.Proofs.Calendar.Layouts
