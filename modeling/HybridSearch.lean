import HybridSearch.Proofs.Filter.Depth
import HybridSearch.Proofs.Filter.Neutral
import HybridSearch.Proofs.Filter.Offences
import HybridSearch.Proofs.Filter.Ranges
import HybridSearch.Proofs.Filter.TagClause
import HybridSearch.Proofs.Filter.Truth
import HybridSearch.Proofs.Handle.Accounts
import HybridSearch.Proofs.Handle.Creating
import HybridSearch.Proofs.Handle.Dropping
import HybridSearch.Proofs.Handle.Fetching
import HybridSearch.Proofs.Handle.Inferred
import HybridSearch.Proofs.Handle.Interleaving
import HybridSearch.Proofs.Handle.Isolation
import HybridSearch.Proofs.Handle.Loading
import HybridSearch.Proofs.Handle.Questions
import HybridSearch.Proofs.Handle.TagLists
import HybridSearch.Proofs.Query.Encoding
import HybridSearch.Proofs.Query.Mentions
import HybridSearch.Proofs.Query.VectorClause
import HybridSearch.Proofs.Registry.Lookup
import HybridSearch.Proofs.Retry
import HybridSearch.Proofs.Schema.Creation
import HybridSearch.Proofs.Schema.Declared
import HybridSearch.Proofs.Schema.Grouping
import HybridSearch.Proofs.Schema.WellFormed
import HybridSearch.Proofs.Wire.FetchReply
import HybridSearch.Proofs.Wire.Keyspace
import HybridSearch.Proofs.Wire.SearchReply
import HybridSearch.Wire.Link
