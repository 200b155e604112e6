import DottedQuery.Main
import DottedQuery.Query.Equal
import DottedQuery.Query.Repoint
import DottedQuery.Proofs.Query.Unambiguous
import DottedQuery.Proofs.Query.Placeholders
import DottedQuery.Proofs.Query.Tokens
import DottedQuery.Proofs.Query.Repointed
import DottedQuery.Proofs.Rows.Faithful
import DottedQuery.Proofs.Rows.Ordered
import DottedQuery.Proofs.Rows.Compared
import DottedQuery.Proofs.Search.Protected
import DottedQuery.Proofs.Search.Policies
import DottedQuery.Proofs.Search.Items
import DottedQuery.Proofs.Search.Admission
import DottedQuery.Proofs.Search.Failures
import DottedQuery.Proofs.Search.Bindings
import DottedQuery.Proofs.Search.Scopes
import DottedQuery.Proofs.Search.Numbering
import DottedQuery.Proofs.Search.Outcome
import DottedQuery.Proofs.Search.Hidden
import DottedQuery.Proofs.Search.Defects
import DottedQuery.Proofs.Search.Skipped
import DottedQuery.Proofs.Search.Ordering
import DottedQuery.Proofs.Search.Parents
import DottedQuery.Proofs.Search.Scalars
import DottedQuery.Proofs.Search.Counting
import DottedQuery.Proofs.Search.Sets
import DottedQuery.Proofs.Search.Parameters
import DottedQuery.Proofs.Search.Forms
import DottedQuery.Proofs.Gateway.Answers
import DottedQuery.Proofs.Gateway.Keys
import DottedQuery.Proofs.Gateway.Listing
import DottedQuery.Proofs.Gateway.Boundary
