import AssetRegister.Main
import AssetRegister.Proofs.Outcome
import AssetRegister.Proofs.Store.Ordered
import AssetRegister.Proofs.Catalog.Chain
import AssetRegister.Proofs.Filter.Clauses
import AssetRegister.Proofs.Condition.Built
import AssetRegister.Proofs.Condition.Reach
import AssetRegister.Proofs.Condition.Reading
import AssetRegister.Proofs.Condition.QueryText
import AssetRegister.Proofs.Listing.Page
import AssetRegister.Proofs.Listing.Selected
import AssetRegister.Proofs.Listing.Fitting
import AssetRegister.Proofs.Listing.Isolation
import AssetRegister.Proofs.Listing.Narrowing
import AssetRegister.Proofs.Filter.Comparison
import AssetRegister.Proofs.Filter.RoundTrip
import AssetRegister.Proofs.Condition.Refused
import AssetRegister.Proofs.Filter.Malformed
import AssetRegister.Proofs.Listing.Refusal
import AssetRegister.Proofs.Listing.FileScope
import AssetRegister.Proofs.Listing.Paging
import AssetRegister.Proofs.Condition.Naming
import AssetRegister.Proofs.Listing.Columns
import AssetRegister.Proofs.Record.Cell
import AssetRegister.Proofs.Record.Shown
import AssetRegister.Proofs.Record.DocumentReader
import AssetRegister.Proofs.Record.Decoding
import AssetRegister.Proofs.CommandLine.Words
import AssetRegister.Proofs.CommandLine.Listing
import AssetRegister.Proofs.Store.Consistent
import AssetRegister.Proofs.Store.Session
import AssetRegister.Proofs.Filter.Leftmost
import AssetRegister.Proofs.Filter.Grammar
import AssetRegister.Proofs.Filter.Joining
import AssetRegister.Proofs.Condition.Nested
import AssetRegister.Proofs.Condition.Meaning
import AssetRegister.Proofs.Text.Wildcard
import AssetRegister.Proofs.Text.Lower
import AssetRegister.Proofs.Condition.Containment
import AssetRegister.Proofs.Condition.LetterCase
import AssetRegister.Proofs.Listing.Trichotomy
import AssetRegister.Proofs.Listing.Membership
import AssetRegister.Proofs.Catalog.Resolution
import AssetRegister.Proofs.Record.PartType
import AssetRegister.Proofs.Listing.Unreadable
import AssetRegister.Proofs.Listing.Coercion
import AssetRegister.Proofs.CommandLine.Scoping
import AssetRegister.Proofs.Settings.Distinct
import AssetRegister.Proofs.Settings.Written
import AssetRegister.Proofs.Settings.Environment
import AssetRegister.Proofs.Settings.Layers
import AssetRegister.Proofs.Settings.Loading
import AssetRegister.Proofs.Store.Checking
import AssetRegister.Proofs.Settings.Starts
import AssetRegister.Proofs.Filter.Splitting
import AssetRegister.Proofs.Condition.Operand
import AssetRegister.Proofs.Listing.PageWords
