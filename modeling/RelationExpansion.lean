import RelationExpansion.Config.Decode
import RelationExpansion.Http.Server
import RelationExpansion.Proofs.Schema.Chains
import RelationExpansion.Proofs.Outcome
import RelationExpansion.Proofs.Schema.Checks
import RelationExpansion.Proofs.Schema.Height
import RelationExpansion.Proofs.Schema.Building
import RelationExpansion.Proofs.Expansion.Paths
import RelationExpansion.Proofs.Schema.Navigation
import RelationExpansion.Proofs.Expansion.AcceptedPaths
import RelationExpansion.Proofs.Projection.ExpandedNodes
import RelationExpansion.Proofs.Projection.Narrowing
import RelationExpansion.Proofs.Request.FailedRequests
import RelationExpansion.Proofs.Store.Runs
import RelationExpansion.Proofs.Store.Listing
import RelationExpansion.Proofs.Projection.PageWindows
import RelationExpansion.Proofs.Text.Splitting
import RelationExpansion.Proofs.Json.Scanning
import RelationExpansion.Proofs.Expansion.Adjusting
import RelationExpansion.Proofs.Schema.DeclaredNames
import RelationExpansion.Proofs.Expansion.WrittenModifiers
import RelationExpansion.Proofs.Expansion.WrittenDirectives
import RelationExpansion.Proofs.Store.Populating
import RelationExpansion.Proofs.Store.Links
import RelationExpansion.Proofs.Projection.Overflows
import RelationExpansion.Proofs.Projection.RelationNodes
import RelationExpansion.Proofs.Request.IncludedRelations
import RelationExpansion.Proofs.Expansion.RepeatedDirectives
import RelationExpansion.Proofs.Store.Filtering
import RelationExpansion.Proofs.Expansion.AlikeSets
import RelationExpansion.Proofs.Projection.NestedNodes
import RelationExpansion.Proofs.Request.SiblingRelations
import RelationExpansion.Proofs.Number.Rounding
import RelationExpansion.Proofs.Store.Ordering
import RelationExpansion.Proofs.Store.Sorting
import RelationExpansion.Proofs.Request.ServedStates
import RelationExpansion.Proofs.Request.InterleavedWrites
import RelationExpansion.Proofs.Request.CreatedRecords
import RelationExpansion.Proofs.Number.ExactIntegers
import RelationExpansion.Proofs.Store.FilterOperators
import RelationExpansion.Proofs.Store.Nesting
import RelationExpansion.Proofs.Expansion.AskedPages
import RelationExpansion.Proofs.Request.RootSelections
import RelationExpansion.Proofs.Text.TopLevel
import RelationExpansion.Proofs.Projection.ShownRecords
import RelationExpansion.Proofs.Projection.Routes
import RelationExpansion.Proofs.Store.Linking
import RelationExpansion.Proofs.Expansion.MergedSorts
import RelationExpansion.Proofs.Expansion.NarrowedSets
import RelationExpansion.Proofs.Json.ReadingBack
import RelationExpansion.Proofs.Text.Encodings
import RelationExpansion.Proofs.Expansion.WrittenFilters
import RelationExpansion.Proofs.Text.Replacing
import RelationExpansion.Proofs.Projection.WrittenRoutes
