import FacetIndex.Bitmap.Bits
import FacetIndex.Listing
import FacetIndex.Registry.Consistent
import FacetIndex.Workspace
import FacetIndex.Request
import FacetIndex.Proofs.Layout.Splitting
import FacetIndex.Proofs.Block.ActiveLength
import FacetIndex.Proofs.Block.Addressing
import FacetIndex.Proofs.Bitmap.Canonical
import FacetIndex.Proofs.Cursor.Enumeration
import FacetIndex.Proofs.Registry.Census
import FacetIndex.Proofs.Registry.LiveSet
import FacetIndex.Proofs.Catalog.Facets
import FacetIndex.Proofs.Catalog.Effect
import FacetIndex.Proofs.Catalog.Consistent
import FacetIndex.Proofs.Catalog.Clean
import FacetIndex.Proofs.Registry.Selection
import FacetIndex.Proofs.Facet.Holders
import FacetIndex.Proofs.Query.Evaluation
import FacetIndex.Proofs.Roster.Basic
import FacetIndex.Proofs.Roster.Simulation
import FacetIndex.Proofs.Roster.Answers
import FacetIndex.Proofs.Catalog.HighWater
import FacetIndex.Proofs.Catalog.Recycling
import FacetIndex.Proofs.Facet.Widening
import FacetIndex.Proofs.Catalog.Directory
import FacetIndex.Proofs.Catalog.Widening
import FacetIndex.Proofs.Catalog.Names
import FacetIndex.Proofs.Catalog.Identity
import FacetIndex.Proofs.Bitmap.Built
import FacetIndex.Proofs.Bitmap.Combination
import FacetIndex.Proofs.Bitmap.Padding
import FacetIndex.Proofs.Bitmap.Writing
import FacetIndex.Proofs.Bitmap.Members
import FacetIndex.Proofs.Bitmap.Counting
import FacetIndex.Proofs.Bitmap.Duality
import FacetIndex.Proofs.Bitmap.NormalForm
import FacetIndex.Proofs.Bitmap.Collecting
import FacetIndex.Proofs.Bitmap.Distributive
import FacetIndex.Proofs.Catalog.Items
import FacetIndex.Proofs.Catalog.Access
import FacetIndex.Proofs.Catalog.Orphans
import FacetIndex.Proofs.Workspace.Isolation
import FacetIndex.Proofs.Catalog.Complements
import FacetIndex.Proofs.Catalog.Universe
