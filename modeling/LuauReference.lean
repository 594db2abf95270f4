import LuauReference.Main
import LuauReference.Proofs.Declaration.Extent
import LuauReference.Proofs.Declaration.Function
import LuauReference.Proofs.Declaration.Layout
import LuauReference.Proofs.Declaration.Range
import LuauReference.Proofs.Declaration.Search
import LuauReference.Proofs.Declaration.Signature
import LuauReference.Proofs.Declaration.Trailing
import LuauReference.Proofs.Disk.Operation
import LuauReference.Proofs.Disk.Path
import LuauReference.Proofs.Disk.Refusal
import LuauReference.Proofs.Doc.Rearrangement
import LuauReference.Proofs.Doc.Style
import LuauReference.Proofs.Json.RoundTrip
import LuauReference.Proofs.Manifest.Account
import LuauReference.Proofs.Manifest.Confinement
import LuauReference.Proofs.Manifest.Convergence
import LuauReference.Proofs.Manifest.History
import LuauReference.Proofs.Manifest.Languages
import LuauReference.Proofs.Manifest.Ownership
import LuauReference.Proofs.Page.Anchor
import LuauReference.Proofs.Page.Independence
import LuauReference.Proofs.Page.Keys
import LuauReference.Proofs.Page.Layout
import LuauReference.Proofs.Page.Link
import LuauReference.Proofs.Page.Owner
import LuauReference.Proofs.Page.Placement
import LuauReference.Proofs.Page.Plan
import LuauReference.Proofs.Page.Reach
import LuauReference.Proofs.Source.Collection
import LuauReference.Proofs.Source.Extraction
import LuauReference.Proofs.Source.Totality
import LuauReference.Proofs.Symbol.Loading
import LuauReference.Proofs.Symbol.Position
import LuauReference.Proofs.Symbol.Wire
import LuauReference.Proofs.Text.Utf8
import LuauReference.Proofs.Page.Allocation
import LuauReference.Proofs.Symbol.Inherit
import LuauReference.Proofs.Symbol.Summary
import LuauReference.Proofs.Page.Fence
import LuauReference.Proofs.Page.GroupAnchor
import LuauReference.Proofs.Page.Table
import LuauReference.Proofs.Page.Code
import LuauReference.Proofs.Page.Stylesheet
import LuauReference.Proofs.Disk.Pruning
