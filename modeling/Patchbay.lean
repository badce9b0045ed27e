import Patchbay.Main
import Patchbay.Record
import Patchbay.Workspace
import Patchbay.Proofs.Json.TupleKeys
import Patchbay.Proofs.Store.History
import Patchbay.Proofs.Store.Watches
import Patchbay.Proofs.Resolve.Filling
import Patchbay.Proofs.Resolve.Pieces
import Patchbay.Proofs.Resolve.Expansion
import Patchbay.Proofs.Resolve.Locality
import Patchbay.Proofs.Log.Nesting
import Patchbay.Proofs.Engine.Effects
import Patchbay.Proofs.Engine.Frames
import Patchbay.Proofs.Engine.Accounting
import Patchbay.Proofs.Engine.Compiling
import Patchbay.Proofs.Engine.Indifference
import Patchbay.Proofs.Engine.Snapshot
import Patchbay.Proofs.Engine.Serialization
import Patchbay.Proofs.Engine.Subscriptions
import Patchbay.Proofs.Widget.Handling
import Patchbay.Proofs.Engine.Bookkeeping
import Patchbay.Proofs.Engine.Refreshes
import Patchbay.Proofs.Page.Wiring
import Patchbay.Proofs.Page.Deeds
import Patchbay.Proofs.Page.Display
import Patchbay.Proofs.Page.Independence
import Patchbay.Proofs.Page.Settling
import Patchbay.Proofs.Page.Firing
import Patchbay.Proofs.Page.Moves
import Patchbay.Proofs.Page.Opening
import Patchbay.Proofs.Page.Charts
import Patchbay.Proofs.Page.Upkeep
import Patchbay.Proofs.Binding.Compiled
import Patchbay.Proofs.Binding.Agreement
import Patchbay.Proofs.Json.Encodable
import Patchbay.Proofs.Json.Lines
import Patchbay.Proofs.Page.Propagation
import Patchbay.Proofs.Page.Views
import Patchbay.Proofs.Page.Representation
import Patchbay.Proofs.Page.DeadBindings
import Patchbay.Proofs.Page.Faultless
import Patchbay.Proofs.Document.SharedIds
import Patchbay.Proofs.Page.Refusals
import Patchbay.Proofs.Document.Shapes
import Patchbay.Proofs.Document.Grammar
import Patchbay.Proofs.Document.Decoded
import Patchbay.Proofs.Json.Scalars
import Patchbay.Proofs.Json.RoundTrip
import Patchbay.Proofs.Command.Run
import Patchbay.Proofs.Command.Ending
import Patchbay.Proofs.DispatchId
import Patchbay.Proofs.Json.Compact
import Patchbay.Proofs.Document.Sizes
