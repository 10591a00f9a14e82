import SlidingSync.Main
import SlidingSync.Wire.Settings
import SlidingSync.Proofs.Cache.Registry
import SlidingSync.Proofs.Cache.Rounds
import SlidingSync.Proofs.Cache.RowOrder
import SlidingSync.Proofs.Cache.Summaries
import SlidingSync.Proofs.Order.Canonical
import SlidingSync.Proofs.Order.Displacement
import SlidingSync.Proofs.Order.NameFilter
import SlidingSync.Proofs.Request.History
import SlidingSync.Proofs.Request.StateQuery
import SlidingSync.Proofs.Session.Representation
import SlidingSync.Proofs.Client.Agreement
import SlidingSync.Proofs.Client.Changes
import SlidingSync.Proofs.Client.Overtaken
import SlidingSync.Proofs.Client.Slices
import SlidingSync.Proofs.Command.Capacity
import SlidingSync.Proofs.Command.Inspection
import SlidingSync.Proofs.CommandLine.WindowText
import SlidingSync.Proofs.Wire.RoundTrip
