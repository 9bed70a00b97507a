import PiDriveSync.Cache.Entries
import PiDriveSync.Cache.Transparent
import PiDriveSync.Tree.Mirror
import PiDriveSync.Tree.ParentKinds
import PiDriveSync.Tree.Walk
import PiDriveSync.Tree.Placement
import PiDriveSync.Tree.Repeats
import PiDriveSync.Tree.Recovery
import PiDriveSync.Effects.Logged
import PiDriveSync.Events.Survival
import PiDriveSync.Events.Content
import PiDriveSync.Events.Attempts
import PiDriveSync.Events.Filters
import PiDriveSync.Paths.Parents
import PiDriveSync.Paths.Rejected
import PiDriveSync.Paths.Queries
import PiDriveSync.Provider.Ambiguity
import PiDriveSync.Session.Verdict
import PiDriveSync.Session.Order
import PiDriveSync.Session.Program
import PiDriveSync.Effects.History
import PiDriveSync.Store.Keyed
import PiDriveSync.Tree.Stable
import PiDriveSync.Tree.Confluence
import PiDriveSync.Tree.Accounts
import PiDriveSync.Events.Watch
import PiDriveSync.Events.Refinement
import PiDriveSync.Events.Reports
import PiDriveSync.Events.Arrivals
import PiDriveSync.Events.Interleavings
import PiDriveSync.Cache.Amortised
import PiDriveSync.Paths.Identity
import PiDriveSync.Session.Realised
