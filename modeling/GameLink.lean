import GameLink.Jobs.Fencing
import GameLink.Jobs.Wakeups
import GameLink.Delivery.Protocol
import GameLink.Digest.Tiling
import GameLink.Ff14.OncePerDate
import GameLink.Ff14.SnapshotRuns
import GameLink.Versions.Protocol
import GameLink.Outputs.Protocol
import GameLink.Dependencies.Calls
import GameLink.Resources.Repairs
import GameLink.Sources.AuthorizationRuns
import GameLink.Sources.RequestBudget
import GameLink.Ff14.SingleUse
import GameLink.Gateway.Publication
import GameLink.Resources.Agreement
import GameLink.Sources.TokenLifetimes
import GameLink.PublicWeb.Tickets
import GameLink.Admin.Deadlocks
import GameLink.Executor.Outcomes
import GameLink.Ff14.SnapshotChoice
import GameLink.Ff14.WindowSeams
import GameLink.Ff14.Queries
import GameLink.Ff14.Feeds
import GameLink.Ff14.Expansions
import GameLink.Presentation.Dense
import GameLink.Authorization.Logins
import GameLink.Versions.Queries
import GameLink.Schemas.Envelope
import GameLink.Schemas.Diagnostics
import GameLink.Resources.Evictions
import GameLink.Store.Stamps
import GameLink.Sources.Credentials
import GameLink.Presentation.PngValidation
import GameLink.Scheduler.Protocol
import GameLink.Digest.Protocol
