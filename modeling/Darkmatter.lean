import Darkmatter.Engine.FailedPublish
import Darkmatter.Engine.Queue
import Darkmatter.Engine.Retirement
import Darkmatter.Engine.StateLog
import Darkmatter.Groups.Restart
import Darkmatter.Groups.Routing
import Darkmatter.Storage.Snapshots
import Darkmatter.Account.Schedule
import Darkmatter.Account.Send
import Darkmatter.Engine.Confirmation
import Darkmatter.Engine.Incumbents
import Darkmatter.Transport.CatchUp
import Darkmatter.Timeline.Changes
import Darkmatter.Projection.Applying
import Darkmatter.Projection.Exact
import Darkmatter.Timeline.Media
import Darkmatter.Timeline.Withdrawal
import Darkmatter.Canonicalization.Window
import Darkmatter.Account.ChatList
import Darkmatter.Account.PushGossip
import Darkmatter.Timeline.Authors
import Darkmatter.Account.KeyPackages
import Darkmatter.Engine.BoundedIdSet
import Darkmatter.Transport.TextDeltas
