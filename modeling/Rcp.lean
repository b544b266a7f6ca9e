import Rcp.Sql.Schedule
import Rcp.Sql.Solo
import Rcp.Sql.Tables
import Rcp.Common.Outbox
import Rcp.Analytics.Categories
import Rcp.Analytics.Order
import Rcp.Iam.InOrder
import Rcp.Iam.AnyOrder
import Rcp.Logistics.Commit
import Rcp.Volunteer.Team
import Rcp.Volunteer.Closed
import Rcp.Logistics.Sequential
import Rcp.Logistics.Verified
import Rcp.Logistics.Stock
import Rcp.Logistics.Race
import Rcp.Iam.Model
import Rcp.Iam.Commit
import Rcp.Iam.Verified
import Rcp.Iam.Exchange
import Rcp.Logistics.Announce
import Rcp.Analytics.Consumer
import Rcp.Delivery.LastWriter
import Rcp.Analytics.Inventory
import Rcp.Logistics.RequestHistory
import Rcp.Analytics.Requests
import Rcp.Relay.Once
import Rcp.Relay.Order
import Rcp.Relay.Faithful
import Rcp.Sql.Growth
import Rcp.Sql.Identity
import Rcp.Iam.Tenancy
import Rcp.Logistics.Assigned
import Rcp.Rto.Model
import Rcp.Rto.Steps
import Rcp.Rto.Wiring
import Rcp.Rto.Revocation
import Rcp.Rto.Dispatch
import Rcp.Sql.AppendOnly
import Rcp.Rto.Feed
import Rcp.Rto.Replay
import Rcp.Iam.Tokens
import Rcp.Iam.Sessions
import Rcp.Iam.Theft
import Rcp.Iam.Revoked
import Rcp.Logistics.Traps
import Rcp.Logistics.WorkflowGrammar
import Rcp.Logistics.Final
import Rcp.Logistics.Payment
import Rcp.Logistics.Tenancy
import Rcp.Sql.Phases
import Rcp.Volunteer.Lifecycle
import Rcp.Volunteer.Served
import Rcp.Volunteer.Stale
import Rcp.Volunteer.Greedy
import Rcp.Common.Auth
import Rcp.Rto.Jwks
import Rcp.Volunteer.Access
import Rcp.Rto.Hub
import Rcp.Common.Values
import Rcp.Logistics.FormAnswer
import Rcp.Logistics.FormStable
import Rcp.Logistics.FormDefinition
import Rcp.Logistics.FormPayload
import Rcp.Rto.Handshake
import Rcp.Rto.Pages
import Rcp.Rto.Cursor
import Rcp.Rto.Devices
import Rcp.Common.Casing
import Rcp.Common.Throttle
import Rcp.Rto.Stampede
import Rcp.Common.Bearer
import Rcp.Gateway.RateLimit
import Rcp.Gateway.TokenBucket
import Rcp.Sql.Paging
import Rcp.Volunteer.ProfileModel
import Rcp.Volunteer.Skills
import Rcp.Volunteer.Matchable
import Rcp.Volunteer.Directory
import Rcp.Sql.Markers
import Rcp.Logistics.Consumer
import Rcp.Analytics.Transactions
import Rcp.Rto.Processed
import Rcp.Volunteer.Consumers
import Rcp.Delivery.Consumers
import Rcp.Common.Loop
import Rcp.Logistics.Search
import Rcp.Iam.Keys
import Rcp.Rto.KeyNumbers
import Rcp.Common.Redis
import Rcp.Gateway.RedisLimit
import Rcp.Sql.Aggregate
import Rcp.Analytics.Reporting
import Rcp.Analytics.Mirror
import Rcp.Analytics.Report
import Rcp.Common.JsonSchema
import Rcp.Common.Contracts
import Rcp.Logistics.Contracts
import Rcp.Iam.Operators
import Rcp.Iam.Contracts
import Rcp.Iam.Lockout
import Rcp.Iam.Statistics
import Rcp.Common.Pump
import Rcp.Gateway.Socket
import Rcp.Common.Split
import Rcp.Gateway.Subprotocol
import Rcp.Gateway.Routing
import Rcp.Gateway.Forward
import Rcp.Analytics.Wire
import Rcp.Iam.Wire
import Rcp.Rto.Alerts
