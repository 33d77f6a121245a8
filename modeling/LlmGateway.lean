import LlmGateway.Api.Files
import LlmGateway.Api.Listing
import LlmGateway.Auth.Jwks
import LlmGateway.Auth.Revocation
import LlmGateway.Cache.Claims
import LlmGateway.Cache.Keys
import LlmGateway.Cache.Replay
import LlmGateway.Cache.RequestHash
import LlmGateway.Chat.Accounts
import LlmGateway.Chat.Caching
import LlmGateway.Chat.Docket
import LlmGateway.Chat.Replays
import LlmGateway.Db.Columns
import LlmGateway.Db.Lasting
import LlmGateway.Db.Paging
import LlmGateway.Db.Requests
import LlmGateway.Db.Turns
import LlmGateway.Frontend.Chunks
import LlmGateway.Frontend.Conversation
import LlmGateway.Frontend.RoundTrip
import LlmGateway.Frontend.Screen
import LlmGateway.Memory.Counting
import LlmGateway.Memory.Omissions
import LlmGateway.Memory.Report
import LlmGateway.Perception.FastCopy
import LlmGateway.Perception.Lock
import LlmGateway.Providers.Classify
import LlmGateway.Providers.Framing
import LlmGateway.Providers.RetryHints
import LlmGateway.Quota.Allotment
import LlmGateway.Quota.Daily
import LlmGateway.Quota.Lanes
import LlmGateway.Quota.Once
import LlmGateway.Quota.Races
import LlmGateway.Quota.Rolling
import LlmGateway.RateLimit.Retry
import LlmGateway.Routing.Billing
import LlmGateway.Routing.Blank
import LlmGateway.Routing.Chain
import LlmGateway.Routing.Hints
import LlmGateway.Routing.Ladder
import LlmGateway.Routing.MidStream
import LlmGateway.Routing.Probe
import LlmGateway.Routing.ProbeLaws
import LlmGateway.Routing.Steering
import LlmGateway.Usage.Scrape
import LlmGateway.Api.Models
