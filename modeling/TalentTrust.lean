import TalentTrust.Events.Replay
import TalentTrust.Events.Ingestion
import TalentTrust.Events.Deduplication
import TalentTrust.Auth.Revocation
import TalentTrust.Contracts.Bulk
import TalentTrust.Audit.CursorWalk
import TalentTrust.Audit.Refinement
import TalentTrust.Audit.Cache
import TalentTrust.Auth.LockoutHistory
import TalentTrust.Auth.LoginRoute
import TalentTrust.CircuitBreaker.Probe
import TalentTrust.CircuitBreaker.Counts
import TalentTrust.RateLimit.TokenBucket
import TalentTrust.RateLimit.WindowBound
import TalentTrust.Transactions.Loops
import TalentTrust.Retention.Defaults
import TalentTrust.Retention.Interleaving
import TalentTrust.Retention.Decisions
import TalentTrust.Disputes.Lifecycle
import TalentTrust.Queue.Executions
import TalentTrust.Contracts.Metadata
import TalentTrust.Contracts.PageWalk
import TalentTrust.Contracts.Cache
import TalentTrust.Http.OncePerKey
import TalentTrust.Milestones.Budget
import TalentTrust.Webhook.Accounting
import TalentTrust.Webhook.Verification
import TalentTrust.Jobs.Replay
import TalentTrust.Db.Upgrades
import TalentTrust.Predictify.Bets
import TalentTrust.Reputation.StoredRatings
import TalentTrust.Db.PagedRows
