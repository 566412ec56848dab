import HotAI.Billing.FailedCalls
import HotAI.Tasks.Refunds
import HotAI.Subscription.GroupRuns
import HotAI.Limiter.Interleaving
import HotAI.Relay.ProbeSlots
import HotAI.Override.Retries
import HotAI.Override.Pruning
import HotAI.Override.Legacy
import HotAI.Billing.Opening
import HotAI.TopUp.Completion
import HotAI.TopUp.Checkout
import HotAI.Quota.BatchRuns
import HotAI.Channels.DeleteKeys
import HotAI.Channels.Polling
import HotAI.SystemTasks.Orphans
import HotAI.Stream.Openai
import HotAI.Stream.Lossless
import HotAI.Messages.ToolPairs
import HotAI.Messages.Texts
import HotAI.Pricing.Reopened
import HotAI.Convert.RoundTrip
import HotAI.Messages.FromGemini
import HotAI.Pricing.TieredParams
import HotAI.Stream.ToGemini
import HotAI.Tasks.Remix
import HotAI.Stream.ClaudeUpstream
import HotAI.Pricing.RuleRoundTrip
import HotAI.Stream.GeminiCalls
import HotAI.CircuitBreaker.Window
import HotAI.Routing.Affinity
import HotAI.Relay.GroupOrder
import HotAI.Relay.ModelMapping
import HotAI.Ssrf.Protection
import HotAI.TwoFactor.BackupCodes
import HotAI.TwoFactor.Lockout
import HotAI.DiskCache.Accounting
