import Satelle.SessionHistory
import Satelle.ControlLeases
import Satelle.StopReplays
import Satelle.QueueOrder
import Satelle.QueueWithdrawals
import Satelle.SetupTimes
import Satelle.LeaseOwners
import Satelle.RepairSafety
import Satelle.QueueCommits
import Satelle.RetentionSafety
import Satelle.SecretPublication
import Satelle.TokenAuthority
import Satelle.JournalLifecycle
import Satelle.PayloadDurability
import Satelle.RecoveryClaims
import Satelle.IdleRetirement
import Satelle.QueueWakeups
import Satelle.IdempotencyKeys
import Satelle.QueueNotices
import Satelle.RateLimiting
import Satelle.Server.Auth
import Satelle.Server.Forwarded
import Satelle.Mcp.ConfigReplacement
