import AccountCache.Accounts.Permissions
import AccountCache.Accounts.Sessions
import AccountCache.Settings.Json
import AccountCache.Simulation.Fault
import AccountCache.Simulation.Scheduler
import AccountCache.Simulation.Swarm
import AccountCache.Startup
import AccountCache.Proofs.Store.Ideal
import AccountCache.Proofs.Store.Locks
import AccountCache.Proofs.Store.Sweeps
import AccountCache.Proofs.Interleaving.Discipline
import AccountCache.Proofs.Interleaving.Interleaved
import AccountCache.Proofs.Interleaving.Backend
import AccountCache.Proofs.Interleaving.GetOrLock
import AccountCache.Proofs.Interleaving.Recomputation
import AccountCache.Proofs.Interleaving.Owners
import AccountCache.Proofs.Coherence.Copies
import AccountCache.Proofs.Coherence.Writes
import AccountCache.Proofs.Coherence.Conduct
import AccountCache.Proofs.Coherence.Coherent
import AccountCache.Proofs.Coherence.Quiescence
import AccountCache.Proofs.Coherence.OwnWrite
import AccountCache.Proofs.ReadBack.Rows
import AccountCache.Proofs.Sequential.Reach
import AccountCache.Proofs.Sequential.Transparency
import AccountCache.Proofs.Sequential.SessionCopies
import AccountCache.Proofs.Refreshing.TwoRefreshes
import AccountCache.Proofs.Sequential.TokenTypes
import AccountCache.Proofs.Sequential.Roles
import AccountCache.Proofs.Faults.Course
import AccountCache.Proofs.Faults.Outcomes
import AccountCache.Proofs.Faults.Tolerance
import AccountCache.Proofs.Faults.ReadThrough
import AccountCache.Proofs.Lifetimes.Conduct
import AccountCache.Proofs.Lifetimes.Expiry
import AccountCache.Proofs.Faults.FailedWrites
import AccountCache.Proofs.Locking.Leaks
import AccountCache.Proofs.Layouts.OneOrTwo
import AccountCache.Proofs.ReadBack.Survival
import AccountCache.Proofs.Grants.Snapshots
import AccountCache.Proofs.Grants.Sets
import AccountCache.Proofs.Servers.Traffic
import AccountCache.Proofs.Limits.Settings
import AccountCache.Proofs.Managing.Disabled
import AccountCache.Proofs.Managing.LastWrite
import AccountCache.Proofs.Managing.Batches
import AccountCache.Proofs.Waiting.Budget
import AccountCache.Proofs.Throttling.Logins
import AccountCache.Proofs.Waiting.Busy
import AccountCache.Proofs.Waiting.Delays
import AccountCache.Proofs.Corruption.Repeats
