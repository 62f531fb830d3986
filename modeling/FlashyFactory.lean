import FlashyFactory.Asana.AdmissibleGraphs
import FlashyFactory.Asana.BatchCompletion
import FlashyFactory.Asana.BatchGraph
import FlashyFactory.Asana.BatchIdentity
import FlashyFactory.Asana.BatchReuse
import FlashyFactory.Asana.Pagination
import FlashyFactory.Asana.RejectedApproval
import FlashyFactory.Asana.SourceProtocol
import FlashyFactory.Daemon.Abandoned
import FlashyFactory.Daemon.Activity
import FlashyFactory.Daemon.Captures
import FlashyFactory.Daemon.Continuation
import FlashyFactory.Daemon.Occurrences
import FlashyFactory.Daemon.Schedules
import FlashyFactory.Fleet.HostQueries
import FlashyFactory.Fleet.Polling
import FlashyFactory.Fleet.Quiescence
import FlashyFactory.Fleet.Supervisor
import FlashyFactory.Fleet.Turns
import FlashyFactory.Fleet.Wakeups
import FlashyFactory.GitHub.Identity
import FlashyFactory.Lib.KeyedTable
import FlashyFactory.Lib.RetryQueue
import FlashyFactory.Lib.Transition
import FlashyFactory.PullRequests.Associations
import FlashyFactory.PullRequests.ChangeRequestUrls
import FlashyFactory.PullRequests.Claims
import FlashyFactory.PullRequests.Continuations
import FlashyFactory.PullRequests.Outcomes
import FlashyFactory.Sandbox.Handover
import FlashyFactory.Sandbox.LiveOwners
import FlashyFactory.Sandbox.Rollback
import FlashyFactory.Storage.Bounds
import FlashyFactory.Storage.Cancellation
import FlashyFactory.Storage.Claims
import FlashyFactory.Storage.Exclusive
import FlashyFactory.Storage.Identities
import FlashyFactory.Storage.Retention
import FlashyFactory.Storage.UnchangedPoll
import FlashyFactory.Workspace.Retry
import FlashyFactory.Lib.Evidence
import FlashyFactory.Workspace.Removal
import FlashyFactory.Workspace.RemovalRules
import FlashyFactory.Workspace.RemovalSafety
