import QronosAgent.Journal.Untrusted
import QronosAgent.Journal.Recovery
import QronosAgent.Queue.NoTaskLost
import QronosAgent.Security.LanNoise
import QronosAgent.Security.Containment
import QronosAgent.Link.CommandRuns
import QronosAgent.Log.Crash
import QronosAgent.Link.Revocations
import QronosAgent.Link.PairingRuns
import QronosAgent.Approval.Runs
import QronosAgent.Broker.Performed
import QronosAgent.Media.Idle
import QronosAgent.Media.Fresh
import QronosAgent.Media.Fenced
import QronosAgent.Desktop.OneFate
import QronosAgent.Desktop.Errors
import QronosAgent.Ipc.ClosedOnce
import QronosAgent.Secret.Paced
import QronosAgent.Ipc.Authenticated
import QronosAgent.Media.Forgotten
import QronosAgent.Update.Exclusion
import QronosAgent.Permission.Runs
import QronosAgent.Conversation.Runs
import QronosAgent.Handover.Runs
import QronosAgent.Memory.OneReplaces
import QronosAgent.View.ShownOnce
import QronosAgent.Files.Restored
import QronosAgent.Tunnel.HostileRelay
import QronosAgent.Telegram.Approved
import QronosAgent.Print.StartedOnce
import QronosAgent.Ownership.NeverBoth
import QronosAgent.Library.Truthful
import QronosAgent.Queue.Visible
import QronosAgent.Security.Throttles
import QronosAgent.Link.Identities
import QronosAgent.Actions.StopReaches
import QronosAgent.Settings.Agree
import QronosAgent.Queue.Flapping
import QronosAgent.Queue.SustainedLoad
import QronosAgent.Queue.HeavySlot
import QronosAgent.Files.UndoStack
import QronosAgent.Storage.Reports
import QronosAgent.Storage.Settles
import QronosAgent.Memory.Retrieve
import QronosAgent.Update.Policy
import QronosAgent.Foreground.Lifecycle
import QronosAgent.Link.RequestBudget
import QronosAgent.Link.LedgerBytes
import QronosAgent.Supervisor.Budget
