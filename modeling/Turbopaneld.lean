import Turbopaneld.DockerGate.Http.Agreement
import Turbopaneld.DockerGate.Binds
import Turbopaneld.DockerGate.LetterCase
import Turbopaneld.DockerGate.SingleUse
import Turbopaneld.DockerGate.Ownership
import Turbopaneld.DockerGate.StartApproval
import Turbopaneld.Deploy.LexicalCheck
import Turbopaneld.Deploy.Containment
import Turbopaneld.PanelIdentity.Readable
import Turbopaneld.Managed.Alarms
import Turbopaneld.Deploy.SequentialTruth
import Turbopaneld.Managed.OwnWrites
import Turbopaneld.Managed.BootKept
import Turbopaneld.Managed.Fenced
import Turbopaneld.Managed.IntentRuns
import Turbopaneld.DockerGate.Resolve
import Turbopaneld.DockerGate.StrictJson
import Turbopaneld.DockerGate.JsonGrammar
import Turbopaneld.DockerGate.Tokens
import Turbopaneld.Folders.DirectoryNames
import Turbopaneld.Shell.Glob
import Turbopaneld.Folders.Helper
import Turbopaneld.Folders.Agreement
import Turbopaneld.Presence.NoChangeLost
import Turbopaneld.NativeApp.EnvRendered
import Turbopaneld.Managed.Grace
import Turbopaneld.JavaScript.Hex
import Turbopaneld.Managed.WalPosition
import Turbopaneld.DockerGate.Http.Captured
import Turbopaneld.Deploy.Retention
import Turbopaneld.Firewall.Addresses
import Turbopaneld.Firewall.Contract
import Turbopaneld.Firewall.Render
import Turbopaneld.Netfilter.Chain
import Turbopaneld.Firewall.Lines
import Turbopaneld.Firewall.HostDocument
import Turbopaneld.Firewall.HostChain
import Turbopaneld.Firewall.Fold
import Turbopaneld.Commands.Outbox
import Turbopaneld.Commands.Pacing
import Turbopaneld.Sequences.Windows
import Turbopaneld.Sequences.Slots
import Turbopaneld.Instance.InOrder
import Turbopaneld.DockerGate.CanonicalJson
import Turbopaneld.DockerGate.CanonicalIdentity
import Turbopaneld.Folders.DefaultName
import Turbopaneld.Deploy.CronUnits
import Turbopaneld.Firewall.AddressValues
import Turbopaneld.Logs.TranscriptPrefix
import Turbopaneld.Backups.CopyExact
import Turbopaneld.Metrics.SchedulerRuns
import Turbopaneld.NativeApp.ExecLines
import Turbopaneld.Metrics.TopologyOrder
import Turbopaneld.Deploy.SnippetTrim
import Turbopaneld.Fabric.AllowedIps
import Turbopaneld.Fabric.Routes
import Turbopaneld.Fabric.RouteTable
import Turbopaneld.Fabric.RoutePlans
import Turbopaneld.Fabric.LanRoutes
import Turbopaneld.Fabric.LanPlans
import Turbopaneld.Fabric.RoutesSettled
import Turbopaneld.KeyedLock.Served
import Turbopaneld.Instance.DispatchDedupe
import Turbopaneld.Managed.PostgresSql
import Turbopaneld.Managed.MysqlReads
import Turbopaneld.Monitor.GuardRuns
import Turbopaneld.Backups.ResultDelivery
import Turbopaneld.Backups.TickPacing
import Turbopaneld.Instance.SessionOrder
