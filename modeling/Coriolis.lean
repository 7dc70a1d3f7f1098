import Coriolis.Api.AuthGate
import Coriolis.Api.Escalation
import Coriolis.Api.Redaction
import Coriolis.Auth.Jwt
import Coriolis.Auth.Ldap
import Coriolis.Conductor.Cleanup
import Coriolis.Conductor.Finalization
import Coriolis.Conductor.Fixpoint
import Coriolis.Conductor.Locks
import Coriolis.Conductor.Overlap
import Coriolis.Conductor.Parameters
import Coriolis.Conductor.Snapshots
import Coriolis.Conductor.Supply
import Coriolis.Minions.Bounds
import Coriolis.Minions.Refresh
import Coriolis.Minions.Selections
import Coriolis.OsMorphing.Interfaces
import Coriolis.OsMorphing.LuksUnlock
import Coriolis.OsMorphing.ResolvConf
import Coriolis.OsMorphing.Tpm2Tokens
import Coriolis.OsMorphing.UserScripts
import Coriolis.OsMorphing.Versions
import Coriolis.Progress
import Coriolis.Providers.AttachDisk
import Coriolis.Providers.Convergence
import Coriolis.Providers.Devices
import Coriolis.Providers.HTTPBackupWriter
import Coriolis.Providers.MorphingDisks
import Coriolis.Providers.Networks
import Coriolis.Providers.OlvmDisks
import Coriolis.Providers.OlvmNetworks
import Coriolis.Providers.Overread
import Coriolis.Providers.ReplicaDisks
import Coriolis.Providers.SSHBackupWriter
import Coriolis.Providers.VhdxPaths
import Coriolis.Providers.WorkerSlots
import Coriolis.Scheduler.Client
import Coriolis.TransferCron.Server
import Coriolis.Utils
import Coriolis.Utils.OptionIds
import Coriolis.Utils.Remote
import Coriolis.Worker.Start
