import Terrarium.Vsock.CreditProtocol
import Terrarium.Vsock.ByteStreams
import Terrarium.Vsock.StaleResets
import Terrarium.Vsock.NetworkLoss
import Terrarium.Broker.Peer
import Terrarium.Protocol.StreamDecoder
import Terrarium.Seccomp.Allowlist
import Terrarium.State.ImportSafety
import Terrarium.Sync.AgentUpload
import Terrarium.Sync.Resync
import Terrarium.Generator.ValueTermination
import Terrarium.Generator.PointerSoundness
import Terrarium.Generator.PointerPasses
import Terrarium.Fs.IoSchedule
import Terrarium.Fs.LookupCounts
import Terrarium.Fs.Epochs
import Terrarium.Device.InterruptController
import Terrarium.Device.MmioInterrupts
import Terrarium.Sandbox.Grants
import Terrarium.Vmm.BootPlan
import Terrarium.Agent.SharedSize
import Terrarium.Vsock.FairDrain
import Terrarium.Vsock.TxNotifications
import Terrarium.Vsock.Publication
import Terrarium.Device.SplitRing
import Terrarium.Cli.ShellQuoting
import Terrarium.Runtime.InterruptSignals
import Terrarium.Protocol.Messages
import Terrarium.Cli.LogTail
import Terrarium.Runtime.ByteChannel
