import Bedrock.Slhwid.RunResults
import Bedrock.Slhwid.Reenroll
import Bedrock.Slhwid.Interrupted
import Bedrock.Slhwid.HardLock
import Bedrock.Slhwid.Corrupt
import Bedrock.Slhwid.Generation
import Bedrock.Slhwid.Reconstruct
import Bedrock.Slhwid.HashInputs
import Bedrock.Slhwid.Smbios
import Bedrock.Slhwid.Trace
import Bedrock.Slhwid.BadLock
import Bedrock.Protocol.ClientRuns
import Bedrock.Protocol.NoMissedUpdate
import Bedrock.Protocol.Identifiers
import Bedrock.Slhwid.MultiInstance
import Bedrock.Hwid.Canonical
import Bedrock.Slhwid.GradualDrift
import Bedrock.Protocol.HookCalls
import Bedrock.Protocol.Wire
import Bedrock.Protocol.TokenSync
import Bedrock.Slhwid.AtomicWrite
import Bedrock.Slhwid.CollectLinux
import Bedrock.Slhwid.SameMachine
