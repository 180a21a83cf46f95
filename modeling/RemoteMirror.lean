import RemoteMirror.RuntimeAgreement
import RemoteMirror.AgentWriteLocks
import RemoteMirror.AgentClientGate
import RemoteMirror.MirrorCopies
import RemoteMirror.MirrorKnown
import RemoteMirror.MirrorHydration
import RemoteMirror.RegistryClosed
import RemoteMirror.EditorSaves
import RemoteMirror.AgentFlow
import RemoteMirror.LaneReplies
import RemoteMirror.AgentGitStatus
import RemoteMirror.SidecarScan
import RemoteMirror.AgentGrep
import RemoteMirror.RuntimeSafety
import RemoteMirror.SearchIndex
import RemoteMirror.TicketAgreement
import RemoteMirror.BomReader
import RemoteMirror.Framing
import RemoteMirror.LaneShutdown
import RemoteMirror.LaneMaintenance
import RemoteMirror.LaneDiscipline
import RemoteMirror.AgentModes
import RemoteMirror.AgentLitter
import RemoteMirror.LspDecoded
import RemoteMirror.PtySignals
import RemoteMirror.PosixQuoting
import RemoteMirror.WindowsQuoting
