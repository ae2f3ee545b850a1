import GroovyServ.StepSystem
import GroovyServ.HeaderMapRoundTrip
import GroovyServ.ResponseRoundTrip
import GroovyServ.AuthTokenFile
import GroovyServ.DirectorySharing
import GroovyServ.StreamInterleaving
import GroovyServ.ConnectionEnd
import GroovyServ.ConnectionClosing
import GroovyServ.ConnectionIsolation
import GroovyServ.ServerStart
import GroovyServ.SessionStatus
import GroovyServ.EnvironmentInjection
import GroovyServ.InterruptedClient
import GroovyServ.TransferDeadlock
import GroovyServ.OptionAgreement
import GroovyServ.ScannedOptions
import GroovyServ.BufHistory
import GroovyServ.StaleHeaders
import GroovyServ.EnvironmentLookup
import GroovyServ.CommandStatus
import GroovyServ.HeaderStrings
import GroovyServ.HandlerEndings
import GroovyServ.DirectoryViews
import GroovyServ.DirectoryReset
import GroovyServ.ClasspathOptions
import GroovyServ.ClientBatches
import GroovyServ.ParsedHeaders
import GroovyServ.ClientInput
import GroovyServ.SimpleProtocol
import GroovyServ.ConnectionTearDown
import GroovyServ.DelegatedStreams
import GroovyServ.ClientPort
import GroovyServ.DumpHexRoundTrip
import GroovyServ.BufBounds
import GroovyServ.RemoteScript
import GroovyServ.RemoteSession
import GroovyServ.RubyRemote
import GroovyServ.GroovyRequests
import GroovyServ.OrphanedServer
import GroovyServ.ShownFiles
import GroovyServ.CopiedLines
