import Chambermaid.AddressAccept
import Chambermaid.AddressCanonical
import Chambermaid.Version
import Chambermaid.BufferedIo
import Chambermaid.AsyncReopen
import Chambermaid.SerialProtocol
import Chambermaid.AsyncFraming
import Chambermaid.AsyncBuffer
import Chambermaid.SerialOpen
import Chambermaid.Daemon
import Chambermaid.CommandLine
import Chambermaid.SerialText
import Chambermaid.ConfigFile
import Chambermaid.BufferedTimeout
import Chambermaid.LogText
import Chambermaid.SecureReceive
import Chambermaid.GroupPort
import Chambermaid.RequestParams
import Chambermaid.Panel
import Chambermaid.LinkProtocol
import Chambermaid.AsyncDrain
import Chambermaid.BufferedFailure
import Chambermaid.DaemonLife
import Chambermaid.DaemonStart
import Chambermaid.SecureSession
import Chambermaid.PanelStart
import Chambermaid.SerialBacklog
import Chambermaid.AsyncIntake
import Chambermaid.ConfigSettings
import Chambermaid.SerialPorts
import Chambermaid.VersionRetry
import Chambermaid.SerialWire
import Chambermaid.Networks
