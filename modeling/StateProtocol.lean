import StateProtocol.Clib.Process
import StateProtocol.Clib.Socket
import StateProtocol.Clib.Stdio
import StateProtocol.Clib.Transmit
import StateProtocol.Data.Files
import StateProtocol.V2.Utils
import StateProtocol.V2.Execute
import StateProtocol.V2.Exact
import StateProtocol.V2.Wire
import StateProtocol.V2.Tcp
import StateProtocol.V2.Grammar
import StateProtocol.V2.Udp
import StateProtocol.V2.Agreement
import StateProtocol.Clib.Frame
import StateProtocol.V2.Frames
import StateProtocol.Data.Fields
import StateProtocol.V1.Packets
import StateProtocol.V1.Tcp
import StateProtocol.V1.Once
import StateProtocol.V1.Udp
import StateProtocol.V1.Agreement
import StateProtocol.Data.Records
import StateProtocol.V2.OnDisk
import StateProtocol.Versions
import StateProtocol.Clib.Wait
import StateProtocol.Reaping
import StateProtocol.Clib.Rounds
import StateProtocol.History
import StateProtocol.Accepting
import StateProtocol.Clib.Client
import StateProtocol.Clib.Faultless
import StateProtocol.Data.Find
import StateProtocol.Data.LastLine
import StateProtocol.Data.Save
import StateProtocol.V1.Bounds
import StateProtocol.V1.Client
import StateProtocol.V1.Datagrams
import StateProtocol.V1.ExactText
import StateProtocol.V1.Overrun
import StateProtocol.V1.RoundTrip
import StateProtocol.V2.Bounds
import StateProtocol.V2.Count
import StateProtocol.CaseBlind
import StateProtocol.Clib.Bind
import StateProtocol.Clib.Resend
import StateProtocol.Clib.Scan
import StateProtocol.Data.Saving
import StateProtocol.Ports
import StateProtocol.V1.Arguments
import StateProtocol.V1.Transmission
import StateProtocol.Clib.Coupled
import StateProtocol.Clib.Schedule
import StateProtocol.Coupling
import StateProtocol.Handling
import StateProtocol.Clib.Lines
import StateProtocol.Clib.Network
import StateProtocol.Clients
import StateProtocol.Data.Loading
import StateProtocol.Data.Windows
import StateProtocol.Delimited
import StateProtocol.Exchange
import StateProtocol.Clib.Paths
import StateProtocol.Data.Confined
import StateProtocol.Settled
import StateProtocol.V2.Copies
