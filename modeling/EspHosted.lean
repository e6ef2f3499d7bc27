import EspHosted.Lib.Machine
import EspHosted.Driver.SpiDrv
import EspHosted.Driver.SpiFrame
import EspHosted.Driver.SpiCorruption
import EspHosted.Driver.SpiOrder
import EspHosted.Driver.SpiHandshake
import EspHosted.Control.Tlv
import EspHosted.Driver.SpiWakeup
import EspHosted.Control.Platform
import EspHosted.Control.ReadSound
import EspHosted.Control.Transport
import EspHosted.Control.Commands
import EspHosted.Control.ResponseType
import EspHosted.Control.CommandLedger
import EspHosted.Control.Correlation
import EspHosted.Control.ReadSignal
import EspHosted.Control.SerialIf
import EspHosted.Control.Restart
import EspHosted.Driver.Netdev
import EspHosted.Driver.NetLifeCycle
import EspHosted.Lwip.LinkOutput
import EspHosted.Driver.NetRead
import EspHosted.Driver.NetPublish
import EspHosted.Usart.TxStream
import EspHosted.Driver.Deadlock
import EspHosted.Driver.ReceiveLedger
import EspHosted.Control.TlvRoundTrip
import EspHosted.Control.SetApConfig
import EspHosted.Cli.CliWifi
import EspHosted.Common.ByteOrder
import EspHosted.Control.GetApConfig
import EspHosted.Lib.Records
import EspHosted.Control.ScanList
import EspHosted.Lib.Fields
import EspHosted.Lwip.RxCallback
import EspHosted.App.Arp
import EspHosted.App.ArpResponder
import EspHosted.App.ArpExchange
import EspHosted.Lib.Numeral
import EspHosted.Common.Ipv4
import EspHosted.Common.Ipv4Grammar
import EspHosted.Common.Ipv4Text
import EspHosted.Usart.ConsoleWrite
import EspHosted.Control.SerialTable
import EspHosted.Common.MacText
import EspHosted.Driver.Registry
import EspHosted.Cli.StartLwip
import EspHosted.Lib.Sample
import EspHosted.Lwip.Ping
import EspHosted.Iperf.LifeCycle
import EspHosted.Iperf.Isolation
import EspHosted.Iperf.Accounting
import EspHosted.Lib.Items
import EspHosted.Lib.Ring
import EspHosted.Lib.Simulation
import EspHosted.Lib.Varint
import EspHosted.Protobuf.Accepted
import EspHosted.Protobuf.EspHostedConfig
import EspHosted.Protobuf.Payload
import EspHosted.Protobuf.RemoteCall
import EspHosted.Usart.RingBuffer
import EspHosted.Usart.RingDeque
import EspHosted.Cli.EditorRefinement
import EspHosted.Cli.Session
import EspHosted.Usart.ReceiveStream
import EspHosted.Cli.Console
import EspHosted.Cli.Display
import EspHosted.Protobuf.Codec
