import NETConnect.Lib.Machine
import NETConnect.Lib.Pacing
import NETConnect.Lib.Relay
import NETConnect.Lib.LittleEndian
import NETConnect.Lib.Framing
import NETConnect.Lib.TextCodec
import NETConnect.Lib.Split
import NETConnect.Packet.Header
import NETConnect.Packet.SocketExtensions
import NETConnect.Packet.Segmentation
import NETConnect.Packet.HasValidHeader
import NETConnect.Packet.ReadFrom
import NETConnect.Packet.Untrusted
import NETConnect.MyExtensions.EncodingExtensions
import NETConnect.Platform
import NETConnect.Packet.PacketEncrypted
import NETConnect.Reference
import NETConnect.Packet.PacketHMAC
import NETConnect.Packet.PacketHelper
import NETConnect.Packet.AutoDecrypt
import NETConnect.Packet.DecryptInto
import NETConnect.Packet.TryEncryptSend
import NETConnect.HeartBeat
import NETConnect.Pacing
import NETConnect.Handshake.Loop
import NETConnect.Handshake.Server
import NETConnect.Handshake.Client
import NETConnect.Handshake.Exchange
import NETConnect.Handshake.Closing
import NETConnect.Peers.Peer
import NETConnect.Peers.TryConnect
import NETConnect.Server
import NETConnect.PerConnection
import NETConnect.Client
import NETConnect.LostConnection
import NETConnect.Delivery
import NETConnect.Holders
import NETConnect.Session
import NETConnect.KeyAgreement
import NETConnect.Reading
import NETConnect.EarlyPackets
import NETConnect.Multicast.MulticastPacket
import NETConnect.Multicast.Multicast
import NETConnect.Peers.UniquePeers
import NETConnect.Peers.Registry
import NETConnect.Peers.Entries
import NETConnect.Peers.HandleAction
import NETConnect.Peers.PeerLeave
import NETConnect.CPlusConnectApp.Base64
import NETConnect.CPlusConnectApp.Guid
import NETConnect.CPlusConnectApp.MulticastPacket
import NETConnect.CPlusConnectApp.WellFormed
import NETConnect.CPlusConnectApp.UTF8Helper
import NETConnect.CPlusConnectApp.Event
import NETConnect.Audio.ContainsVoice
import NETConnect.Audio.Streaming
import NETConnect.Audio.Queue
import NETConnect.NETConnectGUI.Form1
import NETConnect.Lib.Lines
import NETConnect.CPlusConnectApp.Base64Encode
import NETConnect.Multicast.Discovery
import NETConnect.Lib.Progress
import NETConnect.Handshake.Phases
import NETConnect.Handshake.Turns
import NETConnect.Handshake.Course
import NETConnect.Handshake.Conversation
import NETConnect.SecureChannel
import NETConnect.Lib.Echo
import NETConnect.Pongs
import NETConnect.PingLog
import NETConnect.Seen
import NETConnect.Peers.KnownPeers
import NETConnect.Mesh
import NETConnect.Lib.Channel
import NETConnect.Traffic
import NETConnect.Arrival
import NETConnect.CPlusConnectApp.GuidText
