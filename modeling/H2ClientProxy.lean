import H2ClientProxy.System
import H2ClientProxy.Equiv.FlowControl
import H2ClientProxy.Equiv.Tunnel
import H2ClientProxy.Equiv.Delivery
import H2ClientProxy.Equiv.Terminal
import H2ClientProxy.Equiv.Lifetime
import H2ClientProxy.Equiv.Window
import H2ClientProxy.Equiv.Chunked
import H2ClientProxy.Equiv.Upload
import H2ClientProxy.Ep.Base
import H2ClientProxy.Equiv.Timers
import H2ClientProxy.Dns
import H2ClientProxy.Equiv.DnsTables
import H2ClientProxy.Equiv.TimerView
import H2ClientProxy.Equiv.DnsStep
import H2ClientProxy.Equiv.DnsCancel
import H2ClientProxy.Equiv.DnsTimers
import H2ClientProxy.Equiv.DnsAnswer
import H2ClientProxy.Equiv.Sessions
import H2ClientProxy.Equiv.Drops
import H2ClientProxy.DnsWire
import H2ClientProxy.Equiv.Bodies
import H2ClientProxy.Equiv.DnsName
import H2ClientProxy.Equiv.DnsMessage
import H2ClientProxy.Equiv.DnsReply
import H2ClientProxy.Equiv.Provider
import H2ClientProxy.BodyList
import H2ClientProxy.Equiv.BodyList
import H2ClientProxy.HttpParser.Url
import H2ClientProxy.RelayHttp2.Request
import H2ClientProxy.Equiv.Url
import H2ClientProxy.Equiv.Request
import H2ClientProxy.HttpParser.Execute
import H2ClientProxy.HttpParser.Requests
import H2ClientProxy.Equiv.RequestBody
import H2ClientProxy.Equiv.UrlHost
import H2ClientProxy.Equiv.Recompose
import H2ClientProxy.Equiv.Header
import H2ClientProxy.Equiv.Heads
import H2ClientProxy.Equiv.ReadInterest
import H2ClientProxy.Equiv.ProxyConnection
import H2ClientProxy.Equiv.ResponseHead
import H2ClientProxy.Equiv.EpBufStream
import H2ClientProxy.Equiv.EpBufInterest
import H2ClientProxy.Equiv.Nodes
import H2ClientProxy.Equiv.TimerCheck
import H2ClientProxy.Equiv.Deadlines
import H2ClientProxy.EpBuffer
import H2ClientProxy.Equiv.EpBuffer
import H2ClientProxy.Equiv.AppendFormat
import H2ClientProxy.Equiv.EpBufFree
import H2ClientProxy.Equiv.Registry
import H2ClientProxy.Equiv.TimerPending
import H2ClientProxy.Equiv.Descriptors
import H2ClientProxy.RelayHttp
import H2ClientProxy.Equiv.IdlePool
import H2ClientProxy.Equiv.RelayReuse
import H2ClientProxy.Equiv.IdleCallbacks
import H2ClientProxy.Equiv.Timely
import H2ClientProxy.Equiv.Pipeline
import H2ClientProxy.Equiv.NullRelay
import H2ClientProxy.Equiv.Connection
import H2ClientProxy.Equiv.Pieces
import H2ClientProxy.Equiv.Feed
import H2ClientProxy.HttpParser.Message
import H2ClientProxy.Equiv.RequestLine
import H2ClientProxy.Equiv.HeaderWords
import H2ClientProxy.Equiv.MessageFields
import H2ClientProxy.Equiv.Messages
import H2ClientProxy.Equiv.MessageRequests
import H2ClientProxy.Equiv.Forward
import H2ClientProxy.Lib.Bits
import H2ClientProxy.Lib.PrefixCode
import H2ClientProxy.Nghttp2.Huffman
import H2ClientProxy.Equiv.HuffmanTable
import H2ClientProxy.Equiv.Huffman
