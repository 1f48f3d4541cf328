import BrokerProxy.Library.Runs
import BrokerProxy.Library.Linearizable
import BrokerProxy.Library.Traced
import BrokerProxy.Library.Framing
import BrokerProxy.Library.Line
import BrokerProxy.Library.PubSub
import BrokerProxy.Library.LastWrite
import BrokerProxy.Library.Fifo
import BrokerProxy.Library.Serving
import BrokerProxy.Library.Cbor
import BrokerProxy.Library.Numerals
import BrokerProxy.Library.CborItems
import BrokerProxy.Library.Glob
import BrokerProxy.Library.Regex
import BrokerProxy.Library.RegexText
import BrokerProxy.Library.Crc
import BrokerProxy.Messages
import BrokerProxy.Ppp.Fcs
import BrokerProxy.Ppp.Frame
import BrokerProxy.Ppp.FcsDetection
import BrokerProxy.Ppp.X25
import BrokerProxy.Ppp.BytesToFrame
import BrokerProxy.Ppp.Codec
import BrokerProxy.Ppp.Link
import BrokerProxy.Ppp.LogBytes
import BrokerProxy.Limero.ArrayQueue
import BrokerProxy.Limero.ArrayQueueLedger
import BrokerProxy.Limero.ArrayQueueSafety
import BrokerProxy.Limero.ArrayQueueContention
import BrokerProxy.Limero.ArrayQueueLinearizable
import BrokerProxy.Limero.QueueFlowLinux
import BrokerProxy.Limero.ArrayQueueSequential
import BrokerProxy.Limero.Pipeline
import BrokerProxy.Limero.RingQueue
import BrokerProxy.Limero.ArrayQueuesAgree
import BrokerProxy.Limero.QueueFlowArduino
import BrokerProxy.Limero.Invokers
import BrokerProxy.Limero.SinkWiring
import BrokerProxy.Limero.TimerSource
import BrokerProxy.Limero.ThreadRun
import BrokerProxy.Limero.OneShot
import BrokerProxy.Limero.TimeoutFlow
import BrokerProxy.Limero.Cache
import BrokerProxy.Redis.BrokerRedis
import BrokerProxy.Redis.Subscriptions
import BrokerProxy.Redis.CommandText
import BrokerProxy.Redis.LogStream
import BrokerProxy.Redis.Mirror
import BrokerProxy.Logger.StringFormat
import BrokerProxy.Redis.Reconnection
import BrokerProxy.Redis.Resubscription
import BrokerProxy.Redis.ReturnCodes
import BrokerProxy.Redis.TopicParts
import BrokerProxy.Redis.SplitJoin
import BrokerProxy.Redis.ReplyStream
import BrokerProxy.Redis.ReadCallback
import BrokerProxy.Redis.PatternMatch
import BrokerProxy.Codec.TinyCborEncoder
import BrokerProxy.Codec.Serializer
import BrokerProxy.Codec.TinyCborDecoder
import BrokerProxy.Codec.Deserializer
import BrokerProxy.Codec.IntegerGetters
import BrokerProxy.Codec.Reader
import BrokerProxy.Codec.ValueList
import BrokerProxy.Codec.Scalars
import BrokerProxy.Codec.TinyCborIterator
import BrokerProxy.Codec.StringStream
import BrokerProxy.Codec.CborDump
import BrokerProxy.Codec.DumpedIntegers
import BrokerProxy.Redis.TypedTopics
import BrokerProxy.Protocol.Frames
import BrokerProxy.Protocol.DeviceToProxy
import BrokerProxy.Protocol.ProxyToDevice
import BrokerProxy.Protocol.Grammar
import BrokerProxy.Protocol.Firmware
import BrokerProxy.Protocol.Reflection
import BrokerProxy.Session.SessionSerial
import BrokerProxy.Session.Dispatch
import BrokerProxy.Session.SerialTransmission
import BrokerProxy.Session.SerialReception
import BrokerProxy.System.SerialSystem
import BrokerProxy.System.Delivery
import BrokerProxy.System.Bridge
import BrokerProxy.System.Relay
import BrokerProxy.System.Overflow
import BrokerProxy.System.LogLines
import BrokerProxy.System.Store
import BrokerProxy.Udp.Address
import BrokerProxy.Udp.Ports
import BrokerProxy.Broker.Zenoh
import BrokerProxy.Broker.Iceoryx
import BrokerProxy.Broker.BrokerSerial
import BrokerProxy.Broker.KeepAlive
