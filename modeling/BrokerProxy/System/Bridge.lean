/-
This file puts `main` of the proxy together: at one end the serial link to the device, at
the other the subscribe connections of `broker` and `brokerProxy` to the Redis server,
while they stand. Other clients publish on the same server.

What the device publishes, subscribes to or announces becomes a command of the proxy. The
server puts a reply on a connection for every pattern of the connection that matches a
publication, and `redisCommand` inside `subscribe` returns the oldest reply. The read
invoker takes the replies one by one; a message on the connection of `broker` goes on to
the device. A firmware image ends what is described here.

The log stream, and connections that end, are the subject of other files. The calls of
`INFO` and `WARN` are left out here too.
-/

import BrokerProxy.Library.PubSub
import BrokerProxy.Protocol.Firmware
import BrokerProxy.Redis.CommandText
import BrokerProxy.System.SerialSystem

namespace BrokerProxy.System

open Protocol PubSub Runs
open Redis (ServerReply ascii sent subscribeText)

/-! ### Connections -/

/-- A subscribe connection: the keys of `_subscribers`, the patterns that the server has for it, and
the replies on it that have not been read. -/
structure Connection where
  subscribers : List Bytes
  patterns : List Bytes
  replies : List ServerReply
deriving DecidableEq

section

variable (vector : Bytes → Option (List Bytes)) (globMatches : Bytes → Bytes → Bool)

namespace Connection

/-- The server executes a publication. -/
def serve (connection : Connection) (msg : PubMsg) : Connection :=
  { connection with
    replies := connection.replies ++
      (connection.patterns.filter (globMatches · msg.topic)).map fun pattern =>
        .pmessage pattern msg.topic msg.payload }

/-- The server adds a pattern and acknowledges it. -/
def psubscribe (connection : Connection) (pattern : Bytes) : Connection :=
  let patterns := PubSub.subscribe connection.patterns pattern
  { connection with
    patterns := patterns
    replies := connection.replies ++ [.psubscribe pattern patterns.length] }

/-- The server executes `PSUBSCRIBE`, which needs an argument. -/
def execute (connection : Connection) : List Bytes → Connection
  | [] => { connection with replies := connection.replies ++ [.error (ascii "ERR")] }
  | pattern :: rest => rest.foldl psubscribe (connection.psubscribe pattern)

/-- `subscribe`. Whatever reply is the oldest, the pattern is noted. Without a determined argument
vector the call has no result. -/
def subscribe (connection : Connection) (pattern : Bytes) : Option Connection :=
  if connection.subscribers.contains pattern then some connection
  else
    (sent vector (subscribeText pattern)).map fun arguments =>
      let executed := connection.execute arguments.tail
      { executed with
        subscribers := pattern :: connection.subscribers
        replies := executed.replies.tail }

/-- The pattern is known, or its command is what it should be and no reply stands before the
acknowledgement. -/
def accepts (connection : Connection) (pattern : Bytes) : Bool :=
  connection.subscribers.contains pattern ||
    (sent vector (subscribeText pattern) = some [ascii "PSUBSCRIBE", pattern] &&
      connection.replies.isEmpty)

end Connection

/-! ### The proxy between the device and the server -/

/-- What is asked of the server, by a call of the proxy on `broker` or by another client. -/
inductive Traffic
  | proxy (command : Command Bytes PubMsg)
  | client (msg : PubMsg)

def Traffic.command : Traffic → Command Bytes PubMsg
  | .proxy command => command
  | .client msg => .publish msg

def Traffic.ofProxy : Traffic → Option (Command Bytes PubMsg)
  | .proxy command => some command
  | .client _ => none

/-- The link, the connections, the name of the node, and what has been asked of the server. -/
structure Bridge (Value : Type) where
  link : SerialSystem Value
  broker : Connection
  brokerProxy : Connection
  nodeName : Bytes
  traffic : List Traffic

/-- The pattern of the messages for a node. -/
def nodePattern (node : Bytes) : Bytes := ascii "dst/" ++ node ++ ascii "/*"

/-- The pattern of the messages for the proxy of a node. -/
def proxyPattern (node : Bytes) : Bytes := ascii "dst/" ++ node ++ ascii "-proxy/*"

/-- What a message of the device asks of `broker`. -/
def request : ProxyMsg → Command Bytes PubMsg
  | .publish msg => .publish { topic := cString msg.topic, payload := msg.payload }
  | .subscribe msg => .subscribe msg.pattern
  | .node msg => .subscribe (nodePattern msg.node)

/-- The pattern that a command subscribes to. -/
def subscription : Command Bytes PubMsg → Option Bytes
  | .publish _ => none
  | .subscribe pattern => some pattern

/-- A pattern covers the messages on the topics that it matches. -/
def covers (pattern : Bytes) (msg : PubMsg) : Bool := globMatches pattern msg.topic

variable {Value : Type} (tiny : Tiny Value)

namespace Bridge

/-- The server executes a publication. -/
def serve (bridge : Bridge Value) (msg : PubMsg) : Bridge Value :=
  { bridge with
    broker := bridge.broker.serve globMatches msg
    brokerProxy := bridge.brokerProxy.serve globMatches msg }

/-- What is attached to the filters. -/
def react (bridge : Bridge Value) : ProxyMsg → Option (Bridge Value)
  | .publish msg =>
      let command : PubMsg := { topic := cString msg.topic, payload := msg.payload }
      some
        { bridge.serve globMatches command with
          traffic := bridge.traffic ++ [.proxy (.publish command)] }
  | .subscribe msg =>
      (bridge.broker.subscribe vector msg.pattern).map fun broker =>
        { bridge with
          broker := broker
          traffic := bridge.traffic ++ [.proxy (.subscribe msg.pattern)] }
  | .node msg =>
      (bridge.broker.subscribe vector (nodePattern msg.node)).bind fun broker =>
        (bridge.brokerProxy.subscribe vector (proxyPattern msg.node)).map fun brokerProxy =>
          { bridge with
            broker := broker
            brokerProxy := brokerProxy
            nodeName := msg.node
            traffic := bridge.traffic ++ [.proxy (.subscribe (nodePattern msg.node))] }

def reactAll (bridge : Bridge Value) : List ProxyMsg → Option (Bridge Value)
  | [] => some bridge
  | msg :: rest => (bridge.react vector globMatches msg).bind fun next => next.reactAll rest

/-- The read invoker of `broker`: a message goes through the encoder to the session. -/
def readable (bridge : Bridge Value) : Option (Bridge Value) :=
  match bridge.broker.replies with
  | [] => none
  | reply :: rest =>
      let taken := { bridge with broker := { bridge.broker with replies := rest } }
      match Redis.readInvoker reply.reply with
      | none => some taken
      | some msg =>
          (systemStep tiny bridge.link (.publish msg)).map fun link => { taken with link := link }

/-- The read invoker of `brokerProxy`. -/
def readableProxy (bridge : Bridge Value) : Option (Bridge Value) :=
  match bridge.brokerProxy.replies with
  | [] => none
  | reply :: rest =>
      match (Redis.readInvoker reply.reply).bind (flashHandler bridge.nodeName) with
      | none => some { bridge with brokerProxy := { bridge.brokerProxy with replies := rest } }
      | some _ => none

/-- The messages that the filters have passed on since. -/
def fresh (bridge : Bridge Value) (link : SerialSystem Value) : List ProxyMsg :=
  link.handled.drop bridge.link.handled.length

/-- Each subscription among the messages is accepted when it is made. -/
def acceptsAll (bridge : Bridge Value) : List ProxyMsg → Bool
  | [] => true
  | msg :: rest =>
      (subscription (request msg)).all (bridge.broker.accepts vector) &&
        (bridge.react vector globMatches msg).any fun next => next.acceptsAll rest

end Bridge

/-- What happens next: a step of the link other than a message of the broker, a read invoker, or a
publication of another client. -/
inductive BridgeLabel
  | link (label : SystemLabel)
  | readable
  | readableProxy
  | client (msg : PubMsg)

/-- One step. -/
def bridgeStep (bridge : Bridge Value) : BridgeLabel → Option (Bridge Value)
  | .link (.publish _) => none
  | .link label =>
      (systemStep tiny bridge.link label).bind fun link =>
        { bridge with link := link }.reactAll vector globMatches (bridge.fresh link)
  | .readable => bridge.readable tiny
  | .readableProxy => bridge.readableProxy
  | .client msg =>
      some { bridge.serve globMatches msg with traffic := bridge.traffic ++ [.client msg] }

/-- Both connections are new, and both ends of the link are. -/
structure Bridge.Constructed (bridge : Bridge Value) : Prop where
  link : System.Constructed bridge.link
  broker : bridge.broker = { subscribers := [], patterns := [], replies := [] }
  brokerProxy : bridge.brokerProxy = { subscribers := [], patterns := [], replies := [] }
  traffic : bridge.traffic = []

/-- The proxy between the device and the server. -/
def bridgeMachine : Machine (Bridge Value) BridgeLabel where
  initial := Bridge.Constructed
  step := bridgeStep vector globMatches tiny

/-- The steps that lose nothing: the link is careful, every new subscription is accepted, and no
topic has a NUL byte. -/
def attentive (bridge : Bridge Value) : BridgeLabel → Bool
  | .link label =>
      careful bridge.link label &&
        (systemStep tiny bridge.link label).any fun link =>
          { bridge with link := link }.acceptsAll vector globMatches (bridge.fresh link)
  | .readable =>
      (bridge.broker.replies.head?.bind fun reply => Redis.readInvoker reply.reply).all fun msg =>
        careful bridge.link (.publish msg)
  | .readableProxy => true
  | .client msg => 0 ∉ msg.topic

end

end BrokerProxy.System
