/-
This file models the typed topics of `BrokerBase` over `BrokerRedis`: a sink that encodes
the values it is given and passes them to `_outgoing`, and flows on `_incoming` that decode
the messages of a topic. Between the two stand `publish`, the server and the read invoker.

What listens to `_outgoing` is a parameter of the system, since the link from there to
`publish` decides everything. `BrokerRedis` attaches nothing, so no command is ever issued;
with a sink that publishes, as `BrokerSerial` attaches one, every value becomes a command.
-/

import BrokerProxy.Codec.ValueList
import BrokerProxy.Redis.ReplyStream
import Mathlib.Logic.Function.Basic

namespace BrokerProxy.Redis

open Codec Runs

/-! ### Brokers -/

/-- What can listen to `_outgoing`: a sink that gives the message to `publish`. -/
inductive OutgoingListener
  | publish
deriving DecidableEq

/-- The fields of a `BrokerRedis` that typed topics use: the prefixes, whether the subscribe
context is open, `connected`, the serializer and the deserializer, the listeners of `_outgoing`, the
absolute topics of the sinks that `publisher` has returned, the absolute patterns of the flows that
`subscriber` has attached to `_incoming`, the patterns that the server has for the broker, and the
replies it has not read. -/
structure TopicBroker (width : Nat) (Value : Type) where
  srcPrefix : Bytes
  dstPrefix : Bytes
  listening : Bool
  connected : Bool
  toCbor : CborSerializer width
  fromCbor : CborDeserializer Value
  outgoing : List OutgoingListener
  publishers : List Bytes
  subscribers : List Bytes
  patterns : List Bytes
  replies : List ServerReply

variable {width : Nat} {Value Node : Type}

/-- A broker that the constructor has made, of which something has been attached to `_outgoing`. -/
structure TopicBroker.Constructed (attached : List OutgoingListener)
    (broker : TopicBroker width Value) : Prop where
  srcPrefix : broker.srcPrefix = []
  dstPrefix : broker.dstPrefix = []
  listening : broker.listening = false
  connected : broker.connected = false
  toCbor : broker.toCbor.buffer.capacity = 1000000
  fromCbor : broker.fromCbor.capacity = 1000000
  outgoing : broker.outgoing = attached
  publishers : broker.publishers = []
  subscribers : broker.subscribers = []
  patterns : broker.patterns = []
  replies : broker.replies = []

/-- The topic or pattern that `publisher` and `subscriber` make of a name. -/
def absolute (nodePrefix topic : Bytes) : Bytes :=
  if (ascii "src/").isPrefixOf topic ∨ (ascii "dst/").isPrefixOf topic then topic
  else nodePrefix ++ topic

/-- The calls of a broker that set it up. Whether the subscribe context and the publish context can
be opened is the choice of the server. -/
inductive TopicCall
  | connect (node : Bytes) (subscribing publishing : Bool)
  | disconnect
  | publisher (topic : Bytes)
  | subscriber (pattern : Bytes)
  | subscribe (pattern : Bytes)

/-- Make a call. On a new connection the server has no patterns. Without an open context `subscribe`
has no result. -/
def TopicBroker.call (broker : TopicBroker width Value) :
    TopicCall → Option (TopicBroker width Value)
  | .connect node subscribing publishing =>
      let named :=
        { broker with
          dstPrefix := ascii "dst/" ++ node ++ ascii "/"
          srcPrefix := ascii "src/" ++ node ++ ascii "/" }
      if named.connected then some named
      else
        some
          { named with
            listening := subscribing
            connected := subscribing && publishing
            patterns := []
            replies := [] }
  | .disconnect =>
      if broker.connected then
        some { broker with listening := false, connected := false, patterns := [], replies := [] }
      else some broker
  | .publisher topic =>
      some { broker with publishers := broker.publishers ++ [absolute broker.srcPrefix topic] }
  | .subscriber pattern =>
      some { broker with subscribers := broker.subscribers ++ [absolute broker.dstPrefix pattern] }
  | .subscribe pattern =>
      if broker.listening then
        if broker.patterns.contains pattern then some broker
        else some { broker with patterns := pattern :: broker.patterns }
      else none

/-! ### The system -/

/-- The brokers, the PUBLISH commands that they have issued, the values that were passed to a sink
of a connected broker, with the topic of the sink, and the values that the flows of each broker
have emitted, with the number of the flow. -/
structure TopicSystem (width : Nat) (Value Node : Type) where
  brokers : Node → TopicBroker width Value
  commands : List PubMsg
  passed : List (Bytes × UInt64)
  emitted : Node → List (Nat × UInt64)

/-- What happens next: a call, a value is passed to the sink with a number, or the read invoker of a
broker runs. -/
inductive TopicLabel (Node : Type)
  | call (node : Node) (call : TopicCall)
  | on (node : Node) (index : Nat) (value : UInt64)
  | readable (node : Node)

section

variable (tiny : TinyCborEncoder width) (decoder : TinyCborDecoder Value)
  (globMatches regexMatches : Bytes → Bytes → Bool)

/-- The flow that `subscriber` has made for a pattern, on a message. The variable that it reads into
is not initialised. `match` is a regular expression match. -/
def subscriberFlow (fromCbor : CborDeserializer Value) (absPattern : Bytes) (msg : PubMsg)
    (t : UInt64) : Option UInt64 × CborDeserializer Value :=
  if msg.topic = absPattern ∨ regexMatches absPattern msg.topic = true then
    let got := ((fromCbor.fromBytes msg.payload).begin decoder).getUInt64 decoder t
    (if got.2.success then some got.1 else none, got.2)
  else (none, fromCbor)

/-- The flows on `_incoming`, from a number on, one after the other: the values they emit. -/
def incomingFlows (msg : PubMsg) (fromCbor : CborDeserializer Value) :
    Nat → List Bytes → List (Nat × UInt64) × CborDeserializer Value
  | _, [] => ([], fromCbor)
  | index, absPattern :: rest =>
      let got := subscriberFlow decoder regexMatches fromCbor absPattern msg 0
      let later := incomingFlows msg got.2 (index + 1) rest
      ((got.1.map fun value => (index, value)).toList ++ later.1, later.2)

namespace TopicSystem

/-- The server executes a PUBLISH command: it puts a reply for each pattern that matches on the
connection that has it. -/
def serve (system : TopicSystem width Value Node) (command : PubMsg) :
    TopicSystem width Value Node :=
  { system with
    commands := system.commands ++ [command]
    brokers := fun node =>
      let broker := system.brokers node
      { broker with
        replies := broker.replies ++
          (broker.patterns.filter (globMatches · command.topic)).map fun pattern =>
            .pmessage pattern command.topic command.payload } }

/-- `publish` of a broker, which formats the topic as a C string. -/
def publish (system : TopicSystem width Value Node) (node : Node) (topic bs : Bytes) :
    TopicSystem width Value Node :=
  if (system.brokers node).connected then
    system.serve globMatches { topic := cString topic, payload := bs }
  else system

/-- `emit` of `_outgoing`. -/
def emitOutgoing (system : TopicSystem width Value Node) (node : Node) (msg : PubMsg)
    (listeners : List OutgoingListener) : TopicSystem width Value Node :=
  listeners.foldl (fun system listener =>
    match listener with
    | .publish => system.publish globMatches node msg.topic msg.payload) system

variable [DecidableEq Node]

/-- Replace a broker. -/
def set (system : TopicSystem width Value Node) (node : Node)
    (broker : TopicBroker width Value) : TopicSystem width Value Node :=
  { system with brokers := Function.update system.brokers node broker }

/-- `on` of a sink: the value is encoded, and `_outgoing`, which has no thread, emits at once. -/
def on (system : TopicSystem width Value Node) (node : Node) (absTopic : Bytes)
    (value : UInt64) : Option (TopicSystem width Value Node) :=
  let broker := system.brokers node
  let written := broker.toCbor.serialize tiny [.uint64 value]
  written.toBytes.map fun bs =>
    let encoded := system.set node { broker with toCbor := written }
    let noted :=
      { encoded with
        passed := if broker.connected then system.passed ++ [(absTopic, value)]
          else system.passed }
    noted.emitOutgoing globMatches node { topic := absTopic, payload := bs } broker.outgoing

/-- The read invoker takes the oldest reply, and `_incoming`, which has no thread, emits its message
at once. -/
def readable (system : TopicSystem width Value Node) (node : Node) :
    Option (TopicSystem width Value Node) :=
  let broker := system.brokers node
  match broker.replies with
  | [] => none
  | reply :: rest =>
      match readInvoker reply.reply with
      | none => some (system.set node { broker with replies := rest })
      | some msg =>
          let received := incomingFlows decoder regexMatches msg broker.fromCbor 0
            broker.subscribers
          let taken := system.set node { broker with replies := rest, fromCbor := received.2 }
          some
            { taken with
              emitted := Function.update system.emitted node
                (system.emitted node ++ received.1) }

end TopicSystem

/-- One step of the system. -/
def topicStep [DecidableEq Node] (system : TopicSystem width Value Node) :
    TopicLabel Node → Option (TopicSystem width Value Node)
  | .call node call => ((system.brokers node).call call).map (system.set node)
  | .on node index value =>
      (system.brokers node).publishers[index]?.bind fun absTopic =>
        system.on tiny globMatches node absTopic value
  | .readable node => system.readable decoder regexMatches node

/-- Any number of brokers on one server, where nobody else publishes, with the same attached to
`_outgoing` of each. -/
def topicMachine [DecidableEq Node] (attached : List OutgoingListener) :
    Machine (TopicSystem width Value Node) (TopicLabel Node) where
  initial system :=
    (∀ node, (system.brokers node).Constructed attached) ∧ system.commands = [] ∧
      system.passed = [] ∧ ∀ node, system.emitted node = []
  step := topicStep tiny decoder globMatches regexMatches

/-- The brokers are `BrokerRedis`: the constructor, `init` and `connect` attach nothing to
`_outgoing`, and nothing outside the class can. -/
def redisTopics [DecidableEq Node] :
    Machine (TopicSystem width Value Node) (TopicLabel Node) :=
  topicMachine tiny decoder globMatches regexMatches []

end

/-! ### What was issued -/

/-- The PUBLISH command for a value on a topic. -/
def commandFor (topic : Bytes) (value : UInt64) : PubMsg :=
  { topic := cString topic, payload := arrayEncoding [.uint64 value] }

/-- The commands for the values passed, with one for each listener of `_outgoing`. -/
def commandsFor (attached : List OutgoingListener) (passed : List (Bytes × UInt64)) :
    List PubMsg :=
  passed.flatMap fun value => attached.map fun _ => commandFor value.1 value.2

theorem commandsFor_nil (passed : List (Bytes × UInt64)) : commandsFor [] passed = [] :=
  List.flatMap_eq_nil_iff.mpr fun _ _ => rfl

theorem commandsFor_append (attached : List OutgoingListener) (passed : List (Bytes × UInt64))
    (topic : Bytes) (value : UInt64) :
    commandsFor attached (passed ++ [(topic, value)]) =
      commandsFor attached passed ++ attached.map fun _ => commandFor topic value := by
  rw [commandsFor, List.flatMap_append, List.flatMap_singleton]
  rfl

/-- The array of a value fits into the buffer. -/
theorem length_arrayEncoding_uint64 (value : UInt64) :
    (arrayEncoding [.uint64 value]).length ≤ 11 := by
  have head : Cbor.headLength value.toNat ≤ 9 := by
    unfold Cbor.headLength
    split
    · decide
    · split
      · decide
      · split
        · decide
        · split <;> decide
  rw [length_arrayEncoding, List.length_cons, List.map_cons, List.map_nil, List.flatten_cons,
    List.flatten_nil, List.append_nil]
  show (Cbor.encodeHead 0 value.toNat).length + 1 + 1 ≤ 11
  rw [Cbor.length_encodeHead]
  omega

/-- What a system has in common with the one before `publish`: all but the commands and the replies
that are not read. -/
structure Publishes (before after : TopicSystem width Value Node) : Prop where
  passed : after.passed = before.passed
  emitted : after.emitted = before.emitted
  brokers : ∀ node, ∃ replies,
    after.brokers node = { before.brokers node with replies := replies }

theorem Publishes.refl (system : TopicSystem width Value Node) : Publishes system system :=
  ⟨rfl, rfl, fun _ => ⟨_, rfl⟩⟩

theorem Publishes.trans {first second third : TopicSystem width Value Node}
    (left : Publishes first second) (right : Publishes second third) : Publishes first third := by
  refine ⟨right.passed.trans left.passed, right.emitted.trans left.emitted, fun node => ?_⟩
  obtain ⟨between, same⟩ := left.brokers node
  obtain ⟨replies, last⟩ := right.brokers node
  exact ⟨replies, by rw [last, same]⟩

theorem Publishes.connected {before after : TopicSystem width Value Node}
    (publishes : Publishes before after) (node : Node) :
    (after.brokers node).connected = (before.brokers node).connected := by
  obtain ⟨replies, same⟩ := publishes.brokers node
  rw [same]

section

variable {tiny : TinyCborEncoder width} {decoder : TinyCborDecoder Value}
  {globMatches regexMatches : Bytes → Bytes → Bool}

namespace TopicSystem

variable (system : TopicSystem width Value Node) (node : Node)

theorem publish_publishes (topic bs : Bytes) :
    Publishes system (system.publish globMatches node topic bs) := by
  unfold publish
  split
  · exact ⟨rfl, rfl, fun _ => ⟨_, rfl⟩⟩
  · exact Publishes.refl system

theorem publish_commands (topic bs : Bytes) :
    (system.publish globMatches node topic bs).commands =
      system.commands ++
        if (system.brokers node).connected then [{ topic := cString topic, payload := bs }]
        else [] := by
  unfold publish
  split
  · rfl
  · rw [List.append_nil]

theorem emitOutgoing_publishes (msg : PubMsg) (listeners : List OutgoingListener) :
    Publishes system (system.emitOutgoing globMatches node msg listeners) := by
  induction listeners generalizing system with
  | nil => exact Publishes.refl system
  | cons listener rest inductionHypothesis =>
    cases listener
    exact (system.publish_publishes node msg.topic msg.payload).trans
      (inductionHypothesis (system.publish globMatches node msg.topic msg.payload))

/-- `emit` of `_outgoing` issues a command for each listener. -/
theorem emitOutgoing_commands (msg : PubMsg) (listeners : List OutgoingListener) :
    (system.emitOutgoing globMatches node msg listeners).commands =
      system.commands ++
        if (system.brokers node).connected then
          listeners.map fun _ => { topic := cString msg.topic, payload := msg.payload }
        else [] := by
  induction listeners generalizing system with
  | nil =>
    rw [List.map_nil, ite_self, List.append_nil]
    rfl
  | cons listener rest inductionHypothesis =>
    cases listener
    have further := inductionHypothesis (system.publish globMatches node msg.topic msg.payload)
    rw [(system.publish_publishes node msg.topic msg.payload).connected node,
      system.publish_commands node msg.topic msg.payload, List.append_assoc] at further
    refine further.trans ?_
    split
    · rw [List.map_cons, List.singleton_append]
    · rw [List.append_nil]

/-- Where no command is issued, nothing changes. -/
theorem emitOutgoing_silent (msg : PubMsg) (listeners : List OutgoingListener)
    (silent : (system.emitOutgoing globMatches node msg listeners).commands = []) :
    system.emitOutgoing globMatches node msg listeners = system := by
  cases listeners with
  | nil => rfl
  | cons listener rest =>
    rw [system.emitOutgoing_commands node, List.append_eq_nil_iff] at silent
    have disconnected : ¬ (system.brokers node).connected = true := by
      intro connected
      rw [if_pos connected] at silent
      cases silent.2
    have unchanged : ∀ listeners : List OutgoingListener,
        system.emitOutgoing globMatches node msg listeners = system := by
      intro listeners
      induction listeners with
      | nil => rfl
      | cons listener rest inductionHypothesis =>
        cases listener
        have same : system.publish globMatches node msg.topic msg.payload = system :=
          if_neg disconnected
        show (system.publish globMatches node msg.topic msg.payload).emitOutgoing globMatches node
          msg rest = system
        rw [same, inductionHypothesis]
    exact unchanged (listener :: rest)

end TopicSystem

/-! ### What holds in every run -/

/-- Every command is one for a value that was passed, and nothing is received without a command. -/
structure TopicSystem.Linked (attached : List OutgoingListener)
    (system : TopicSystem width Value Node) : Prop where
  outgoing : ∀ node, (system.brokers node).outgoing = attached
  toCbor : ∀ node, (system.brokers node).toCbor.buffer.capacity = 1000000
  commands : system.commands = commandsFor attached system.passed
  replies : system.commands = [] → ∀ node, (system.brokers node).replies = []
  emitted : system.commands = [] → ∀ node, system.emitted node = []

/-- What a call leaves alone. -/
theorem TopicBroker.call_keeps {broker after : TopicBroker width Value} {call : TopicCall}
    (done : broker.call call = some after) :
    after.outgoing = broker.outgoing ∧ after.toCbor = broker.toCbor ∧
      (after.replies = broker.replies ∨ after.replies = []) := by
  cases call with
  | connect node subscribing publishing =>
    cases connected : broker.connected <;>
      simp only [TopicBroker.call, connected, Bool.false_eq_true, if_true, if_false,
        Option.some.injEq] at done <;>
      subst done
    · exact ⟨rfl, rfl, Or.inr rfl⟩
    · exact ⟨rfl, rfl, Or.inl rfl⟩
  | disconnect =>
    rw [TopicBroker.call] at done
    by_cases connected : broker.connected = true
    · rw [if_pos connected] at done
      cases done
      exact ⟨rfl, rfl, Or.inr rfl⟩
    · rw [if_neg connected] at done
      cases done
      exact ⟨rfl, rfl, Or.inl rfl⟩
  | publisher topic | subscriber pattern =>
    cases done
    exact ⟨rfl, rfl, Or.inl rfl⟩
  | subscribe pattern =>
    rw [TopicBroker.call] at done
    by_cases listening : broker.listening = true
    · rw [if_pos listening] at done
      by_cases known : broker.patterns.contains pattern = true
      · rw [if_pos known] at done
        cases done
        exact ⟨rfl, rfl, Or.inl rfl⟩
      · rw [if_neg known] at done
        cases done
        exact ⟨rfl, rfl, Or.inl rfl⟩
    · rw [if_neg listening] at done
      cases done

/-- The array of a value is what `toBytes` gives. -/
theorem toBytes_uint64 {toCbor : CborSerializer width} {value : UInt64} {bs : Bytes}
    (capacity : toCbor.buffer.capacity = 1000000)
    (given : (toCbor.serialize tiny [.uint64 value]).toBytes = some bs) :
    bs = arrayEncoding [.uint64 value] := by
  have short := length_arrayEncoding_uint64 value
  rcases toBytes_cases tiny toCbor _ given with ⟨-, same⟩ | ⟨overflow, -⟩
  · exact same
  · omega

variable {attached : List OutgoingListener}

/-- A value that is passed on to `_outgoing` keeps the system linked: a connected broker issues a
command for each listener. -/
theorem TopicSystem.Linked.emit (globMatches : Bytes → Bytes → Bool)
    {system : TopicSystem width Value Node} (linked : system.Linked attached) (node : Node)
    (absTopic : Bytes) (value : UInt64) {listeners : List OutgoingListener}
    (same : listeners = attached) :
    (TopicSystem.emitOutgoing globMatches
      { system with
        passed := if (system.brokers node).connected then system.passed ++ [(absTopic, value)]
          else system.passed }
      node { topic := absTopic, payload := arrayEncoding [.uint64 value] } listeners).Linked
        attached := by
  subst same
  obtain ⟨noted, isNoted⟩ : ∃ noted : TopicSystem width Value Node,
      noted =
        { system with
          passed := if (system.brokers node).connected then system.passed ++ [(absTopic, value)]
            else system.passed } := ⟨_, rfl⟩
  have brokers : noted.brokers = system.brokers := by rw [isNoted]
  have emitted : noted.emitted = system.emitted := by rw [isNoted]
  have commands : noted.commands = system.commands := by rw [isNoted]
  have publishes : Publishes noted (noted.emitOutgoing globMatches node
      { topic := absTopic, payload := arrayEncoding [.uint64 value] } listeners) :=
    noted.emitOutgoing_publishes node _ listeners
  have nothing : (noted.emitOutgoing globMatches node
      { topic := absTopic, payload := arrayEncoding [.uint64 value] } listeners).commands = [] →
        system.commands = [] ∧ noted.emitOutgoing globMatches node
          { topic := absTopic, payload := arrayEncoding [.uint64 value] } listeners = noted := by
    intro silent
    have same := noted.emitOutgoing_silent node _ listeners silent
    rw [same, commands] at silent
    exact ⟨silent, same⟩
  rw [← isNoted]
  refine
    { outgoing := fun other => ?_
      toCbor := fun other => ?_
      commands := ?_
      replies := fun silent other => ?_
      emitted := fun silent other => ?_ }
  · obtain ⟨replies, same⟩ := publishes.brokers other
    rw [same, brokers]
    exact linked.outgoing other
  · obtain ⟨replies, same⟩ := publishes.brokers other
    rw [same, brokers]
    exact linked.toCbor other
  · rw [noted.emitOutgoing_commands node, publishes.passed, commands, brokers, linked.commands,
      isNoted]
    by_cases connected : (system.brokers node).connected = true
    · rw [if_pos connected, if_pos connected, commandsFor_append]
      rfl
    · rw [if_neg connected, if_neg connected, List.append_nil]
  · obtain ⟨before, same⟩ := nothing silent
    rw [same, brokers]
    exact linked.replies before other
  · obtain ⟨before, same⟩ := nothing silent
    rw [same, emitted]
    exact linked.emitted before other

variable [DecidableEq Node]

theorem TopicSystem.set_brokers_self (system : TopicSystem width Value Node) (node : Node)
    (broker : TopicBroker width Value) : (system.set node broker).brokers node = broker := by
  show Function.update system.brokers node broker node = broker
  rw [Function.update_self]

/-- A broker that is replaced by one with the same listeners and serializer capacity, and nothing
new to read, keeps the system linked. -/
theorem TopicSystem.Linked.set {system : TopicSystem width Value Node}
    (linked : system.Linked attached) {node : Node} {broker : TopicBroker width Value}
    (outgoing : broker.outgoing = (system.brokers node).outgoing)
    (toCbor : broker.toCbor.buffer.capacity = (system.brokers node).toCbor.buffer.capacity)
    (replies : (system.brokers node).replies = [] → broker.replies = []) :
    (system.set node broker).Linked attached := by
  refine
    { outgoing := fun other => ?_
      toCbor := fun other => ?_
      commands := linked.commands
      replies := fun none other => ?_
      emitted := linked.emitted }
  · show (Function.update system.brokers node broker other).outgoing = attached
    by_cases same : other = node
    · rw [same, Function.update_self, outgoing, linked.outgoing]
    · rw [Function.update_of_ne same, linked.outgoing]
  · show (Function.update system.brokers node broker other).toCbor.buffer.capacity = 1000000
    by_cases same : other = node
    · rw [same, Function.update_self, toCbor, linked.toCbor]
    · rw [Function.update_of_ne same, linked.toCbor]
  · show (Function.update system.brokers node broker other).replies = []
    by_cases same : other = node
    · rw [same, Function.update_self]
      exact replies (linked.replies none node)
    · rw [Function.update_of_ne same]
      exact linked.replies none other

/-- A value that is passed to a sink keeps the system linked. -/
theorem TopicSystem.Linked.on {system next : TopicSystem width Value Node}
    (linked : system.Linked attached) {node : Node} {absTopic : Bytes} {value : UInt64}
    (taken : system.on tiny globMatches node absTopic value = some next) :
    next.Linked attached := by
  obtain ⟨bs, given, same⟩ := Option.map_eq_some_iff.mp taken
  have array := toBytes_uint64 (linked.toCbor node) given
  have buffer := serialize_buffer tiny (system.brokers node).toCbor [.uint64 value]
  have encoded : (system.set node { system.brokers node with
      toCbor := (system.brokers node).toCbor.serialize tiny [.uint64 value] }).Linked attached :=
    linked.set rfl (congrArg Block.capacity buffer) id
  have emits := encoded.emit globMatches node absTopic value (linked.outgoing node)
  rw [system.set_brokers_self] at emits
  rw [array] at same
  exact same ▸ emits

/-- The read invoker keeps the system linked. -/
theorem TopicSystem.Linked.readable {system next : TopicSystem width Value Node}
    (linked : system.Linked attached) {node : Node}
    (taken : system.readable decoder regexMatches node = some next) : next.Linked attached := by
  unfold TopicSystem.readable at taken
  dsimp only at taken
  cases unread : (system.brokers node).replies with
  | nil =>
    rw [unread] at taken
    cases taken
  | cons reply rest =>
    have issued : system.commands ≠ [] := by
      intro none
      rw [linked.replies none node] at unread
      cases unread
    have noneLeft : (system.brokers node).replies = [] → rest = [] := by
      rw [unread]
      nofun
    rw [unread] at taken
    dsimp only at taken
    split at taken
    · cases taken
      exact linked.set rfl rfl noneLeft
    · rename_i msg isMessage
      have read : (system.set node { system.brokers node with
          replies := rest
          fromCbor := (incomingFlows decoder regexMatches msg (system.brokers node).fromCbor 0
            (system.brokers node).subscribers).2 }).Linked attached := linked.set rfl rfl noneLeft
      cases taken
      exact
        { outgoing := read.outgoing
          toCbor := read.toCbor
          commands := read.commands
          replies := read.replies
          emitted := fun silent => absurd silent issued }

/-- In every run the system is linked. -/
theorem topicMachine_linked {system : TopicSystem width Value Node}
    (reachable : (topicMachine tiny decoder globMatches regexMatches attached).Reachable system) :
    system.Linked attached := by
  refine Machine.Reachable.invariant ?_ ?_ reachable
  · rintro system ⟨constructed, commands, passed, emitted⟩
    exact
      { outgoing := fun node => (constructed node).outgoing
        toCbor := fun node => (constructed node).toCbor
        commands := by rw [commands, passed]; rfl
        replies := fun _ node => (constructed node).replies
        emitted := fun _ => emitted }
  · intro system label next _ linked taken
    cases label with
    | call node call =>
      obtain ⟨broker, done, rfl⟩ := Option.map_eq_some_iff.mp taken
      obtain ⟨outgoing, toCbor, replies⟩ := TopicBroker.call_keeps done
      refine linked.set outgoing (by rw [toCbor]) fun none => ?_
      rcases replies with same | empty
      · rw [same, none]
      · exact empty
    | on node index value =>
      obtain ⟨absTopic, -, passes⟩ := Option.bind_eq_some_iff.mp taken
      exact linked.on passes
    | readable node => exact linked.readable taken

/-! ### What arrives -/

/-- The values passed to the sinks of a topic. -/
def TopicSystem.passedOn (system : TopicSystem width Value Node) (topic : Bytes) : List UInt64 :=
  (system.passed.filter (·.1 = topic)).map Prod.snd

/-- The values that a flow has emitted. -/
def TopicSystem.emittedBy (system : TopicSystem width Value Node) (node : Node) (index : Nat) :
    List UInt64 :=
  ((system.emitted node).filter (·.1 = index)).map Prod.snd

/-- A command was issued for each value passed on a topic, and a flow has emitted exactly these
values. -/
structure TopicSystem.Delivered (system : TopicSystem width Value Node) (topic : Bytes)
    (node : Node) (index : Nat) : Prop where
  commands : system.commands.filter (·.topic = topic) =
    (system.passedOn topic).map fun value =>
      { topic := topic, payload := arrayEncoding [.uint64 value] }
  emitted : system.emittedBy node index = system.passedOn topic

/-- With a sink that publishes, every value is published. -/
theorem topicMachine_publishes {system : TopicSystem width Value Node}
    (reachable : (topicMachine tiny decoder globMatches regexMatches [.publish]).Reachable
      system) :
    system.commands = system.passed.map fun value => commandFor value.1 value.2 := by
  rw [(topicMachine_linked reachable).commands, commandsFor, List.map_eq_flatMap]
  rfl

omit [DecidableEq Node] in
/-- A flow for the topic emits the value of a command. -/
theorem subscriberFlow_emits (fromCbor : CborDeserializer Value)
    (capacity : fromCbor.capacity = 1000000) (absPattern : Bytes) (value t : UInt64) :
    (subscriberFlow decoder regexMatches fromCbor absPattern
      { topic := absPattern, payload := arrayEncoding [.uint64 value] } t).1 = some value := by
  have short : (arrayEncoding ([Field.uint64 value].map Field.argument)).length ≤ 11 :=
    length_arrayEncoding_uint64 value
  have types : [Field.uint64 t].map Field.kind = [Field.uint64 value].map Field.kind := rfl
  obtain ⟨after, got, success⟩ := getAll_arrayEncoding decoder fromCbor
    (short.trans_lt (by decide)) (by omega) types
  obtain ⟨values, rfl⟩ := Prod.mk.inj (Option.some.inj got)
  have read := Field.uint64.inj (List.cons.inj values).1
  unfold subscriberFlow
  rw [if_pos (Or.inl rfl)]
  exact (if_pos success).trans (congrArg some read)

/-- What is passed to the sinks of a `BrokerRedis` does not arrive. -/
theorem redisTopics_delivered_iff {system : TopicSystem width Value Node}
    (reachable : (redisTopics tiny decoder globMatches regexMatches).Reachable system)
    (topic : Bytes) (node : Node) (index : Nat) :
    system.Delivered topic node index ↔ system.passedOn topic = [] := by
  have linked := topicMachine_linked reachable
  have none : system.commands = [] := linked.commands.trans (commandsFor_nil _)
  have silent : system.emittedBy node index = [] := by
    rw [TopicSystem.emittedBy, linked.emitted none node]
    rfl
  constructor
  · intro delivered
    exact delivered.emitted.symm.trans silent
  · intro nothing
    exact
      { commands := by rw [none, nothing]; rfl
        emitted := silent.trans nothing.symm }

end

/-! ### One value -/

/-- A broker of the reference codec that the constructor has made. -/
def constructedBroker : TopicBroker 64 ReferenceValue where
  srcPrefix := []
  dstPrefix := []
  listening := false
  connected := false
  toCbor := constructedAt (largeBlock 1000000 (by decide))
  fromCbor := constructed 1000000
  outgoing := []
  publishers := []
  subscribers := []
  patterns := []
  replies := []

/-- A program with one broker, before it connects. -/
def oneBroker : TopicSystem 64 ReferenceValue Unit where
  brokers _ := constructedBroker
  commands := []
  passed := []
  emitted _ := []

/-- The machine of the brokers with the reference codec, whose patterns match themselves. -/
def oneBrokerTopics : Machine (TopicSystem 64 ReferenceValue Unit) (TopicLabel Unit) :=
  redisTopics (referenceEncoder 64) referenceDecoder (· == ·) (· == ·)

theorem oneBroker_initial : oneBrokerTopics.initial oneBroker :=
  ⟨fun _ => ⟨rfl, rfl, rfl, rfl, rfl, rfl, rfl, rfl, rfl, rfl, rfl⟩, rfl, rfl, fun _ => rfl⟩

/-- A broker connects, makes a sink and a flow of one topic, and subscribes to it. -/
def uptimeAttached : List (TopicLabel Unit) :=
  [.call () (.connect (ascii "brain") true true),
    .call () (.publisher (ascii "src/brain/system/uptime")),
    .call () (.subscriber (ascii "src/brain/system/uptime")),
    .call () (.subscribe (ascii "src/brain/system/uptime"))]

/-- Before a value is passed to the sink there is nothing to deliver. -/
theorem oneBroker_delivered :
    ∃ system, oneBrokerTopics.Reachable system ∧
      (system.brokers ()).connected = true ∧
      (system.brokers ()).subscribers[0]? = some (ascii "src/brain/system/uptime") ∧
      ascii "src/brain/system/uptime" ∈ (system.brokers ()).patterns ∧
      system.Delivered (ascii "src/brain/system/uptime") () 0 := by
  obtain ⟨system, reachable, test⟩ := Machine.exists_reachable_of_run oneBrokerTopics
    oneBroker_initial uptimeAttached
    (fun system => (system.brokers ()).connected ∧
      (system.brokers ()).subscribers[0]? = some (ascii "src/brain/system/uptime") ∧
      ascii "src/brain/system/uptime" ∈ (system.brokers ()).patterns ∧
      system.passedOn (ascii "src/brain/system/uptime") = []) (by decide +kernel)
  obtain ⟨connected, subscribers, patterns, nothing⟩ := of_decide_eq_true test
  have reachable : (redisTopics (referenceEncoder 64) referenceDecoder (· == ·) (· == ·)).Reachable
      system := reachable
  exact ⟨system, reachable, connected, subscribers, patterns,
    (redisTopics_delivered_iff reachable (ascii "src/brain/system/uptime") () 0).mpr nothing⟩

/-- Then a value is passed to the sink. -/
def uptimeRun : List (TopicLabel Unit) := uptimeAttached ++ [.on () 0 5]

/-- No command is issued, nothing is left to read, and the flow emits nothing. -/
theorem uptime_not_delivered :
    ∃ system, oneBrokerTopics.Reachable system ∧
      (system.brokers ()).connected = true ∧
      (system.brokers ()).subscribers[0]? = some (ascii "src/brain/system/uptime") ∧
      ascii "src/brain/system/uptime" ∈ (system.brokers ()).patterns ∧
      (system.brokers ()).replies = [] ∧
      system.passedOn (ascii "src/brain/system/uptime") = [5] ∧
      ¬ system.Delivered (ascii "src/brain/system/uptime") () 0 := by
  obtain ⟨system, reachable, test⟩ := Machine.exists_reachable_of_run oneBrokerTopics
    oneBroker_initial uptimeRun
    (fun system => (system.brokers ()).connected ∧
      (system.brokers ()).subscribers[0]? = some (ascii "src/brain/system/uptime") ∧
      ascii "src/brain/system/uptime" ∈ (system.brokers ()).patterns ∧
      (system.brokers ()).replies = [] ∧
      system.passedOn (ascii "src/brain/system/uptime") = [5] ∧
      system.emittedBy () 0 = []) (by decide +kernel)
  obtain ⟨connected, subscribers, patterns, replies, passed, emitted⟩ := of_decide_eq_true test
  refine ⟨system, reachable, connected, subscribers, patterns, replies, passed, ?_⟩
  intro delivered
  have same := delivered.emitted
  rw [emitted, passed] at same
  cases same

end BrokerProxy.Redis
