/-
This file shows that the proxy relays between the device and the server: in attentive runs
what the device gets is what a client of the server with its subscriptions receives, in
the order in which the server has executed the commands, and nothing else.

The invariant says that what has been published to the device and what waits on the
connection of `broker` are together what is received of the traffic so far. The link to
the device delivers by itself.
-/

import BrokerProxy.Library.Glob
import BrokerProxy.System.Bridge
import BrokerProxy.System.Delivery

namespace BrokerProxy.System

open Protocol PubSub Runs
open Redis (ServerReply ascii sent subscribeText)

variable {vector : Bytes → Option (List Bytes)} {globMatches : Bytes → Bytes → Bool}

/-! ### A connection -/

/-- The messages among the replies. -/
def Connection.messages (connection : Connection) : List PubMsg :=
  connection.replies.filterMap ServerReply.message

/-- A publication adds a copy for each pattern that covers it. -/
theorem Connection.messages_serve (connection : Connection) (msg : PubMsg) :
    (connection.serve globMatches msg).messages =
      connection.messages ++ copies (covers globMatches) connection.patterns msg := by
  have same (patterns : List Bytes) :
      (patterns.map fun pattern =>
        ServerReply.pmessage pattern msg.topic msg.payload).filterMap ServerReply.message =
        List.replicate patterns.length msg := by
    rw [List.filterMap_map, ← List.map_const']
    exact congrFun List.filterMap_eq_map patterns
  rw [Connection.messages, Connection.serve, List.filterMap_append, same, copies,
    List.countP_eq_length_filter]
  rfl

/-- A subscription that is accepted adds its pattern, and leaves the messages. -/
theorem Connection.subscribe_of_accepts {connection : Connection} {pattern : Bytes}
    (known : ∀ subscriber ∈ connection.subscribers, subscriber ∈ connection.patterns)
    (accepted : connection.accepts vector pattern = true) {next : Connection}
    (done : connection.subscribe vector pattern = some next) :
    next.patterns = PubSub.subscribe connection.patterns pattern ∧
      next.replies = connection.replies ∧
      ∀ subscriber ∈ next.subscribers, subscriber ∈ next.patterns := by
  unfold subscribe at done
  split at done
  · rename_i old
    cases done
    have member : pattern ∈ connection.subscribers := List.contains_iff_mem.mp old
    exact ⟨(if_pos (known pattern member)).symm, rfl, known⟩
  · rename_i new
    rcases (Bool.or_eq_true _ _).mp accepted with old | command
    · exact absurd old new
    · obtain ⟨exact, unread⟩ := (Bool.and_eq_true _ _).mp command
      rw [of_decide_eq_true exact, Option.map_some, Option.some_inj] at done
      have nothing : connection.replies = [] := List.isEmpty_iff.mp unread
      subst done
      refine ⟨rfl, ?_, fun subscriber member => ?_⟩
      · show (connection.replies ++ [_]).tail = _
        rw [nothing]
        rfl
      · refine mem_subscribe.mpr ?_
        exact (List.mem_cons.mp member).imp_right (known subscriber)

/-! ### What is relayed -/

/-- The messages that the filters have passed on are what the proxy has asked for; what the server
has for the connection of `broker` comes from the traffic, and so does what has been published to
the device or waits on the connection. -/
structure Relayed (globMatches : Bytes → Bytes → Bool) (bridge : Bridge Value)
    (handled : List ProxyMsg) : Prop where
  lossless : Lossless bridge.link
  requests : bridge.traffic.filterMap Traffic.ofProxy = handled.map request
  patterns : bridge.broker.patterns = patternsAfter [] (bridge.traffic.map Traffic.command)
  known : ∀ subscriber ∈ bridge.broker.subscribers, subscriber ∈ bridge.broker.patterns
  topics : ∀ msg ∈ bridge.broker.messages, 0 ∉ msg.topic
  relayed : bridge.link.published ++ bridge.broker.messages =
    received (covers globMatches) [] (bridge.traffic.map Traffic.command)

namespace Relayed

variable {Value : Type} {bridge next : Bridge Value} {handled : List ProxyMsg}

/-- A publication reaches the connection. -/
theorem serve (relayed : Relayed globMatches bridge handled) {msg : PubMsg} (noNul : 0 ∉ msg.topic)
    {event : Traffic} (publication : event.command = .publish msg) {later : List ProxyMsg}
    (asked : event.ofProxy.toList = later.map request) :
    Relayed globMatches
      { bridge.serve globMatches msg with traffic := bridge.traffic ++ [event] }
      (handled ++ later) where
  lossless := relayed.lossless
  requests := by
    have last : [event].filterMap Traffic.ofProxy = event.ofProxy.toList := by
      cases event <;> rfl
    rw [List.filterMap_append, relayed.requests, last, asked, List.map_append]
  patterns := by
    rw [List.map_append, List.map_singleton, patternsAfter_concat, publication, ← relayed.patterns]
    rfl
  known := relayed.known
  topics copy member := by
    have all : copy ∈ bridge.broker.messages ++
        copies (covers globMatches) bridge.broker.patterns msg :=
      bridge.broker.messages_serve msg ▸ member
    rcases List.mem_append.mp all with old | new
    · exact relayed.topics copy old
    · rw [(mem_copies.mp new).1]
      exact noNul
  relayed := by
    have messages : (bridge.serve globMatches msg).broker.messages = _ :=
      bridge.broker.messages_serve msg
    have before := relayed.relayed
    rw [List.map_append, List.map_singleton, received_concat, publication, ← before,
      ← relayed.patterns, List.append_assoc]
    exact congrArg (bridge.link.published ++ ·) messages

/-- What the device asks for is done. -/
theorem react (relayed : Relayed globMatches bridge handled) {msg : ProxyMsg}
    (accepted : (subscription (request msg)).all (bridge.broker.accepts vector) = true)
    (done : bridge.react vector globMatches msg = some next) :
    Relayed globMatches next (handled ++ [msg]) ∧ next.link = bridge.link := by
  -- A subscription of `broker`, whatever happens to the rest of the bridge.
  have subscribed {pattern : Bytes} {broker : Connection} {other : Connection} {nodeName : Bytes}
      (same : request msg = .subscribe pattern)
      (subscribed : bridge.broker.subscribe vector pattern = some broker) :
      Relayed globMatches
        { bridge with
          broker := broker
          brokerProxy := other
          nodeName := nodeName
          traffic := bridge.traffic ++ [.proxy (.subscribe pattern)] } (handled ++ [msg]) := by
    rw [same] at accepted
    obtain ⟨patterns, replies, known⟩ :=
      Connection.subscribe_of_accepts relayed.known accepted subscribed
    have messages : broker.messages = bridge.broker.messages :=
      congrArg (List.filterMap ServerReply.message) replies
    exact
      { lossless := relayed.lossless
        requests := by
          rw [List.filterMap_append, relayed.requests, List.map_append, List.map_singleton, same]
          rfl
        patterns := by
          rw [List.map_append, List.map_singleton, patternsAfter_concat, ← relayed.patterns]
          exact patterns
        known := known
        topics := fun copy member => relayed.topics copy (messages ▸ member)
        relayed := by
          rw [List.map_append, List.map_singleton, received_concat, ← relayed.relayed]
          exact (congrArg (bridge.link.published ++ ·) messages).trans
            (List.append_nil _).symm }
  cases msg with
  | publish msg =>
    cases done
    exact ⟨relayed.serve (List.count_eq_zero.mp (Redis.no_nul_of_cString msg.topic)) rfl rfl, rfl⟩
  | subscribe msg =>
    obtain ⟨broker, called, rfl⟩ := Option.map_eq_some_iff.mp done
    exact ⟨subscribed rfl called, rfl⟩
  | node msg =>
    obtain ⟨broker, called, rest⟩ := Option.bind_eq_some_iff.mp done
    obtain ⟨other, -, rfl⟩ := Option.map_eq_some_iff.mp rest
    exact ⟨subscribed rfl called, rfl⟩

/-- The messages of a step are done one after the other. -/
theorem reactAll {msgs : List ProxyMsg} : ∀ {bridge : Bridge Value} {handled : List ProxyMsg},
    Relayed globMatches bridge handled → bridge.acceptsAll vector globMatches msgs = true →
      bridge.reactAll vector globMatches msgs = some next →
        Relayed globMatches next (handled ++ msgs) ∧ next.link = bridge.link := by
  induction msgs with
  | nil =>
    intro bridge handled relayed _ done
    cases done
    exact ⟨(List.append_nil handled).symm ▸ relayed, rfl⟩
  | cons msg rest inductionHypothesis =>
    intro bridge handled relayed accepted done
    obtain ⟨middle, reacted, remaining⟩ := Option.bind_eq_some_iff.mp done
    obtain ⟨first, later⟩ := (Bool.and_eq_true _ _).mp accepted
    rw [reacted, Option.any_some] at later
    obtain ⟨kept, same⟩ := relayed.react first reacted
    obtain ⟨all, link⟩ := inductionHypothesis kept later remaining
    rw [List.append_assoc, List.singleton_append] at all
    exact ⟨all, link.trans same⟩

end Relayed

/-! ### Steps -/

section

variable {Value : Type} {tiny : Tiny Value}

variable {bridge next : Bridge Value} {label : BridgeLabel}

/-- A step of the link, with what it asks for. -/
theorem Relayed.link (relayed : Relayed globMatches bridge bridge.link.handled)
    {step : SystemLabel} (met : attentive vector globMatches tiny bridge (.link step) = true)
    (taken : bridgeStep vector globMatches tiny bridge (.link step) = some next) :
    Relayed globMatches next next.link.handled := by
  have inner : (∀ msg, step ≠ .publish msg) ∧
      ((systemStep tiny bridge.link step).bind fun link =>
        ({ bridge with link := link } : Bridge Value).reactAll vector globMatches
          (bridge.fresh link)) = some next := by
    cases step with
    | publish msg => cases taken
    | _ => exact ⟨nofun, taken⟩
  obtain ⟨link, stepped, reacted⟩ := Option.bind_eq_some_iff.mp inner.2
  obtain ⟨carefully, accepted⟩ := (Bool.and_eq_true _ _).mp met
  rw [stepped, Option.any_some] at accepted
  obtain ⟨grown, published⟩ := systemStep_histories stepped
  have moved : Relayed globMatches { bridge with link := link } bridge.link.handled :=
    { relayed with
      lossless := relayed.lossless.step carefully stepped
      relayed := by
        show link.published ++ _ = _
        rw [published inner.1]
        exact relayed.relayed }
  obtain ⟨all, same⟩ := moved.reactAll accepted reacted
  obtain ⟨new, handled⟩ := grown
  have everything : bridge.link.handled ++ bridge.fresh link = link.handled := by
    rw [Bridge.fresh, ← handled, List.drop_left]
  rw [everything, ← congrArg SerialSystem.handled same] at all
  exact all

/-- The read invoker of `broker`. -/
theorem Relayed.readable (relayed : Relayed globMatches bridge bridge.link.handled)
    (met : attentive vector globMatches tiny bridge .readable = true)
    (taken : bridgeStep vector globMatches tiny bridge .readable = some next) :
    Relayed globMatches next next.link.handled := by
  have taken : bridge.readable tiny = some next := taken
  unfold Bridge.readable at taken
  split at taken
  · cases taken
  · rename_i reply rest unread
    have messages : bridge.broker.messages =
        reply.message.toList ++ rest.filterMap ServerReply.message := by
      rw [Connection.messages, unread]
      cases read : reply.message with
      | none => exact List.filterMap_cons_none read
      | some msg => exact List.filterMap_cons_some read
    have read := Redis.readInvoker_reply reply
    rw [attentive, unread, List.head?_cons, Option.bind_some] at met
    dsimp only at taken
    split at taken
    · rename_i none
      cases taken
      rw [none] at read
      have nothing : reply.message = Option.none := Option.map_eq_none_iff.mp read.symm
      rw [nothing] at messages
      exact
        { relayed with
          topics := fun msg member => relayed.topics msg (messages ▸ member)
          relayed := (congrArg (bridge.link.published ++ ·) messages).symm.trans
            relayed.relayed }
    · rename_i msg some
      obtain ⟨link, stepped, rfl⟩ := Option.map_eq_some_iff.mp taken
      rw [some] at read met
      obtain ⟨sent, message, cut⟩ := Option.map_eq_some_iff.mp read.symm
      rw [message] at messages
      have noNul : 0 ∉ sent.topic := relayed.topics sent (messages ▸ List.mem_cons_self)
      rw [cString_of_no_nul noNul] at cut
      subst cut
      obtain ⟨items, upward, calls, underway, downward⟩ := relayed.lossless
      obtain ⟨lossless, histories⟩ := underway.publish downward met stepped
      rw [histories.2]
      exact
        { relayed with
          lossless := lossless
          topics := fun msg member => relayed.topics msg (messages ▸ List.mem_cons_of_mem _ member)
          relayed := by
            show link.published ++ _ = _
            rw [histories.1, List.append_assoc]
            exact (congrArg (bridge.link.published ++ ·) messages).symm.trans relayed.relayed }

/-- Every attentive step keeps the invariant. -/
theorem Relayed.step (relayed : Relayed globMatches bridge bridge.link.handled)
    (met : attentive vector globMatches tiny bridge label = true)
    (taken : bridgeStep vector globMatches tiny bridge label = some next) :
    Relayed globMatches next next.link.handled := by
  cases label with
  | link step => exact relayed.link met taken
  | readable => exact relayed.readable met taken
  | readableProxy =>
    have taken : bridge.readableProxy = some next := taken
    unfold Bridge.readableProxy at taken
    split at taken
    · cases taken
    · split at taken
      · cases taken
        exact { relayed with }
      · cases taken
  | client msg =>
    cases taken
    have noNul : 0 ∉ msg.topic := of_decide_eq_true met
    have publication : (Traffic.client msg).command = .publish msg := rfl
    have asked : (Traffic.client msg).ofProxy.toList = ([] : List ProxyMsg).map request := rfl
    have served := relayed.serve noNul publication asked
    rw [List.append_nil] at served
    exact served

/-- The lines, the pipe and the connection of `broker` are empty. -/
structure Bridge.Idle (bridge : Bridge Value) : Prop where
  up : bridge.link.up = []
  down : bridge.link.down = []
  pipe : bridge.link.proxy.session.pipe = []
  replies : bridge.broker.replies = []

/-- With nothing under way it has all been delivered, unless a frame was torn. -/
theorem Relayed.delivered_all {handled : List ProxyMsg}
    (relayed : Relayed globMatches bridge handled) (idle : bridge.Idle)
    (untorn : bridge.link.torn = 0) :
    bridge.link.delivered =
      received (covers globMatches) [] (bridge.traffic.map Traffic.command) := by
  have all := relayed.relayed
  rw [Connection.messages, idle.replies, List.filterMap_nil, List.append_nil] at all
  exact (relayed.lossless.delivered_all untorn idle.down idle.pipe).trans all

end

variable {Value : Type}

/-- The argument vector that the format of hiredis documents, for a text without conversions. -/
def documentedVector (format : Bytes) : Option (List Bytes) :=
  (Redis.unescape format).map Redis.words

/-- The proxy before anything happens. -/
def freshBridge : Bridge Codec.ReferenceValue where
  link := freshSystem
  broker := { subscribers := [], patterns := [], replies := [] }
  brokerProxy := { subscribers := [], patterns := [], replies := [] }
  nodeName := []
  traffic := []

theorem freshBridge_constructed :
    (bridgeMachine documentedVector (Glob.matchesText true) referenceTiny).initial
      freshBridge where
  link := freshSystem_constructed
  broker := rfl
  brokerProxy := rfl
  traffic := rfl

deriving instance DecidableEq for DeviceCall

end BrokerProxy.System
