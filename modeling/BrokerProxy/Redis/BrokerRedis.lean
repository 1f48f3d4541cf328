/-
This file models `BrokerRedis`, the broker over two Redis connections: one for
publishing and other commands, one for subscriptions, which the worker thread reads.

What hiredis and the server do is the caller's choice: how each
`redisConnectWithOptions` ends, and whether the server executes a command and its reply
arrives. A context is a connection with its number, its error state and the patterns the
server has for it; the server keeps them for as long as the connection stands. Functions
that would follow a null or freed context have no result.
-/

import Mathlib.Data.List.Basic

namespace BrokerProxy.Redis

/-- A `redisContext`: the descriptor, whether an error is set, the number of the connection
and the patterns subscribed on it. -/
structure RedisContext where
  fd : Int
  err : Bool
  serial : Nat
  subscriptions : List String
deriving DecidableEq

/-- What a pointer to a context can be. -/
inductive ContextPtr
  | unset
  | null
  | freed
  | live (context : RedisContext)
deriving DecidableEq

/-- How `redisConnectWithOptions` ends: without a context, with one whose error is set, or with
an open connection. -/
inductive ConnectOutcome
  | null
  | error (fd : Int)
  | ok (fd : Int)
deriving DecidableEq

/-- The context of a new connection. -/
def ConnectOutcome.context (serial : Nat) : ConnectOutcome → ContextPtr
  | .null => .null
  | .error fd => .live { fd := fd, err := true, serial := serial, subscriptions := [] }
  | .ok fd => .live { fd := fd, err := false, serial := serial, subscriptions := [] }

/-- How a command ends: the server executes it and a reply arrives, a reply arrives although the
server does not execute it (an error reply), or no reply arrives and the error of the context is
set, whether or not the server has executed the command. -/
inductive Exchange
  | accepted
  | refused
  | lost (executed : Bool)
deriving DecidableEq

/-- The server executes the command. -/
def Exchange.executed : Exchange → Bool
  | .accepted => true
  | .refused => false
  | .lost executed => executed

/-- A context whose error is set sends nothing. -/
def RedisContext.allows (context : RedisContext) (exchange : Exchange) : Bool :=
  !(context.err && exchange.executed)

/-- The context after a command that adds a pattern on the server or removes it. -/
def RedisContext.exchange (context : RedisContext) (change : List String → List String) :
    Exchange → RedisContext
  | .accepted => { context with subscriptions := change context.subscriptions }
  | .refused => context
  | .lost true => { context with err := true, subscriptions := change context.subscriptions }
  | .lost false => { context with err := true }

/-- The error numbers that `BrokerRedis` returns. -/
def ENOTCONN : Int := 107

def EINVAL : Int := 22

/-- The fields of `BrokerRedis`: the node and the prefixes made of it, `connected`, the two
contexts, the keys of `_subscribers`, and the descriptors for which a read invoker of this
broker is registered with the worker thread. The connections made so far are counted. -/
structure BrokerRedis where
  node : String
  srcPrefix : String
  dstPrefix : String
  connected : Bool
  subscribeContext : ContextPtr
  publishContext : ContextPtr
  subscribers : List String
  readInvokers : List Int
  connections : Nat
deriving DecidableEq

namespace BrokerRedis

/-- The constructor. -/
def constructed : BrokerRedis where
  node := ""
  srcPrefix := ""
  dstPrefix := ""
  connected := false
  subscribeContext := .unset
  publishContext := .unset
  subscribers := []
  readInvokers := []
  connections := 0

/-- `Thread::addReadInvoker`: an invoker that is already registered for the descriptor stays. -/
def addReadInvoker (broker : BrokerRedis) (fd : Int) : BrokerRedis :=
  if fd ∈ broker.readInvokers then broker
  else { broker with readInvokers := fd :: broker.readInvokers }

/-- `Thread::deleteInvoker`. -/
def deleteInvoker (broker : BrokerRedis) (fd : Int) : BrokerRedis :=
  { broker with readInvokers := broker.readInvokers.filter (· ≠ fd) }

/-- The node and the two prefixes, as `connect` sets them first. -/
def setNode (broker : BrokerRedis) (node : String) : BrokerRedis :=
  { broker with
    node := node
    dstPrefix := "dst/" ++ (node ++ "/")
    srcPrefix := "src/" ++ (node ++ "/") }

/-- `connect` of a broker that is not connected, after the node is set. -/
def openContexts (broker : BrokerRedis) (first second : ConnectOutcome) : Int × BrokerRedis :=
  let subscribing :=
    { broker with
      subscribeContext := first.context broker.connections
      connections := broker.connections + 1 }
  match first with
  | .null | .error _ => (ENOTCONN, subscribing)
  | .ok fd =>
      let reading := subscribing.addReadInvoker fd
      let publishing :=
        { reading with
          publishContext := second.context reading.connections
          connections := reading.connections + 1 }
      match second with
      | .null | .error _ => (ENOTCONN, publishing)
      | .ok _ => (0, { publishing with connected := true })

/-- `connect`. -/
def connect (broker : BrokerRedis) (node : String) (first second : ConnectOutcome) :
    Int × BrokerRedis :=
  let named := broker.setNode node
  if named.connected then (0, named) else named.openContexts first second

/-- `disconnect`. -/
def disconnect (broker : BrokerRedis) : Option BrokerRedis :=
  if ¬ broker.connected then some broker
  else
    match broker.subscribeContext, broker.publishContext with
    | .live subscribing, .live _ =>
        some
          { broker.deleteInvoker subscribing.fd with
            publishContext := .freed
            subscribeContext := .freed
            subscribers := []
            connected := false }
    | _, _ => none

/-- What follows a failure: `disconnect` and `connect` with the node the broker has. -/
def reconnect (broker : BrokerRedis) (first second : ConnectOutcome) : Option BrokerRedis :=
  broker.disconnect.map fun disconnected =>
    (disconnected.connect disconnected.node first second).2

/-- `subscribe`, which always returns zero. -/
def subscribe (broker : BrokerRedis) (pattern : String) (exchange : Exchange) :
    Option BrokerRedis :=
  if pattern ∈ broker.subscribers then some broker
  else
    match broker.subscribeContext with
    | .live context =>
        if context.allows exchange then
          let sent :=
            { broker with
              subscribeContext := .live (context.exchange (pattern :: ·) exchange) }
          match exchange with
          | .accepted | .refused => some { sent with subscribers := pattern :: sent.subscribers }
          | .lost _ => some sent
        else none
    | _ => none

/-- `unSubscribe`, which always returns zero. It passes the pattern as a string object where
hiredis reads a C string, so that whether the command names the pattern is left open; it names
no other one. -/
def unSubscribe (broker : BrokerRedis) (pattern : String) (named : Bool) (exchange : Exchange) :
    Option BrokerRedis :=
  if pattern ∉ broker.subscribers then some broker
  else
    match broker.subscribeContext with
    | .live context =>
        if context.allows exchange then
          let change := fun subscriptions =>
            if named then subscriptions.filter (· ≠ pattern) else subscriptions
          let sent :=
            { broker with subscribeContext := .live (context.exchange change exchange) }
          match exchange with
          | .accepted | .refused =>
              some { sent with subscribers := sent.subscribers.filter (· ≠ pattern) }
          | .lost _ => some sent
        else none
    | _ => none

/-- A command on the publish context: without a reply the broker reconnects and returns the given
number. -/
def exchangeOrReconnect (broker : BrokerRedis) (failure : Int) (exchange : Exchange)
    (first second : ConnectOutcome) : Option (Int × BrokerRedis) :=
  if ¬ broker.connected then some (ENOTCONN, broker)
  else
    match broker.publishContext with
    | .live context =>
        if context.allows exchange then
          match exchange with
          | .accepted | .refused => some (0, broker)
          | .lost _ => (broker.reconnect first second).map fun reconnected => (failure, reconnected)
        else none
    | _ => none

/-- `publish`, which returns zero when the command fails. -/
def publish (broker : BrokerRedis) : Exchange → ConnectOutcome → ConnectOutcome →
    Option (Int × BrokerRedis) :=
  broker.exchangeOrReconnect 0

/-- `command`. -/
def command (broker : BrokerRedis) : Exchange → ConnectOutcome → ConnectOutcome →
    Option (Int × BrokerRedis) :=
  broker.exchangeOrReconnect EINVAL

/-- `request`. -/
def request (broker : BrokerRedis) : Exchange → ConnectOutcome → ConnectOutcome →
    Option (Int × BrokerRedis) :=
  broker.exchangeOrReconnect EINVAL

/-- The read invoker that `connect` registers: it takes a reply from the current subscribe
context, and reconnects when there is none. -/
def readInvoker (broker : BrokerRedis) (replied : Bool) (first second : ConnectOutcome) :
    Option BrokerRedis :=
  match broker.subscribeContext with
  | .live _ => if replied then some broker else broker.reconnect first second
  | _ => none

/-- The handler of `_reconnectTimer`. -/
def reconnectTimer (broker : BrokerRedis) (first second : ConnectOutcome) : BrokerRedis :=
  if ¬ broker.connected then (broker.connect "" first second).2 else broker

/-! ### What the operations leave -/

variable {broker after : BrokerRedis} {exchange : Exchange} {first second : ConnectOutcome}

/-- A known pattern changes nothing, and another one is sent and, with a reply, noted. -/
theorem subscribe_cases {pattern : String} (done : broker.subscribe pattern exchange = some after) :
    (pattern ∈ broker.subscribers ∧ after = broker) ∨
      ∃ context subscribers, pattern ∉ broker.subscribers ∧
        broker.subscribeContext = .live context ∧
        (exchange = .accepted → subscribers = pattern :: broker.subscribers) ∧
        after =
          { broker with
            subscribeContext := .live (context.exchange (pattern :: ·) exchange)
            subscribers := subscribers } := by
  unfold subscribe at done
  split at done
  · rename_i known
    exact Or.inl ⟨known, (Option.some.inj done).symm⟩
  · rename_i unknown
    split at done
    · rename_i context live
      split at done
      · cases exchange with
        | accepted | refused =>
          exact Or.inr ⟨context, pattern :: broker.subscribers, unknown, live, fun _ => rfl,
            (Option.some.inj done).symm⟩
        | lost executed =>
          exact Or.inr ⟨context, broker.subscribers, unknown, live, nofun,
            (Option.some.inj done).symm⟩
      · cases done
    · cases done

/-- An unknown pattern changes nothing, and a known one is sent and, with a reply, erased. -/
theorem unSubscribe_cases {pattern : String} {named : Bool}
    (done : broker.unSubscribe pattern named exchange = some after) :
    (pattern ∉ broker.subscribers ∧ after = broker) ∨
      ∃ context subscribers, pattern ∈ broker.subscribers ∧
        broker.subscribeContext = .live context ∧
        (exchange = .accepted → subscribers = broker.subscribers.filter (· ≠ pattern)) ∧
        after =
          { broker with
            subscribeContext := .live
              (context.exchange
                (fun subscriptions =>
                  if named then subscriptions.filter (· ≠ pattern) else subscriptions) exchange)
            subscribers := subscribers } := by
  unfold unSubscribe at done
  split at done
  · rename_i unknown
    exact Or.inl ⟨unknown, (Option.some.inj done).symm⟩
  · rename_i known
    split at done
    · rename_i context live
      split at done
      · cases exchange with
        | accepted | refused =>
          exact Or.inr ⟨context, broker.subscribers.filter (· ≠ pattern), not_not.mp known, live,
            fun _ => rfl, (Option.some.inj done).symm⟩
        | lost executed =>
          exact Or.inr ⟨context, broker.subscribers, not_not.mp known, live, nofun,
            (Option.some.inj done).symm⟩
      · cases done
    · cases done

/-- A command on the publish context is refused, answered, or followed by a reconnection. -/
theorem exchangeOrReconnect_cases {failure : Int} {result : Int × BrokerRedis}
    (done : broker.exchangeOrReconnect failure exchange first second = some result) :
    (broker.connected = false ∧ result = (ENOTCONN, broker)) ∨
      (broker.connected = true ∧ (exchange = .accepted ∨ exchange = .refused) ∧
        result = (0, broker)) ∨
      ∃ executed reconnected, broker.connected = true ∧ exchange = .lost executed ∧
        broker.reconnect first second = some reconnected ∧ result = (failure, reconnected) := by
  unfold exchangeOrReconnect at done
  split at done
  · rename_i disconnected
    exact Or.inl ⟨Bool.eq_false_iff.mpr disconnected, (Option.some.inj done).symm⟩
  · rename_i connected
    refine Or.inr ?_
    split at done
    · split at done
      · cases exchange with
        | accepted =>
          exact Or.inl ⟨not_not.mp connected, Or.inl rfl, (Option.some.inj done).symm⟩
        | refused =>
          exact Or.inl ⟨not_not.mp connected, Or.inr rfl, (Option.some.inj done).symm⟩
        | lost executed =>
          obtain ⟨reconnected, again, same⟩ := Option.map_eq_some_iff.mp done
          exact Or.inr ⟨executed, reconnected, not_not.mp connected, rfl, again, same.symm⟩
      · cases done
    · cases done

/-- The read invoker takes a reply or reconnects. -/
theorem readInvoker_cases {replied : Bool}
    (done : broker.readInvoker replied first second = some after) :
    (replied = true ∧ after = broker) ∨
      (replied = false ∧ broker.reconnect first second = some after) := by
  unfold readInvoker at done
  split at done
  · cases replied with
    | true => exact Or.inl ⟨rfl, (Option.some.inj done).symm⟩
    | false => exact Or.inr ⟨rfl, done⟩
  · cases done

end BrokerRedis

end BrokerProxy.Redis
