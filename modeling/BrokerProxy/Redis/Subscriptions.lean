/-
This file follows the subscriptions of a `BrokerRedis` through its runs: calls of the
application, replies, failures, reconnections and ticks of the reconnect timer, in any
order and with any outcome of the exchanges with the server.

Beside the broker it records what the application has subscribed: the patterns whose
PSUBSCRIBE the server has executed and acknowledged, each with the connection it was
sent on, less those the application has unsubscribed since. Within one connection none
of them is ever lost. Nothing carries them over to the next connection: `disconnect`
forgets them and `connect` subscribes nothing.
-/

import BrokerProxy.Library.Runs
import BrokerProxy.Redis.BrokerRedis
import Mathlib.Order.Nat

namespace BrokerProxy.Redis

open Runs

/-- A broker, and what the application has subscribed: numbers of connections with the patterns
accepted on them and not unsubscribed since. -/
structure Session where
  broker : BrokerRedis
  accepted : List (Nat × String)

/-- What happens next, with the outcome of each exchange: a call of the application, a reply or a
failure on a descriptor with a read invoker, or a tick of the reconnect timer. -/
inductive SessionLabel
  | connect (node : String) (first second : ConnectOutcome)
  | disconnect
  | subscribe (pattern : String) (exchange : Exchange)
  | unSubscribe (pattern : String) (named : Bool) (exchange : Exchange)
  | publish (exchange : Exchange) (first second : ConnectOutcome)
  | command (exchange : Exchange) (first second : ConnectOutcome)
  | request (exchange : Exchange) (first second : ConnectOutcome)
  | readable (fd : Int) (replied : Bool) (first second : ConnectOutcome)
  | reconnectTimer (first second : ConnectOutcome)

/-- The patterns accepted after a call of `subscribe`: the pattern is added when the broker sends
the command and the server executes and acknowledges it. -/
def Session.acceptedOn (session : Session) (pattern : String) (exchange : Exchange) :
    List (Nat × String) :=
  match session.broker.subscribeContext with
  | .live context =>
      if pattern ∉ session.broker.subscribers ∧ exchange = .accepted then
        (context.serial, pattern) :: session.accepted
      else session.accepted
  | _ => session.accepted

/-- One step of a session. -/
def sessionStep (session : Session) : SessionLabel → Option Session
  | .connect node first second =>
      some { session with broker := (session.broker.connect node first second).2 }
  | .disconnect => session.broker.disconnect.map fun broker => { session with broker := broker }
  | .subscribe pattern exchange =>
      (session.broker.subscribe pattern exchange).map fun broker =>
        { broker := broker, accepted := session.acceptedOn pattern exchange }
  | .unSubscribe pattern named exchange =>
      (session.broker.unSubscribe pattern named exchange).map fun broker =>
        { broker := broker, accepted := session.accepted.filter (·.2 ≠ pattern) }
  | .publish exchange first second =>
      (session.broker.publish exchange first second).map fun result =>
        { session with broker := result.2 }
  | .command exchange first second =>
      (session.broker.command exchange first second).map fun result =>
        { session with broker := result.2 }
  | .request exchange first second =>
      (session.broker.request exchange first second).map fun result =>
        { session with broker := result.2 }
  | .readable fd replied first second =>
      if fd ∈ session.broker.readInvokers then
        (session.broker.readInvoker replied first second).map fun broker =>
          { session with broker := broker }
      else none
  | .reconnectTimer first second =>
      some { session with broker := session.broker.reconnectTimer first second }

/-- A broker and its application. -/
def sessionMachine : Machine Session SessionLabel where
  initial session := session = { broker := .constructed, accepted := [] }
  step := sessionStep

/-! ### What connecting does -/

namespace BrokerRedis

/-- The connections of a broker: none has a number that is still to come, and a connected broker
has both contexts. -/
structure Numbered (broker : BrokerRedis) : Prop where
  subscribe : ∀ context, broker.subscribeContext = .live context →
    context.serial < broker.connections
  connected : broker.connected = true → ∃ subscribing publishing,
    broker.subscribeContext = .live subscribing ∧ broker.publishContext = .live publishing

/-- A reconfiguration keeps the subscribe context, or replaces it by none or by a connection with
a new number. -/
structure Renewed (before after : BrokerRedis) : Prop where
  connections : before.connections ≤ after.connections
  context : ∀ context, after.subscribeContext = .live context →
    before.subscribeContext = .live context ∨
      (before.connections ≤ context.serial ∧ context.subscriptions = [])
  numbered : after.Numbered

theorem Renewed.trans {first second third : BrokerRedis} (earlier : Renewed first second)
    (later : Renewed second third) : Renewed first third where
  connections := earlier.connections.trans later.connections
  context context live := by
    rcases later.context context live with kept | ⟨fresh, empty⟩
    · exact earlier.context context kept
    · exact Or.inr ⟨earlier.connections.trans fresh, empty⟩
  numbered := later.numbered

theorem Renewed.refl {broker : BrokerRedis} (numbered : broker.Numbered) :
    Renewed broker broker where
  connections := le_rfl
  context _ live := Or.inl live
  numbered := numbered

/-- Only the contexts, `connected` and the count of connections matter to the connections. -/
theorem Renewed.of_eq {before after : BrokerRedis} (numbered : before.Numbered)
    (connections : after.connections = before.connections)
    (subscribe : after.subscribeContext = before.subscribeContext)
    (publish : after.publishContext = before.publishContext)
    (connected : after.connected = before.connected) : Renewed before after where
  connections := connections.ge
  context context live := Or.inl (subscribe.symm.trans live)
  numbered :=
    { subscribe := fun context live => by
        rw [connections]
        exact numbered.subscribe context (subscribe.symm.trans live)
      connected := fun isConnected => by
        rw [subscribe, publish]
        exact numbered.connected (connected.symm.trans isConnected) }

theorem serial_of_context {outcome : ConnectOutcome} {serial : Nat} {context : RedisContext}
    (live : outcome.context serial = .live context) :
    context.serial = serial ∧ context.subscriptions = [] := by
  cases outcome with
  | null => cases live
  | error fd | ok fd =>
    cases live
    exact ⟨rfl, rfl⟩

theorem openContexts_renewed (broker : BrokerRedis) (first second : ConnectOutcome)
    (disconnected : broker.connected = false) :
    Renewed broker (broker.openContexts first second).2 := by
  have fresh : ∀ {after : BrokerRedis}, broker.connections < after.connections →
      after.subscribeContext = first.context broker.connections →
      (after.connected = true → ∃ subscribing publishing,
        after.subscribeContext = .live subscribing ∧ after.publishContext = .live publishing) →
      Renewed broker after := by
    intro after counted subscribes both
    have serial : ∀ context, after.subscribeContext = .live context →
        context.serial = broker.connections ∧ context.subscriptions = [] :=
      fun context live => serial_of_context (subscribes.symm.trans live)
    exact
      { connections := counted.le
        context := fun context live =>
          Or.inr ⟨(serial context live).1.ge, (serial context live).2⟩
        numbered :=
          { subscribe := fun context live => by
              rw [(serial context live).1]
              exact counted
            connected := both } }
  have added : ∀ (broker : BrokerRedis) (fd : Int),
      broker.addReadInvoker fd =
        { broker with readInvokers := (broker.addReadInvoker fd).readInvokers } := by
    intro broker fd
    unfold addReadInvoker
    split <;> rfl
  have never {after : BrokerRedis} (same : after.connected = broker.connected) :
      after.connected = true → ∃ subscribing publishing,
        after.subscribeContext = .live subscribing ∧ after.publishContext = .live publishing :=
    fun connected => absurd (connected.symm.trans (same.trans disconnected)) (by decide)
  cases first with
  | null | error fd => exact fresh (Nat.lt_succ_self _) rfl (never rfl)
  | ok fd =>
    unfold openContexts
    dsimp only
    rw [added]
    cases second with
    | null | error fd => exact fresh (by show _ < _ + 1 + 1; omega) rfl (never rfl)
    | ok fd => exact fresh (by show _ < _ + 1 + 1; omega) rfl fun _ => ⟨_, _, rfl, rfl⟩

theorem connect_renewed {broker : BrokerRedis} (numbered : broker.Numbered) (node : String)
    (first second : ConnectOutcome) : Renewed broker (broker.connect node first second).2 := by
  have named : Renewed broker (broker.setNode node) := Renewed.of_eq numbered rfl rfl rfl rfl
  unfold connect
  dsimp only
  split
  · exact named
  · rename_i disconnected
    exact named.trans (openContexts_renewed _ first second (Bool.not_eq_true _ ▸ disconnected))

theorem disconnect_renewed {broker after : BrokerRedis} (numbered : broker.Numbered)
    (done : broker.disconnect = some after) : Renewed broker after := by
  unfold disconnect at done
  split at done
  · exact Option.some.inj done ▸ Renewed.refl numbered
  · split at done
    · rw [← Option.some.inj done]
      exact
        { connections := le_rfl
          context := nofun
          numbered := { subscribe := nofun, connected := nofun } }
    · cases done

theorem reconnect_renewed {broker after : BrokerRedis} (numbered : broker.Numbered)
    {first second : ConnectOutcome} (done : broker.reconnect first second = some after) :
    Renewed broker after := by
  obtain ⟨disconnected, apart, rfl⟩ := Option.map_eq_some_iff.mp done
  have left := disconnect_renewed numbered apart
  exact left.trans (connect_renewed left.numbered _ first second)

theorem exchangeOrReconnect_renewed {broker : BrokerRedis} (numbered : broker.Numbered)
    {failure : Int} {exchange : Exchange} {first second : ConnectOutcome}
    {result : Int × BrokerRedis}
    (done : broker.exchangeOrReconnect failure exchange first second = some result) :
    Renewed broker result.2 := by
  rcases exchangeOrReconnect_cases done with ⟨_, rfl⟩ | ⟨_, _, rfl⟩ |
    ⟨executed, reconnected, _, _, again, rfl⟩
  · exact Renewed.refl numbered
  · exact Renewed.refl numbered
  · exact reconnect_renewed numbered again

theorem readInvoker_renewed {broker after : BrokerRedis} (numbered : broker.Numbered)
    {replied : Bool} {first second : ConnectOutcome}
    (done : broker.readInvoker replied first second = some after) : Renewed broker after := by
  rcases readInvoker_cases done with ⟨_, rfl⟩ | ⟨_, again⟩
  · exact Renewed.refl numbered
  · exact reconnect_renewed numbered again

theorem reconnectTimer_renewed {broker : BrokerRedis} (numbered : broker.Numbered)
    (first second : ConnectOutcome) : Renewed broker (broker.reconnectTimer first second) := by
  unfold reconnectTimer
  split
  · exact connect_renewed numbered "" first second
  · exact Renewed.refl numbered

end BrokerRedis

/-! ### What a session keeps -/

/-- What was accepted on a connection is subscribed on it, and no accepted pattern belongs to a
connection that is still to come. -/
structure Session.Kept (session : Session) : Prop where
  numbered : session.broker.Numbered
  past : ∀ pair ∈ session.accepted, pair.1 < session.broker.connections
  current : ∀ context, session.broker.subscribeContext = .live context →
    ∀ pattern, (context.serial, pattern) ∈ session.accepted → pattern ∈ context.subscriptions

/-- A reconfiguration leaves the accepted patterns with their connections. -/
theorem Session.Kept.renewed {session : Session} (kept : session.Kept) {after : BrokerRedis}
    (renewed : session.broker.Renewed after) :
    Session.Kept { session with broker := after } where
  numbered := renewed.numbered
  past pair member := (kept.past pair member).trans_le renewed.connections
  current context live pattern member := by
    rcases renewed.context context live with same | ⟨fresh, -⟩
    · exact kept.current context same pattern member
    · exact absurd (kept.past _ member) (not_lt.mpr fresh)

theorem RedisContext.exchange_serial (context : RedisContext)
    (change : List String → List String) (exchange : Exchange) :
    (context.exchange change exchange).serial = context.serial := by
  rcases exchange with _ | _ | (_ | _) <;> rfl

/-- A command that removes at most the patterns failing a test keeps the others. -/
theorem RedisContext.mem_exchange {context : RedisContext} {change : List String → List String}
    {pattern : String} (keeps : pattern ∈ context.subscriptions →
      pattern ∈ change context.subscriptions) (exchange : Exchange)
    (member : pattern ∈ context.subscriptions) :
    pattern ∈ (context.exchange change exchange).subscriptions := by
  rcases exchange with _ | _ | (_ | _)
  · exact keeps member
  · exact member
  · exact member
  · exact keeps member

/-- A command on the current connection: what stays accepted stays subscribed. -/
theorem Session.Kept.exchanged {session : Session} (kept : session.Kept) {context : RedisContext}
    (live : session.broker.subscribeContext = .live context) {after : BrokerRedis}
    {accepted : List (Nat × String)} {subscribing : RedisContext}
    (subscribes : after.subscribeContext = .live subscribing)
    (serial : subscribing.serial = context.serial)
    (publishes : after.publishContext = session.broker.publishContext)
    (connected : after.connected = session.broker.connected)
    (connections : after.connections = session.broker.connections)
    (own : ∀ pair ∈ accepted, pair ∈ session.accepted ∨ pair.1 = context.serial)
    (subscribed : ∀ pattern, (context.serial, pattern) ∈ accepted →
      pattern ∈ subscribing.subscriptions) :
    Session.Kept { broker := after, accepted := accepted } where
  numbered :=
    { subscribe := fun current now => by
        rw [subscribes] at now
        cases now
        rw [serial, connections]
        exact kept.numbered.subscribe context live
      connected := fun isConnected => by
        obtain ⟨_, publishing, -, publish⟩ :=
          kept.numbered.connected (connected.symm.trans isConnected)
        exact ⟨_, publishing, subscribes, publishes.trans publish⟩ }
  past pair member := by
    rw [connections]
    rcases own pair member with old | same
    · exact kept.past pair old
    · rw [same]
      exact kept.numbered.subscribe context live
  current current now pattern member := by
    rw [subscribes] at now
    cases now
    rw [serial] at member
    exact subscribed pattern member

/-- A call of `subscribe` keeps what was accepted and adds what is accepted now. -/
theorem Session.Kept.subscribe {session : Session} (kept : session.Kept) {pattern : String}
    {exchange : Exchange} {after : BrokerRedis}
    (done : session.broker.subscribe pattern exchange = some after) :
    Session.Kept { broker := after, accepted := session.acceptedOn pattern exchange } := by
  rcases BrokerRedis.subscribe_cases done with ⟨known, rfl⟩ |
    ⟨context, subscribers, unknown, live, _, rfl⟩
  · have same : session.acceptedOn pattern exchange = session.accepted := by
      unfold Session.acceptedOn
      split
      · exact if_neg fun new => new.1 known
      · rfl
    rw [same]
    exact kept
  · have added : session.acceptedOn pattern exchange =
        if exchange = .accepted then (context.serial, pattern) :: session.accepted
        else session.accepted := by
      simp only [Session.acceptedOn, live, unknown, not_false_eq_true, true_and]
    refine kept.exchanged live rfl (context.exchange_serial _ exchange) rfl rfl rfl ?_ ?_
    · intro pair member
      rw [added] at member
      split at member
      · rcases List.mem_cons.mp member with rfl | old
        · exact Or.inr rfl
        · exact Or.inl old
      · exact Or.inl member
    · intro other member
      have earlier (old : (context.serial, other) ∈ session.accepted) :
          other ∈ (context.exchange (pattern :: ·) exchange).subscriptions :=
        RedisContext.mem_exchange (fun known => List.mem_cons_of_mem _ known) exchange
          (kept.current context live other old)
      rw [added] at member
      split at member
      · rename_i accepted
        rcases List.mem_cons.mp member with new | old
        · rw [accepted, (Prod.mk.inj new).2]
          exact List.mem_cons_self
        · exact earlier old
      · exact earlier member

/-- A call of `unSubscribe` keeps every other pattern. -/
theorem Session.Kept.unSubscribe {session : Session} (kept : session.Kept) {pattern : String}
    {named : Bool} {exchange : Exchange} {after : BrokerRedis}
    (done : session.broker.unSubscribe pattern named exchange = some after) :
    Session.Kept
      { broker := after, accepted := session.accepted.filter (·.2 ≠ pattern) } := by
  have remaining : ∀ pair ∈ session.accepted.filter (·.2 ≠ pattern),
      pair ∈ session.accepted ∧ pair.2 ≠ pattern := by
    intro pair member
    obtain ⟨old, different⟩ := List.mem_filter.mp member
    exact ⟨old, of_decide_eq_true different⟩
  rcases BrokerRedis.unSubscribe_cases done with ⟨_, rfl⟩ |
    ⟨context, subscribers, _, live, _, rfl⟩
  · exact
      { numbered := kept.numbered
        past := fun pair member => kept.past pair (remaining pair member).1
        current := fun context live other member =>
          kept.current context live other (remaining _ member).1 }
  · have keeps : ∀ other ≠ pattern, ∀ subscriptions : List String, other ∈ subscriptions →
        other ∈ if named then subscriptions.filter (· ≠ pattern) else subscriptions := by
      intro other different subscriptions member
      split
      · exact List.mem_filter.mpr ⟨member, decide_eq_true different⟩
      · exact member
    refine kept.exchanged live rfl (context.exchange_serial _ exchange) rfl rfl rfl
      (fun pair member => Or.inl (remaining pair member).1) ?_
    intro other member
    obtain ⟨old, different⟩ := remaining _ member
    exact RedisContext.mem_exchange (keeps other different _) exchange
      (kept.current context live other old)

/-- Every step keeps the accepted patterns with their connections. -/
theorem Session.Kept.step {session next : Session} (kept : session.Kept) {label : SessionLabel}
    (taken : sessionStep session label = some next) : next.Kept := by
  cases label with
  | connect node first second =>
    exact Option.some.inj taken ▸
      kept.renewed (BrokerRedis.connect_renewed kept.numbered node first second)
  | disconnect =>
    obtain ⟨after, done, rfl⟩ := Option.map_eq_some_iff.mp taken
    exact kept.renewed (BrokerRedis.disconnect_renewed kept.numbered done)
  | subscribe pattern exchange =>
    obtain ⟨after, done, rfl⟩ := Option.map_eq_some_iff.mp taken
    exact kept.subscribe done
  | unSubscribe pattern named exchange =>
    obtain ⟨after, done, rfl⟩ := Option.map_eq_some_iff.mp taken
    exact kept.unSubscribe done
  | publish exchange first second | command exchange first second
  | request exchange first second =>
    obtain ⟨result, done, rfl⟩ := Option.map_eq_some_iff.mp taken
    exact kept.renewed (BrokerRedis.exchangeOrReconnect_renewed kept.numbered done)
  | readable fd replied first second =>
    simp only [sessionStep] at taken
    split at taken
    · obtain ⟨after, done, rfl⟩ := Option.map_eq_some_iff.mp taken
      exact kept.renewed (BrokerRedis.readInvoker_renewed kept.numbered done)
    · cases taken
  | reconnectTimer first second =>
    exact Option.some.inj taken ▸
      kept.renewed (BrokerRedis.reconnectTimer_renewed kept.numbered first second)

end BrokerProxy.Redis
