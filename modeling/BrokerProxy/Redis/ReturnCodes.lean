/-
This file compares what the five operations of a `BrokerRedis` return with what the server has
done: `publish`, `subscribe`, `unSubscribe`, `command` and `request`, in every run and for
every end of the exchange.

A reply is taken for success whatever it says, `subscribe` and `unSubscribe` return 0 in any
case, and `publish` returns 0 where `command` and `request` return `EINVAL`. And a connection
attempt of a broker that was left half connected forgets no subscriber, although the server
starts the new connection without patterns.
-/

import BrokerProxy.Redis.Reconnection

namespace BrokerProxy.Redis

open Runs

/-! ### What is returned and what was done -/

/-- The patterns that the server has for the subscribe context. -/
def BrokerRedis.subscribed (broker : BrokerRedis) : List String :=
  match broker.subscribeContext with
  | .live context => context.subscriptions
  | _ => []

/-- `_subscribers` names the patterns that the server has. -/
def BrokerRedis.Consistent (broker : BrokerRedis) : Prop :=
  ∀ pattern, pattern ∈ broker.subscribers ↔ pattern ∈ broker.subscribed

namespace BrokerRedis

theorem subscribed_of_live {broker : BrokerRedis} {context : RedisContext}
    (live : broker.subscribeContext = .live context) :
    broker.subscribed = context.subscriptions := by
  unfold subscribed
  rw [live]

/-- Only the subscribe context and `_subscribers` matter. -/
theorem Consistent.of_eq {before after : BrokerRedis} (consistent : before.Consistent)
    (subscribers : after.subscribers = before.subscribers)
    (context : after.subscribeContext = before.subscribeContext) : after.Consistent := by
  unfold Consistent subscribed
  rw [subscribers, context]
  exact consistent

/-- A connection attempt that starts without subscribers, or finds the broker connected. -/
theorem Consistent.connect {broker : BrokerRedis} (consistent : broker.Consistent)
    (node : String) (first second : ConnectOutcome)
    (empty : broker.connected = true ∨ broker.subscribers = []) :
    (broker.connect node first second).2.Consistent := by
  unfold BrokerRedis.connect
  dsimp only
  split
  · exact consistent.of_eq rfl rfl
  · rename_i disconnected
    have none : broker.subscribers = [] := empty.resolve_left disconnected
    have fresh : ∀ after : BrokerRedis, after.subscribers = broker.subscribers →
        after.subscribeContext = first.context broker.connections → after.Consistent := by
      intro after subscribers context pattern
      have nothing : after.subscribed = [] := by
        unfold subscribed
        rw [context]
        cases first with
        | null | error fd | ok fd => rfl
      rw [subscribers, none, nothing]
    have added : ∀ (broker : BrokerRedis) (fd : Int),
        (broker.addReadInvoker fd).subscribers = broker.subscribers ∧
          (broker.addReadInvoker fd).subscribeContext = broker.subscribeContext := by
      intro broker fd
      unfold addReadInvoker
      split
      · exact ⟨rfl, rfl⟩
      · exact ⟨rfl, rfl⟩
    unfold openContexts
    dsimp only
    cases first with
    | null | error fd => exact fresh _ rfl rfl
    | ok fd =>
      cases second with
      | null | error other | ok other => exact fresh _ (added _ fd).1 (added _ fd).2

/-- `disconnect` leaves no subscriber where it does something. -/
theorem Consistent.disconnect {broker after : BrokerRedis} (consistent : broker.Consistent)
    (done : broker.disconnect = some after) :
    after.Consistent ∧ (broker.connected = true → after.subscribers = []) := by
  unfold BrokerRedis.disconnect at done
  split at done
  · rename_i disconnected
    cases done
    exact ⟨consistent, fun connected => absurd connected disconnected⟩
  · split at done
    · cases done
      exact ⟨fun _ => Iff.rfl, fun _ => rfl⟩
    · cases done

theorem Consistent.reconnect {broker after : BrokerRedis} (consistent : broker.Consistent)
    {first second : ConnectOutcome} (done : broker.reconnect first second = some after)
    (empty : broker.connected = true ∨ broker.subscribers = []) : after.Consistent := by
  obtain ⟨disconnected, apart, rfl⟩ := Option.map_eq_some_iff.mp done
  obtain ⟨left, cleared⟩ := consistent.disconnect apart
  refine left.connect _ first second (Or.inr ?_)
  rcases empty with connected | none
  · exact cleared connected
  · cases connected : broker.connected with
    | true => exact cleared connected
    | false =>
      have same : broker.disconnect = some broker := if_pos (by rw [connected]; decide)
      rw [same] at apart
      cases apart
      exact none

/-- A command on the publish context: without a reply the broker starts afresh. -/
theorem Consistent.exchangeOrReconnect {broker : BrokerRedis} (consistent : broker.Consistent)
    {failure : Int} {exchange : Exchange} {first second : ConnectOutcome}
    {result : Int × BrokerRedis}
    (done : broker.exchangeOrReconnect failure exchange first second = some result) :
    result.2.Consistent := by
  rcases exchangeOrReconnect_cases done with ⟨_, rfl⟩ | ⟨_, _, rfl⟩ |
    ⟨executed, reconnected, connected, _, again, rfl⟩
  · exact consistent
  · exact consistent
  · exact consistent.reconnect again (Or.inl connected)

/-- A PSUBSCRIBE that is accepted adds its pattern on both sides. -/
theorem Consistent.subscribe {broker after : BrokerRedis} (consistent : broker.Consistent)
    {pattern : String} {exchange : Exchange}
    (done : broker.subscribe pattern exchange = some after)
    (accepted : pattern ∈ broker.subscribers ∨ exchange = .accepted) : after.Consistent := by
  rcases subscribe_cases done with ⟨_, rfl⟩ | ⟨context, subscribers, unknown, live, noted, rfl⟩
  · exact consistent
  · obtain rfl := accepted.resolve_left unknown
    obtain rfl := noted rfl
    intro other
    have before := consistent other
    rw [subscribed_of_live live] at before
    show other ∈ pattern :: broker.subscribers ↔ other ∈ pattern :: context.subscriptions
    rw [List.mem_cons, List.mem_cons, before]

/-- A PUNSUBSCRIBE that names its pattern and is accepted removes it on both sides. -/
theorem Consistent.unSubscribe {broker after : BrokerRedis} (consistent : broker.Consistent)
    {pattern : String} {named : Bool} {exchange : Exchange}
    (done : broker.unSubscribe pattern named exchange = some after)
    (accepted : pattern ∉ broker.subscribers ∨ (named = true ∧ exchange = .accepted)) :
    after.Consistent := by
  rcases unSubscribe_cases done with ⟨_, rfl⟩ | ⟨context, subscribers, known, live, erased, rfl⟩
  · exact consistent
  · obtain ⟨rfl, rfl⟩ := accepted.resolve_left (not_not.mpr known)
    obtain rfl := erased rfl
    intro other
    have before := consistent other
    rw [subscribed_of_live live] at before
    show other ∈ broker.subscribers.filter (· ≠ pattern) ↔
      other ∈ context.subscriptions.filter (· ≠ pattern)
    rw [List.mem_filter, List.mem_filter, before]

end BrokerRedis

end BrokerProxy.Redis
