/-
This file follows what a `BrokerRedis` has noted as subscribed. `subscribe` sends nothing
for a pattern in `_subscribers`, so everything depends on whether the patterns noted there
are subscribed on the connection that the broker has now.

They are, as long as patterns are only noted while the broker is connected and for an
acknowledgement: then `disconnect` forgets them before each new connection, and asking
again for a pattern brings it back. The handlers of the proxy do not look at `connected`,
and a reply with an error counts as an acknowledgement. A pattern that is noted but not
subscribed stays so, however often it is asked for.
-/

import BrokerProxy.Redis.Reconnection

namespace BrokerProxy.Redis

open Runs

/-! ### What is noted -/

/-- The patterns that are noted are subscribed on the current connection, and a broker that is not
connected has noted none. -/
structure BrokerRedis.Noted (broker : BrokerRedis) : Prop where
  subscribed : ∀ pattern ∈ broker.subscribers, ∃ context,
    broker.subscribeContext = .live context ∧ pattern ∈ context.subscriptions
  empty : broker.connected = false → broker.subscribers = []

namespace BrokerRedis

variable {broker after : BrokerRedis} {first second : ConnectOutcome}

/-- A broker that has noted nothing. -/
theorem noted_of_empty (nothing : broker.subscribers = []) : broker.Noted where
  subscribed _ member := absurd (nothing ▸ member) List.not_mem_nil
  empty _ := nothing

theorem openContexts_subscribers (broker : BrokerRedis) (first second : ConnectOutcome) :
    (broker.openContexts first second).2.subscribers = broker.subscribers := by
  have added : ∀ (broker : BrokerRedis) (fd : Int),
      (broker.addReadInvoker fd).subscribers = broker.subscribers := by
    intro broker fd
    unfold addReadInvoker
    split <;> rfl
  cases first with
  | null | error fd => rfl
  | ok fd => cases second <;> exact added _ fd

/-- `connect` notes nothing, and does not replace the connection of a connected broker. -/
theorem Noted.connect (noted : broker.Noted) (node : String) (first second : ConnectOutcome) :
    (broker.connect node first second).2.Noted := by
  unfold BrokerRedis.connect
  dsimp only
  split
  · exact ⟨noted.subscribed, noted.empty⟩
  · rename_i disconnected
    refine noted_of_empty ((openContexts_subscribers _ first second).trans ?_)
    exact noted.empty (Bool.eq_false_iff.mpr disconnected)

/-- `disconnect` forgets everything. -/
theorem Noted.disconnect (noted : broker.Noted) (done : broker.disconnect = some after) :
    after.Noted := by
  unfold BrokerRedis.disconnect at done
  split at done
  · exact Option.some.inj done ▸ noted
  · split at done
    · exact Option.some.inj done ▸ noted_of_empty rfl
    · cases done

theorem Noted.reconnect (noted : broker.Noted)
    (done : broker.reconnect first second = some after) : after.Noted := by
  obtain ⟨disconnected, apart, rfl⟩ := Option.map_eq_some_iff.mp done
  exact (noted.disconnect apart).connect _ first second

theorem Noted.exchangeOrReconnect (noted : broker.Noted) {failure : Int} {exchange : Exchange}
    {result : Int × BrokerRedis}
    (done : broker.exchangeOrReconnect failure exchange first second = some result) :
    result.2.Noted := by
  rcases exchangeOrReconnect_cases done with ⟨_, rfl⟩ | ⟨_, _, rfl⟩ |
    ⟨executed, reconnected, _, _, again, rfl⟩
  · exact noted
  · exact noted
  · exact noted.reconnect again

theorem Noted.readInvoker (noted : broker.Noted) {replied : Bool}
    (done : broker.readInvoker replied first second = some after) : after.Noted := by
  rcases readInvoker_cases done with ⟨_, rfl⟩ | ⟨_, again⟩
  · exact noted
  · exact noted.reconnect again

/-- What `subscribe` leaves for an unknown pattern: the server's patterns as the exchange ends, and
the pattern noted unless no reply came. -/
theorem subscribe_unknown {pattern : String} {exchange : Exchange}
    (unknown : pattern ∉ broker.subscribers)
    (done : broker.subscribe pattern exchange = some after) :
    ∃ context, broker.subscribeContext = .live context ∧
      after =
        { broker with
          subscribeContext := .live (context.exchange (pattern :: ·) exchange)
          subscribers :=
            if exchange.isLost then broker.subscribers else pattern :: broker.subscribers } := by
  rw [BrokerRedis.subscribe, if_neg unknown] at done
  split at done
  · rename_i context live
    refine ⟨context, live, ?_⟩
    split at done
    · cases exchange <;> exact (Option.some.inj done).symm
    · cases done
  · cases done

/-- What `unSubscribe` leaves for a known pattern. -/
theorem unSubscribe_known {pattern : String} {named : Bool} {exchange : Exchange}
    (known : pattern ∈ broker.subscribers)
    (done : broker.unSubscribe pattern named exchange = some after) :
    ∃ context, broker.subscribeContext = .live context ∧
      after =
        { broker with
          subscribeContext := .live
            (context.exchange
              (fun subscriptions =>
                if named then subscriptions.filter (· ≠ pattern) else subscriptions) exchange)
          subscribers :=
            if exchange.isLost then broker.subscribers
            else broker.subscribers.filter (· ≠ pattern) } := by
  rw [BrokerRedis.unSubscribe, if_neg (not_not.mpr known)] at done
  split at done
  · rename_i context live
    refine ⟨context, live, ?_⟩
    split at done
    · cases exchange <;> exact (Option.some.inj done).symm
    · cases done
  · cases done

/-- A pattern that is noted by a connected broker when the server accepts it is subscribed. -/
theorem Noted.subscribe (noted : broker.Noted) {pattern : String} {exchange : Exchange}
    (met : pattern ∈ broker.subscribers ∨ exchange.isLost = true ∨
      broker.connected = true ∧ exchange = .accepted)
    (done : broker.subscribe pattern exchange = some after) : after.Noted := by
  by_cases known : pattern ∈ broker.subscribers
  · rw [BrokerRedis.subscribe, if_pos known, Option.some_inj] at done
    exact done ▸ noted
  · obtain ⟨context, live, rfl⟩ := subscribe_unknown known done
    have kept : ∀ other ∈ broker.subscribers,
        other ∈ (context.exchange (pattern :: ·) exchange).subscriptions := by
      intro other member
      obtain ⟨same, isLive, subscribed⟩ := noted.subscribed other member
      cases live.symm.trans isLive
      exact RedisContext.mem_exchange (List.mem_cons_of_mem _) exchange subscribed
    rcases met.resolve_left known with lost | ⟨connected, rfl⟩
    · rw [if_pos lost]
      exact ⟨fun other member => ⟨_, rfl, kept other member⟩, noted.empty⟩
    · refine ⟨fun other member => ⟨_, rfl, ?_⟩, fun disconnected => ?_⟩
      · rcases List.mem_cons.mp member with rfl | old
        · exact List.mem_cons_self
        · exact kept other old
      · exact absurd (connected.symm.trans disconnected) (by decide)

/-- What is still noted after `unSubscribe` is still subscribed. -/
theorem Noted.unSubscribe (noted : broker.Noted) {pattern : String} {named : Bool}
    {exchange : Exchange}
    (met : pattern ∉ broker.subscribers ∨ ¬ (named = true ∧ exchange = .lost true))
    (done : broker.unSubscribe pattern named exchange = some after) : after.Noted := by
  by_cases known : pattern ∈ broker.subscribers
  · obtain ⟨context, live, rfl⟩ := unSubscribe_known known done
    have others : ∀ other ∈ broker.subscribers, other ≠ pattern →
        other ∈ (context.exchange (fun subscriptions =>
          if named then subscriptions.filter (· ≠ pattern) else subscriptions)
            exchange).subscriptions := by
      intro other member different
      obtain ⟨same, isLive, subscribed⟩ := noted.subscribed other member
      cases live.symm.trans isLive
      refine RedisContext.mem_exchange (fun before => ?_) exchange subscribed
      split
      · exact List.mem_filter.mpr ⟨before, decide_eq_true different⟩
      · exact before
    refine ⟨fun other member => ⟨_, rfl, ?_⟩, fun disconnected => ?_⟩
    · by_cases different : other = pattern
      · -- The pattern itself is still noted only where no reply came, and then nothing was removed
        -- by name.
        subst different
        obtain ⟨same, isLive, subscribed⟩ := noted.subscribed other known
        cases live.symm.trans isLive
        cases exchange with
        | accepted | refused =>
          exact absurd rfl (of_decide_eq_true (List.mem_filter.mp member).2)
        | lost executed =>
          cases executed with
          | false => exact subscribed
          | true =>
            have unnamed : named = false := by
              cases named with
              | false => rfl
              | true => exact absurd ⟨rfl, rfl⟩ (met.resolve_left (not_not.mpr known))
            rw [unnamed]
            exact subscribed
      · refine others other ?_ different
        cases exchange with
        | accepted | refused => exact (List.mem_filter.mp member).1
        | lost executed => exact member
    · have nothing := noted.empty disconnected
      exact absurd (nothing ▸ known) List.not_mem_nil
  · rw [BrokerRedis.unSubscribe, if_pos known, Option.some_inj] at done
    exact done ▸ noted

end BrokerRedis

/-! ### Runs -/

/-- A connected broker has noted a pattern that is not subscribed on its connection. -/
def BrokerRedis.Deaf (broker : BrokerRedis) (pattern : String) : Prop :=
  broker.connected = true ∧ pattern ∈ broker.subscribers ∧
    ∃ context, broker.subscribeContext = .live context ∧ pattern ∉ context.subscriptions

/-- The steps that neither start with `disconnect` nor unsubscribe the pattern. -/
def unbroken (pattern : String) (_ : Session) (label : SessionLabel) : Bool :=
  !label.disconnects &&
    match label with
    | .unSubscribe other _ _ => other ≠ pattern
    | _ => true

theorem RedisContext.mem_of_exchange {context : RedisContext}
    {change : List String → List String} {exchange : Exchange} {pattern : String}
    (member : pattern ∈ (context.exchange change exchange).subscriptions) :
    pattern ∈ context.subscriptions ∨ pattern ∈ change context.subscriptions := by
  rcases exchange with _ | _ | (_ | _)
  · exact Or.inr member
  · exact Or.inl member
  · exact Or.inl member
  · exact Or.inr member

namespace BrokerRedis

variable {broker after : BrokerRedis} {pattern : String}

/-- A command for another pattern. -/
theorem Deaf.exchanged (deaf : broker.Deaf pattern) {context : RedisContext}
    (live : broker.subscribeContext = .live context) {change : List String → List String}
    (apart : pattern ∈ change context.subscriptions → pattern ∈ context.subscriptions)
    (exchange : Exchange) {subscribers : List String} (known : pattern ∈ subscribers) :
    { broker with
      subscribeContext := .live (context.exchange change exchange)
      subscribers := subscribers }.Deaf pattern := by
  obtain ⟨connected, -, same, isLive, missing⟩ := deaf
  cases live.symm.trans isLive
  refine ⟨connected, known, _, rfl, fun member => missing ?_⟩
  exact (RedisContext.mem_of_exchange member).elim id apart

theorem Deaf.subscribe (deaf : broker.Deaf pattern) {other : String} {exchange : Exchange}
    (done : broker.subscribe other exchange = some after) : after.Deaf pattern := by
  by_cases old : other ∈ broker.subscribers
  · rw [BrokerRedis.subscribe, if_pos old, Option.some_inj] at done
    exact done ▸ deaf
  · obtain ⟨context, live, rfl⟩ := subscribe_unknown old done
    have different : pattern ≠ other := fun same => old (same ▸ deaf.2.1)
    refine deaf.exchanged live (fun member => ?_) exchange ?_
    · exact (List.mem_cons.mp member).resolve_left different
    · split
      · exact deaf.2.1
      · exact List.mem_cons_of_mem _ deaf.2.1

theorem Deaf.unSubscribe (deaf : broker.Deaf pattern) {other : String} (different : other ≠ pattern)
    {named : Bool} {exchange : Exchange}
    (done : broker.unSubscribe other named exchange = some after) : after.Deaf pattern := by
  by_cases old : other ∈ broker.subscribers
  · obtain ⟨context, live, rfl⟩ := unSubscribe_known old done
    refine deaf.exchanged live (fun member => ?_) exchange ?_
    · split at member
      · exact (List.mem_filter.mp member).1
      · exact member
    · split
      · exact deaf.2.1
      · exact List.mem_filter.mpr ⟨deaf.2.1, decide_eq_true different.symm⟩
  · rw [BrokerRedis.unSubscribe, if_pos old, Option.some_inj] at done
    exact done ▸ deaf

theorem Deaf.exchangeOrReconnect (deaf : broker.Deaf pattern) {failure : Int} {exchange : Exchange}
    (answered : exchange.isLost = false) {first second : ConnectOutcome}
    {result : Int × BrokerRedis}
    (done : broker.exchangeOrReconnect failure exchange first second = some result) :
    result.2.Deaf pattern := by
  rcases exchangeOrReconnect_cases done with ⟨_, rfl⟩ | ⟨_, _, rfl⟩ |
    ⟨executed, reconnected, _, rfl, _, rfl⟩
  · exact deaf
  · exact deaf
  · cases answered

end BrokerRedis

end BrokerProxy.Redis
