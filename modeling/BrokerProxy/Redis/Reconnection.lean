/-
This file follows `connect` of a `BrokerRedis` through its three callers: the application,
the reconnection after a failure, and the reconnect timer.

`connect` first sets the node, and with it the prefixes of every topic; the timer calls it
with an empty node. It then acquires a subscribe context, a read invoker and a publish
context, and returns at the first that fails, without giving back what it has acquired. So
the prefixes are stable as long as the timer finds the broker connected, and the read
invoker belongs to the current connection as long as no second connection fails after a
first.
-/

import BrokerProxy.Redis.Subscriptions

namespace BrokerProxy.Redis

open Runs

/-! ### The calls of `connect` -/

/-- A call of `connect`: the broker it is made on, the node, and how the two connections end. -/
structure ConnectCall where
  broker : BrokerRedis
  node : String
  first : ConnectOutcome
  second : ConnectOutcome

/-- What the call returns and leaves. -/
def ConnectCall.result (call : ConnectCall) : Int × BrokerRedis :=
  call.broker.connect call.node call.first call.second

/-- The call that follows a failure. -/
def BrokerRedis.retryCall (broker : BrokerRedis) (first second : ConnectOutcome) :
    Option ConnectCall :=
  broker.disconnect.map fun disconnected =>
    { broker := disconnected, node := disconnected.node, first := first, second := second }

/-- The call that a command on the publish context leads to. -/
def BrokerRedis.exchangeCall (broker : BrokerRedis) (exchange : Exchange)
    (first second : ConnectOutcome) : Option ConnectCall :=
  match exchange with
  | .accepted | .refused => none
  | .lost _ => if broker.connected then broker.retryCall first second else none

/-- There is no reply to the command. -/
def Exchange.isLost : Exchange → Bool
  | .lost _ => true
  | .accepted | .refused => false

/-- The step starts with `disconnect`, where the broker is connected. -/
def SessionLabel.disconnects : SessionLabel → Bool
  | .disconnect => true
  | .publish exchange _ _ | .command exchange _ _ | .request exchange _ _ => exchange.isLost
  | .readable _ replied _ _ => !replied
  | .connect _ _ _ | .subscribe _ _ | .unSubscribe _ _ _ | .reconnectTimer _ _ => false

/-- The call of `connect` that is made in a step, if one is. -/
def connectCall (session : Session) : SessionLabel → Option ConnectCall
  | .connect node first second =>
      some { broker := session.broker, node := node, first := first, second := second }
  | .disconnect | .subscribe _ _ | .unSubscribe _ _ _ => none
  | .publish exchange first second | .command exchange first second
  | .request exchange first second => session.broker.exchangeCall exchange first second
  | .readable _ replied first second =>
      if replied then none else session.broker.retryCall first second
  | .reconnectTimer first second =>
      if session.broker.connected then none
      else some { broker := session.broker, node := "", first := first, second := second }

/-- What no other call changes: the node and the prefixes, whether the broker is connected, its
read invokers, and the descriptor of the subscribe context. -/
structure BrokerRedis.Quiet (before after : BrokerRedis) : Prop where
  node : after.node = before.node
  srcPrefix : after.srcPrefix = before.srcPrefix
  dstPrefix : after.dstPrefix = before.dstPrefix
  connected : after.connected = before.connected
  readInvokers : after.readInvokers = before.readInvokers
  descriptor : ∀ context, before.subscribeContext = .live context →
    ∃ same, after.subscribeContext = .live same ∧ same.fd = context.fd

theorem RedisContext.exchange_fd (context : RedisContext) (change : List String → List String)
    (exchange : Exchange) : (context.exchange change exchange).fd = context.fd := by
  rcases exchange with _ | _ | (_ | _) <;> rfl

namespace BrokerRedis

theorem Quiet.refl (broker : BrokerRedis) : broker.Quiet broker where
  node := rfl
  srcPrefix := rfl
  dstPrefix := rfl
  connected := rfl
  readInvokers := rfl
  descriptor context live := ⟨context, live, rfl⟩

/-- A command on the subscribe context is quiet, whatever it does to the patterns. -/
theorem Quiet.exchanged {broker : BrokerRedis} {context : RedisContext}
    (live : broker.subscribeContext = .live context) (change : List String → List String)
    (exchange : Exchange) (subscribers : List String) :
    broker.Quiet
      { broker with
        subscribeContext := .live (context.exchange change exchange)
        subscribers := subscribers } where
  node := rfl
  srcPrefix := rfl
  dstPrefix := rfl
  connected := rfl
  readInvokers := rfl
  descriptor current now := by
    rw [live] at now
    cases now
    exact ⟨_, rfl, context.exchange_fd change exchange⟩

theorem subscribe_quiet {broker after : BrokerRedis} {pattern : String} {exchange : Exchange}
    (done : broker.subscribe pattern exchange = some after) : broker.Quiet after := by
  rcases subscribe_cases done with ⟨_, rfl⟩ | ⟨context, subscribers, _, live, _, rfl⟩
  · exact Quiet.refl after
  · exact Quiet.exchanged live _ exchange subscribers

theorem unSubscribe_quiet {broker after : BrokerRedis} {pattern : String} {named : Bool}
    {exchange : Exchange} (done : broker.unSubscribe pattern named exchange = some after) :
    broker.Quiet after := by
  rcases unSubscribe_cases done with ⟨_, rfl⟩ | ⟨context, subscribers, _, live, _, rfl⟩
  · exact Quiet.refl after
  · exact Quiet.exchanged live _ exchange subscribers

/-- A failure is followed by a call of `connect`. -/
theorem reconnect_call {broker after : BrokerRedis} {first second : ConnectOutcome}
    (done : broker.reconnect first second = some after) :
    ∃ call, broker.retryCall first second = some call ∧ after = call.result.2 := by
  obtain ⟨disconnected, apart, rfl⟩ := Option.map_eq_some_iff.mp done
  exact ⟨_, by rw [retryCall, apart, Option.map_some], rfl⟩

/-- A command either leaves the broker alone or is followed by a call of `connect`. -/
theorem exchangeOrReconnect_call {broker : BrokerRedis} {failure : Int} {exchange : Exchange}
    {first second : ConnectOutcome} {result : Int × BrokerRedis}
    (done : broker.exchangeOrReconnect failure exchange first second = some result) :
    (∃ call, broker.exchangeCall exchange first second = some call ∧ result.2 = call.result.2) ∨
      (broker.exchangeCall exchange first second = none ∧ result.2 = broker ∧
        (broker.connected = true → exchange.isLost = false)) := by
  rcases exchangeOrReconnect_cases done with ⟨disconnected, rfl⟩ | ⟨_, answered, rfl⟩ |
    ⟨executed, reconnected, connected, rfl, again, rfl⟩
  · have disconnected : ¬ broker.connected = true := Bool.eq_false_iff.mp disconnected
    refine Or.inr ⟨?_, rfl, fun connected => absurd connected disconnected⟩
    cases exchange with
    | accepted | refused => rfl
    | lost executed => exact if_neg disconnected
  · rcases answered with rfl | rfl
    · exact Or.inr ⟨rfl, rfl, fun _ => rfl⟩
    · exact Or.inr ⟨rfl, rfl, fun _ => rfl⟩
  · obtain ⟨call, called, same⟩ := reconnect_call again
    exact Or.inl ⟨call, (if_pos connected).trans called, same⟩

end BrokerRedis

/-- What a step does to the broker: it ends with a call of `connect`, or it makes none, and then it
disconnects or is quiet. -/
theorem sessionStep_broker {session next : Session} {label : SessionLabel}
    (taken : sessionStep session label = some next) :
    (∃ call, connectCall session label = some call ∧ next.broker = call.result.2) ∨
      (connectCall session label = none ∧
        ((label = .disconnect ∧ session.broker.disconnect = some next.broker) ∨
          (session.broker.Quiet next.broker ∧
            (session.broker.connected = true → label.disconnects = false)))) := by
  cases label with
  | connect node first second =>
    cases taken
    exact Or.inl ⟨_, rfl, rfl⟩
  | disconnect =>
    obtain ⟨after, done, rfl⟩ := Option.map_eq_some_iff.mp taken
    exact Or.inr ⟨rfl, Or.inl ⟨rfl, done⟩⟩
  | subscribe pattern exchange =>
    obtain ⟨after, done, rfl⟩ := Option.map_eq_some_iff.mp taken
    exact Or.inr ⟨rfl, Or.inr ⟨BrokerRedis.subscribe_quiet done, fun _ => rfl⟩⟩
  | unSubscribe pattern named exchange =>
    obtain ⟨after, done, rfl⟩ := Option.map_eq_some_iff.mp taken
    exact Or.inr ⟨rfl, Or.inr ⟨BrokerRedis.unSubscribe_quiet done, fun _ => rfl⟩⟩
  | publish exchange first second | command exchange first second
  | request exchange first second =>
    obtain ⟨result, done, rfl⟩ := Option.map_eq_some_iff.mp taken
    rcases BrokerRedis.exchangeOrReconnect_call done with called | ⟨silent, same, found⟩
    · exact Or.inl called
    · exact Or.inr ⟨silent, Or.inr ⟨same ▸ BrokerRedis.Quiet.refl _, found⟩⟩
  | readable fd replied first second =>
    unfold sessionStep at taken
    dsimp only at taken
    split at taken
    · obtain ⟨after, done, rfl⟩ := Option.map_eq_some_iff.mp taken
      rcases BrokerRedis.readInvoker_cases done with ⟨rfl, rfl⟩ | ⟨rfl, again⟩
      · exact Or.inr ⟨rfl, Or.inr ⟨BrokerRedis.Quiet.refl _, fun _ => rfl⟩⟩
      · exact Or.inl (BrokerRedis.reconnect_call again)
    · cases taken
  | reconnectTimer first second =>
    cases taken
    unfold BrokerRedis.reconnectTimer
    by_cases connected : session.broker.connected = true
    · refine Or.inr ⟨if_pos connected, Or.inr ⟨?_, fun _ => rfl⟩⟩
      show session.broker.Quiet (if ¬ session.broker.connected = true then _ else session.broker)
      rw [if_neg (not_not.mpr connected)]
      exact BrokerRedis.Quiet.refl _
    · refine Or.inl ⟨_, if_neg connected, ?_⟩
      show (if ¬ session.broker.connected = true then _ else session.broker) = _
      rw [if_pos connected]
      rfl

/-- The node that the application has called last, after a step. -/
def SessionLabel.called (label : SessionLabel) (before : Option String) : Option String :=
  match label with
  | .connect node _ _ => some node
  | _ => before

/-- A call of `connect` is the application's, or the retry after a failure, or the timer's. -/
theorem connectCall_cases {session : Session} {label : SessionLabel} {call : ConnectCall}
    (made : connectCall session label = some call) :
    (call.broker = session.broker ∧ label.disconnects = false ∧
        ∀ before, label.called before = some call.node) ∨
      (∃ first second, session.broker.retryCall first second = some call ∧
        label.disconnects = true ∧ ∀ before, label.called before = before) ∨
      (call.broker = session.broker ∧ call.node = "" ∧ session.broker.connected = false ∧
        ∃ first second, label = .reconnectTimer first second) := by
  cases label with
  | connect other first second =>
    cases made
    exact Or.inl ⟨rfl, rfl, fun _ => rfl⟩
  | disconnect | subscribe pattern exchange | unSubscribe pattern named exchange => cases made
  | publish exchange first second | command exchange first second
  | request exchange first second =>
    unfold connectCall BrokerRedis.exchangeCall at made
    cases exchange with
    | accepted | refused => cases made
    | lost executed =>
      dsimp only at made
      split at made
      · exact Or.inr (Or.inl ⟨first, second, made, rfl, fun _ => rfl⟩)
      · cases made
  | readable fd replied first second =>
    unfold connectCall at made
    cases replied with
    | true => cases made
    | false => exact Or.inr (Or.inl ⟨first, second, made, rfl, fun _ => rfl⟩)
  | reconnectTimer first second =>
    unfold connectCall at made
    dsimp only at made
    split at made
    · cases made
    · rename_i disconnected
      cases made
      exact Or.inr (Or.inr ⟨rfl, rfl, Bool.eq_false_iff.mpr disconnected, first, second, rfl⟩)

/-! ### The node and the prefixes -/

/-- The prefixes that belong to a node. -/
structure BrokerRedis.Named (broker : BrokerRedis) (node : String) : Prop where
  own : broker.node = node
  srcPrefix : broker.srcPrefix = "src/" ++ (node ++ "/")
  dstPrefix : broker.dstPrefix = "dst/" ++ (node ++ "/")

namespace BrokerRedis

theorem openContexts_named {broker : BrokerRedis} {node : String} (named : broker.Named node)
    (first second : ConnectOutcome) : (broker.openContexts first second).2.Named node := by
  have added : ∀ (broker : BrokerRedis) (fd : Int), broker.Named node →
      (broker.addReadInvoker fd).Named node := by
    intro broker fd named
    unfold addReadInvoker
    split
    · exact named
    · exact ⟨named.own, named.srcPrefix, named.dstPrefix⟩
  unfold openContexts
  dsimp only
  cases first with
  | null | error fd => exact ⟨named.own, named.srcPrefix, named.dstPrefix⟩
  | ok fd =>
    have reading := added
      { broker with
        subscribeContext := ConnectOutcome.context broker.connections (.ok fd)
        connections := broker.connections + 1 }
      fd ⟨named.own, named.srcPrefix, named.dstPrefix⟩
    cases second with
    | null | error other | ok other => exact ⟨reading.own, reading.srcPrefix, reading.dstPrefix⟩

/-- Every call of `connect` names the broker. -/
theorem connect_named (broker : BrokerRedis) (node : String) (first second : ConnectOutcome) :
    (broker.connect node first second).2.Named node := by
  have named : (broker.setNode node).Named node := ⟨rfl, rfl, rfl⟩
  unfold connect
  dsimp only
  split
  · exact named
  · exact openContexts_named named first second

theorem Named.disconnect {broker after : BrokerRedis} {node : String} (named : broker.Named node)
    (done : broker.disconnect = some after) : after.Named node := by
  unfold BrokerRedis.disconnect at done
  split at done
  · exact Option.some.inj done ▸ named
  · split at done
    · cases done
      exact ⟨named.own, named.srcPrefix, named.dstPrefix⟩
    · cases done

theorem Named.quiet {broker after : BrokerRedis} {node : String} (named : broker.Named node)
    (quiet : broker.Quiet after) : after.Named node where
  own := quiet.node.trans named.own
  srcPrefix := quiet.srcPrefix.trans named.srcPrefix
  dstPrefix := quiet.dstPrefix.trans named.dstPrefix

/-- A retry names the broker as it was named. -/
theorem Named.retryCall {broker : BrokerRedis} {node : String} (named : broker.Named node)
    {first second : ConnectOutcome} {call : ConnectCall}
    (called : broker.retryCall first second = some call) : call.node = node := by
  obtain ⟨disconnected, apart, rfl⟩ := Option.map_eq_some_iff.mp called
  exact (named.disconnect apart).own

/-- The rule of `publisher` and `subscriber`: a topic that starts with `src/` or `dst/` is absolute,
another one gets the prefix. -/
def absoluteTopic (nodePrefix topic : String) : String :=
  if topic.startsWith "src/" ∨ topic.startsWith "dst/" then topic else nodePrefix ++ topic

/-- The topic of a sink that `publisher` makes now. -/
def publisherTopic (broker : BrokerRedis) (topic : String) : String :=
  absoluteTopic broker.srcPrefix topic

/-- The pattern of a flow that `subscriber` makes now. -/
def subscriberPattern (broker : BrokerRedis) (pattern : String) : String :=
  absoluteTopic broker.dstPrefix pattern

end BrokerRedis

/-- A session, and the node of the latest call of `connect` that the application has made. -/
structure NamedSession where
  session : Session
  called : Option String

/-- The sessions of `sessionMachine` with the node called last. -/
def namedMachine : Machine NamedSession SessionLabel where
  initial state := sessionMachine.initial state.session ∧ state.called = none
  step state label :=
    (sessionMachine.step state.session label).map fun next =>
      { session := next, called := label.called state.called }

/-- The reconnect timer finds the broker connected, or a broker whose node is empty in any case. -/
def timerHarmless (state : NamedSession) : SessionLabel → Bool
  | .reconnectTimer _ _ =>
      state.session.broker.connected || state.called.all (· = "")
  | _ => true

/-- A call of `connect` names the broker as the application has. -/
theorem connectCall_node {state : NamedSession} {label : SessionLabel} {call : ConnectCall}
    (named : ∀ node, state.called = some node → state.session.broker.Named node)
    (harmless : timerHarmless state label = true)
    (made : connectCall state.session label = some call) :
    ∀ node, label.called state.called = some node → call.node = node := by
  intro node latest
  rcases connectCall_cases made with ⟨-, -, own⟩ | ⟨first, second, retry, -, same⟩ |
    ⟨-, empty, disconnected, first, second, rfl⟩
  · exact Option.some.inj ((own state.called).symm.trans latest)
  · rw [same] at latest
    exact (named node latest).retryCall retry
  · have latest : state.called = some node := latest
    unfold timerHarmless at harmless
    rw [disconnected, Bool.false_or, latest, Option.all_some] at harmless
    exact empty.trans (of_decide_eq_true harmless).symm

/-- As long as the timer finds the broker connected, the prefixes are those of the node that the
application has called last, and so are the topics made of them. -/
theorem prefixes_stable {state : NamedSession}
    (reachable : (namedMachine.restrict timerHarmless).Reachable state) {node : String}
    (called : state.called = some node) :
    state.session.broker.srcPrefix = "src/" ++ (node ++ "/") ∧
      state.session.broker.dstPrefix = "dst/" ++ (node ++ "/") ∧
      (∀ topic, state.session.broker.publisherTopic topic =
        BrokerRedis.absoluteTopic ("src/" ++ (node ++ "/")) topic) ∧
      ∀ pattern, state.session.broker.subscriberPattern pattern =
        BrokerRedis.absoluteTopic ("dst/" ++ (node ++ "/")) pattern := by
  have named : ∀ node, state.called = some node → state.session.broker.Named node := by
    refine @Machine.Reachable.invariant _ _ _
      (fun state => ∀ node, state.called = some node → state.session.broker.Named node)
      ?_ ?_ _ reachable
    · rintro state ⟨-, none⟩ node latest
      rw [none] at latest
      cases latest
    · intro state label next _ kept taken
      obtain ⟨harmless, stepped⟩ := Machine.restrict_step taken
      obtain ⟨session, moved, rfl⟩ := Option.map_eq_some_iff.mp stepped
      intro node latest
      rcases sessionStep_broker moved with ⟨call, isCall, same⟩ | ⟨noCall, quiet⟩
      · have own := connectCall_node kept harmless isCall node latest
        show session.broker.Named node
        rw [same, ← own]
        exact BrokerRedis.connect_named _ _ _ _
      · have before : state.called = some node := by
          cases label with
          | connect other first second => cases noCall
          | _ => exact latest
        rcases quiet with ⟨-, apart⟩ | ⟨quiet, -⟩
        · exact (kept node before).disconnect apart
        · exact (kept node before).quiet quiet
  obtain ⟨-, source, destination⟩ := named node called
  exact ⟨source, destination, fun topic => by rw [BrokerRedis.publisherTopic, source],
    fun pattern => by rw [BrokerRedis.subscriberPattern, destination]⟩

/-- A node that connects, loses its connection while publishing, and keeps its prefixes. -/
theorem prefixes_stable_publishing :
    ∃ state, (namedMachine.restrict timerHarmless).Reachable state ∧
      state.session.broker.connections = 4 ∧ state.session.broker.srcPrefix = "src/brain/" := by
  obtain ⟨state, reachable, passed⟩ := Machine.exists_reachable_of_run
    (namedMachine.restrict timerHarmless)
    (show namedMachine.initial ⟨⟨.constructed, []⟩, none⟩ from ⟨rfl, rfl⟩)
    [.connect "brain" (.ok 5) (.ok 6), .publish (.lost false) (.ok 5) (.ok 6),
      .reconnectTimer (.ok 7) (.ok 8)]
    (fun state => decide (state.called = some "brain" ∧ state.session.broker.connections = 4))
    (by decide +kernel)
  obtain ⟨called, connections⟩ := of_decide_eq_true passed
  exact ⟨state, reachable, connections, (prefixes_stable reachable called).1⟩

/-- When the reconnection after a lost publish fails, the timer connects the broker with an empty
node. -/
theorem prefixes_lost :
    ∃ state, namedMachine.Reachable state ∧ state.called = some "brain" ∧
      state.session.broker.connected = true ∧ state.session.broker.srcPrefix = "src//" ∧
      state.session.broker.dstPrefix = "dst//" := by
  obtain ⟨state, reachable, passed⟩ := Machine.exists_reachable_of_run namedMachine
    (show namedMachine.initial ⟨⟨.constructed, []⟩, none⟩ from ⟨rfl, rfl⟩)
    [.connect "brain" (.ok 5) (.ok 6), .publish (.lost false) .null .null,
      .reconnectTimer (.ok 5) (.ok 6)]
    (fun state => decide (state.called = some "brain" ∧ state.session.broker.connected = true ∧
      state.session.broker.srcPrefix = "src//" ∧ state.session.broker.dstPrefix = "dst//"))
    (by decide +kernel)
  obtain ⟨called, connected, source, destination⟩ := of_decide_eq_true passed
  exact ⟨state, reachable, called, connected, source, destination⟩

/-! ### The read invoker -/

/-- The connection is open. -/
def ConnectOutcome.isOpen : ConnectOutcome → Bool
  | .ok _ => true
  | .null | .error _ => false

/-- A call of `connect` that opens the subscribe context opens the publish context as well. -/
def opensBoth (session : Session) (label : SessionLabel) : Bool :=
  match connectCall session label with
  | some call => call.broker.connected || !call.first.isOpen || call.second.isOpen
  | none => true

namespace BrokerRedis

/-- A connected broker has one read invoker, for its subscribe context; another one has none. -/
structure Tidy (broker : BrokerRedis) : Prop where
  disconnected : broker.connected = false → broker.readInvokers = []
  connected : broker.connected = true →
    ∃ context, broker.subscribeContext = .live context ∧ broker.readInvokers = [context.fd]

theorem Tidy.disconnect {broker after : BrokerRedis} (tidy : broker.Tidy)
    (done : broker.disconnect = some after) : after.Tidy := by
  unfold BrokerRedis.disconnect at done
  split at done
  · exact Option.some.inj done ▸ tidy
  · rename_i connected
    obtain ⟨context, live, one⟩ := tidy.connected (not_not.mp connected)
    split at done
    · rename_i subscribing publishing isSubscribing isPublishing
      cases isSubscribing.symm.trans live
      cases done
      refine { disconnected := fun _ => ?_, connected := nofun }
      show broker.readInvokers.filter (· ≠ context.fd) = []
      rw [one, List.filter_cons_of_neg, List.filter_nil]
      exact fun kept => (of_decide_eq_true kept : context.fd ≠ context.fd) rfl
    · cases done

theorem Tidy.quiet {broker after : BrokerRedis} (tidy : broker.Tidy)
    (quiet : broker.Quiet after) : after.Tidy where
  disconnected connected := quiet.readInvokers.trans
    (tidy.disconnected (quiet.connected.symm.trans connected))
  connected connected := by
    obtain ⟨context, live, one⟩ := tidy.connected (quiet.connected.symm.trans connected)
    obtain ⟨same, now, descriptor⟩ := quiet.descriptor context live
    exact ⟨same, now, by rw [quiet.readInvokers, one, descriptor]⟩

/-- A call of `connect` that does not fail half way keeps a broker tidy, and changes no invoker
where it fails. -/
theorem Tidy.connect {broker : BrokerRedis} (tidy : broker.Tidy) (node : String)
    {first second : ConnectOutcome}
    (both : (broker.connected || !first.isOpen || second.isOpen) = true) :
    (broker.connect node first second).2.Tidy ∧
      ((broker.connect node first second).1 ≠ 0 →
        (broker.connect node first second).2.readInvokers = broker.readInvokers) := by
  unfold BrokerRedis.connect
  dsimp only
  split
  · exact ⟨⟨tidy.disconnected, tidy.connected⟩, fun failed => absurd rfl failed⟩
  · rename_i disconnected
    have disconnected : broker.connected = false := Bool.eq_false_iff.mpr disconnected
    have none := tidy.disconnected disconnected
    cases first with
    | null | error fd =>
      exact ⟨⟨fun _ => none, fun connected => absurd (disconnected.symm.trans connected)
        (by decide)⟩, fun _ => rfl⟩
    | ok fd =>
      cases second with
      | null | error other =>
        rw [disconnected] at both
        cases both
      | ok other =>
        refine ⟨⟨nofun, fun _ => ⟨⟨fd, false, broker.connections, []⟩, ?_, ?_⟩⟩,
          fun failed => absurd rfl failed⟩
        · unfold openContexts addReadInvoker
          dsimp only
          split <;> rfl
        · unfold openContexts addReadInvoker
          dsimp only
          rw [if_neg]
          · exact congrArg (fd :: ·) none
          · intro member
            have member : fd ∈ broker.readInvokers := member
            rw [none] at member
            exact List.not_mem_nil member

end BrokerRedis

/-- A call of `connect` is made on a tidy broker. -/
theorem connectCall_tidy {session : Session} {label : SessionLabel} {call : ConnectCall}
    (tidy : session.broker.Tidy) (made : connectCall session label = some call) :
    call.broker.Tidy := by
  rcases connectCall_cases made with ⟨same, -⟩ | ⟨first, second, retry, -⟩ | ⟨same, -⟩
  · exact same ▸ tidy
  · obtain ⟨disconnected, apart, rfl⟩ := Option.map_eq_some_iff.mp retry
    exact tidy.disconnect apart
  · exact same ▸ tidy

/-- A call of `connect` that meets the condition, on a tidy broker. -/
theorem connectCall_result {session : Session} {label : SessionLabel} {call : ConnectCall}
    (tidy : session.broker.Tidy) (both : opensBoth session label = true)
    (called : connectCall session label = some call) :
    call.result.2.Tidy ∧
      (call.result.1 ≠ 0 → call.result.2.readInvokers = call.broker.readInvokers) := by
  unfold opensBoth at both
  rw [called] at both
  exact (connectCall_tidy tidy called).connect call.node both

theorem tidy_of_reachable {session : Session}
    (reachable : (sessionMachine.restrict opensBoth).Reachable session) :
    session.broker.Tidy := by
  refine @Machine.Reachable.invariant _ _ _ (fun session => session.broker.Tidy) ?_ ?_ _ reachable
  · rintro session rfl
    exact ⟨fun _ => rfl, nofun⟩
  · intro session label next _ tidy taken
    obtain ⟨both, stepped⟩ := Machine.restrict_step taken
    rcases sessionStep_broker stepped with ⟨call, called, same⟩ | ⟨-, ⟨-, apart⟩ | ⟨quiet, -⟩⟩
    · rw [same]
      exact (connectCall_result tidy both called).1
    · exact tidy.disconnect apart
    · exact tidy.quiet quiet

/-- As long as no second connection fails after a first, a call of `connect` that fails leaves the
read invokers as they were, and a read invoker of the broker is the only one and has the descriptor
of the current subscribe context. -/
theorem failedConnect_traceless {session : Session}
    (reachable : (sessionMachine.restrict opensBoth).Reachable session) :
    (∀ label next, (sessionMachine.restrict opensBoth).step session label = some next →
      ∀ call, connectCall session label = some call → call.result.1 ≠ 0 →
        call.result.2.readInvokers = call.broker.readInvokers) ∧
    session.broker.readInvokers.length ≤ 1 ∧
    ∀ fd ∈ session.broker.readInvokers,
      ∃ context, session.broker.subscribeContext = .live context ∧ context.fd = fd := by
  have tidy := tidy_of_reachable reachable
  refine ⟨fun label next taken call called => ?_, ?_⟩
  · obtain ⟨both, -⟩ := Machine.restrict_step taken
    exact (connectCall_result tidy both called).2
  · cases connected : session.broker.connected with
    | false =>
      rw [tidy.disconnected connected]
      exact ⟨Nat.zero_le _, nofun⟩
    | true =>
      obtain ⟨context, live, one⟩ := tidy.connected connected
      rw [one]
      refine ⟨le_rfl, fun fd member => ⟨context, live, ?_⟩⟩
      exact (List.mem_singleton.mp member).symm

/-- A session whose second attempt to connect succeeds. -/
theorem failedConnect_traceless_retried :
    ∃ session, (sessionMachine.restrict opensBoth).Reachable session ∧
      session.broker.connected = true ∧ session.broker.readInvokers.length ≤ 1 := by
  obtain ⟨session, reachable, passed⟩ := Machine.exists_reachable_of_run
    (sessionMachine.restrict opensBoth)
    (show sessionMachine.initial ⟨.constructed, []⟩ from rfl)
    [.connect "brain" .null .null, .reconnectTimer (.ok 5) (.ok 6)]
    (fun session => session.broker.connected) (by decide +kernel)
  exact ⟨session, reachable, passed, (failedConnect_traceless reachable).2.1⟩

/-- A call of `connect` whose second connection fails returns an error and leaves a read invoker,
and the next call registers another one. -/
theorem failedConnect_leaves_invoker :
    (BrokerRedis.constructed.connect "brain" (.ok 5) .null).1 ≠ 0 ∧
      (BrokerRedis.constructed.connect "brain" (.ok 5) .null).2.readInvokers = [5] ∧
      ∃ session, sessionMachine.Reachable session ∧ session.broker.connected = true ∧
        session.broker.readInvokers = [6, 5] := by
  refine ⟨by decide, rfl, ?_⟩
  obtain ⟨session, reachable, passed⟩ := Machine.exists_reachable_of_run sessionMachine
    (show sessionMachine.initial ⟨.constructed, []⟩ from rfl)
    [.connect "brain" (.ok 5) .null, .reconnectTimer (.ok 6) (.ok 7)]
    (fun session => decide (session.broker.connected = true ∧
      session.broker.readInvokers = [6, 5])) (by decide +kernel)
  obtain ⟨connected, two⟩ := of_decide_eq_true passed
  exact ⟨session, reachable, connected, two⟩

end BrokerProxy.Redis
