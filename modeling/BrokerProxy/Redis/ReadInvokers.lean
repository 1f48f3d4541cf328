/-
This file says which descriptors a step of a `BrokerRedis` registers with its thread and
which it deletes: `connect` registers that of the subscribe context it opens, `disconnect`
deletes that of the subscribe context of a connected broker, and nothing else changes the
read invokers.
-/

import BrokerProxy.Redis.Reconnection

namespace BrokerProxy.Redis

/-! ### The descriptors that a step deletes and adds -/

/-- The descriptor of a connection that opens. -/
def descriptorOf : ConnectOutcome → Option Int
  | .ok fd => some fd
  | .null | .error _ => none

/-- The descriptor that a step of a broker deletes, if any: that of the subscribe context of a
connected broker. -/
def deletedBy (session : Session) (label : SessionLabel) : Option Int :=
  match session.broker.subscribeContext with
  | .live context =>
      if session.broker.connected && label.disconnects then some context.fd else none
  | _ => none

/-- The descriptor that a step of a broker adds, if any: that of a subscribe context which
`connect` opens. -/
def addedBy (session : Session) (label : SessionLabel) : Option Int :=
  match connectCall session label with
  | some call => if call.broker.connected then none else descriptorOf call.first
  | none => none

/-- A descriptor is added unless it is there. -/
def withDescriptor (fds : List Int) : Option Int → List Int
  | some fd => if fd ∈ fds then fds else fd :: fds
  | none => fds

/-- A descriptor is removed. -/
def withoutDescriptor (fds : List Int) : Option Int → List Int
  | some fd => fds.filter (· ≠ fd)
  | none => fds

/-- A call of `connect` adds the descriptor of the subscribe context that it opens. -/
theorem connect_readInvokers (call : ConnectCall) :
    call.result.2.readInvokers = withDescriptor call.broker.readInvokers
      (if call.broker.connected then none else descriptorOf call.first) := by
  obtain ⟨broker, node, first, second⟩ := call
  have added : ∀ (broker : BrokerRedis) (fd : Int),
      (broker.addReadInvoker fd).readInvokers = withDescriptor broker.readInvokers (some fd) := by
    intro broker fd
    unfold BrokerRedis.addReadInvoker withDescriptor
    dsimp only
    split <;> rfl
  unfold ConnectCall.result BrokerRedis.connect
  dsimp only
  split
  · rename_i connected
    have connected : broker.connected = true := connected
    rw [if_pos connected]
    rfl
  · rename_i disconnected
    have disconnected : ¬ broker.connected = true := disconnected
    rw [if_neg disconnected]
    cases first with
    | null | error fd => rfl
    | ok fd =>
      cases second with
      | null | error other | ok other => exact added _ fd

/-- `disconnect` deletes the descriptor of the subscribe context of a connected broker. -/
theorem disconnect_readInvokers {session : Session} {after : BrokerRedis}
    (done : session.broker.disconnect = some after) {label : SessionLabel}
    (disconnects : label.disconnects = true) :
    after.readInvokers =
      withoutDescriptor session.broker.readInvokers (deletedBy session label) := by
  unfold BrokerRedis.disconnect at done
  unfold deletedBy
  split at done
  · rename_i disconnected
    cases done
    rw [Bool.eq_false_iff.mpr disconnected, Bool.false_and]
    split <;> rfl
  · rename_i connected
    split at done
    · rename_i subscribing publishing isSubscribing isPublishing
      cases done
      rw [isSubscribing, disconnects, Bool.and_true]
      dsimp only
      rw [if_pos (not_not.mp connected)]
      rfl
    · cases done

/-- Where the step of a broker does not start with `disconnect`, no descriptor is deleted. -/
theorem deletedBy_eq_none {session : Session} {label : SessionLabel}
    (stays : session.broker.connected = true → label.disconnects = false) :
    deletedBy session label = none := by
  unfold deletedBy
  split
  · refine if_neg fun both => ?_
    obtain ⟨connected, disconnects⟩ := (Bool.and_eq_true _ _).mp both
    rw [stays connected] at disconnects
    cases disconnects
  · rfl

/-- The broker on which a step calls `connect` has the read invokers that are left after
`disconnect`. -/
theorem connectCall_readInvokers {session : Session} {label : SessionLabel}
    {call : ConnectCall} (made : connectCall session label = some call) :
    call.broker.readInvokers =
      withoutDescriptor session.broker.readInvokers (deletedBy session label) := by
  rcases connectCall_cases made with ⟨same, stays, -⟩ | ⟨first, second, retry, disconnects, -⟩ |
    ⟨same, -, -, first, second, rfl⟩
  · rw [same, deletedBy_eq_none fun _ => stays]
    rfl
  · obtain ⟨disconnected, apart, rfl⟩ := Option.map_eq_some_iff.mp retry
    exact disconnect_readInvokers apart disconnects
  · rw [same, deletedBy_eq_none fun _ => rfl]
    rfl

/-- A step of a broker changes its read invokers by the descriptor it deletes and the one it
adds. -/
theorem sessionStep_readInvokers {session next : Session} {label : SessionLabel}
    (taken : sessionStep session label = some next) :
    next.broker.readInvokers =
      withDescriptor (withoutDescriptor session.broker.readInvokers (deletedBy session label))
        (addedBy session label) := by
  unfold addedBy
  rcases sessionStep_broker taken with ⟨call, called, same⟩ |
    ⟨silent, ⟨rfl, apart⟩ | ⟨quiet, stays⟩⟩
  · rw [same, connect_readInvokers, called, connectCall_readInvokers called]
  · have disconnects : SessionLabel.disconnects .disconnect = true := rfl
    rw [silent, disconnect_readInvokers apart disconnects]
    rfl
  · rw [silent, deletedBy_eq_none stays, quiet.readInvokers]
    rfl

/-! ### Steps that open and close nothing -/

/-- The step opens a subscribe context, where the broker is not connected. -/
def SessionLabel.opens : SessionLabel → Bool
  | .connect _ first _ | .reconnectTimer first _ => first.isOpen
  | .readable _ replied first _ => !replied && first.isOpen
  | .disconnect | .subscribe _ _ | .unSubscribe _ _ _ => false
  | .publish _ _ _ | .command _ _ _ | .request _ _ _ => false

/-- The step of a broker neither closes a subscribe context nor opens one: where the broker is
connected, there is a reply and `disconnect` is not called; where it is not, it does not connect. -/
def SessionLabel.steady (label : SessionLabel) (connected : Bool) : Bool :=
  if connected then !label.disconnects else !label.opens

/-- A connected broker has a read invoker for its subscribe context. -/
def BrokerRedis.Registered (broker : BrokerRedis) : Prop :=
  broker.connected = true →
    ∃ context, broker.subscribeContext = .live context ∧ context.fd ∈ broker.readInvokers

namespace BrokerRedis

theorem Registered.disconnect {broker after : BrokerRedis} (registered : broker.Registered)
    (done : broker.disconnect = some after) : after.Registered := by
  unfold BrokerRedis.disconnect at done
  split at done
  · exact Option.some.inj done ▸ registered
  · split at done
    · cases done
      exact nofun
    · cases done

theorem Registered.quiet {broker after : BrokerRedis} (registered : broker.Registered)
    (quiet : broker.Quiet after) : after.Registered := by
  intro connected
  obtain ⟨context, live, present⟩ := registered (quiet.connected.symm.trans connected)
  obtain ⟨same, now, descriptor⟩ := quiet.descriptor context live
  exact ⟨same, now, by rw [quiet.readInvokers, descriptor]; exact present⟩

end BrokerRedis

theorem mem_withDescriptor (fds : List Int) (fd : Int) : fd ∈ withDescriptor fds (some fd) := by
  unfold withDescriptor
  dsimp only
  split
  · assumption
  · exact List.mem_cons_self

/-- A call of `connect` registers the subscribe context that it opens. -/
theorem ConnectCall.registered {call : ConnectCall} (before : call.broker.Registered) :
    call.result.2.Registered := by
  have changed := connect_readInvokers call
  obtain ⟨broker, node, first, second⟩ := call
  unfold ConnectCall.result BrokerRedis.connect at changed ⊢
  dsimp only at changed before ⊢
  split
  · exact before
  · rename_i named
    have disconnected : ¬ broker.connected = true := named
    rw [if_neg disconnected, if_neg named] at changed
    cases first with
    | null | error fd => exact fun connected => absurd connected disconnected
    | ok fd =>
      cases second with
      | null | error other =>
        intro connected
        refine absurd ?_ disconnected
        unfold BrokerRedis.openContexts BrokerRedis.addReadInvoker at connected
        dsimp only at connected
        split at connected <;> exact connected
      | ok other =>
        intro _
        refine ⟨⟨fd, false, broker.connections, []⟩, ?_, ?_⟩
        · unfold BrokerRedis.openContexts BrokerRedis.addReadInvoker
          dsimp only
          split <;> rfl
        · rw [changed]
          exact mem_withDescriptor _ fd

/-- What a step does to the broker does not depend on what the application has subscribed. -/
theorem sessionStep_accepted {broker : BrokerRedis} {first : List (Nat × String)} {next : Session}
    {label : SessionLabel} (second : List (Nat × String))
    (taken : sessionStep ⟨broker, first⟩ label = some next) :
    ∃ accepted, sessionStep ⟨broker, second⟩ label = some ⟨next.broker, accepted⟩ := by
  cases label with
  | connect node one other | reconnectTimer one other =>
    cases taken
    exact ⟨second, rfl⟩
  | disconnect | subscribe pattern exchange | unSubscribe pattern named exchange
  | publish exchange one other | command exchange one other | request exchange one other =>
    obtain ⟨after, done, rfl⟩ := Option.map_eq_some_iff.mp taken
    exact ⟨_, Option.map_eq_some_iff.mpr ⟨after, done, rfl⟩⟩
  | readable fd replied one other =>
    unfold sessionStep at taken ⊢
    dsimp only at taken ⊢
    split at taken
    · rename_i present
      obtain ⟨after, done, rfl⟩ := Option.map_eq_some_iff.mp taken
      exact ⟨second, (if_pos present).trans (Option.map_eq_some_iff.mpr ⟨after, done, rfl⟩)⟩
    · cases taken

/-- A step of a broker keeps it registered. -/
theorem sessionStep_registered {session next : Session} {label : SessionLabel}
    (registered : session.broker.Registered) (taken : sessionStep session label = some next) :
    next.broker.Registered := by
  rcases sessionStep_broker taken with ⟨call, called, same⟩ | ⟨-, ⟨-, apart⟩ | ⟨quiet, -⟩⟩
  · rw [same]
    refine ConnectCall.registered ?_
    rcases connectCall_cases called with ⟨same, -⟩ | ⟨first, second, retry, -⟩ | ⟨same, -⟩
    · exact same ▸ registered
    · obtain ⟨disconnected, apart, rfl⟩ := Option.map_eq_some_iff.mp retry
      exact registered.disconnect apart
    · exact same ▸ registered
  · exact registered.disconnect apart
  · exact registered.quiet quiet

/-- A connected broker on which a steady step is made calls `connect` at most to be named. -/
theorem addedBy_of_connected {session : Session} {label : SessionLabel}
    (connected : session.broker.connected = true) (stays : label.disconnects = false) :
    addedBy session label = none := by
  unfold addedBy
  split
  · rename_i call called
    rcases connectCall_cases called with ⟨same, -⟩ | ⟨first, second, -, disconnects, -⟩ |
      ⟨-, -, disconnected, -⟩
    · rw [same, if_pos connected]
    · exact absurd (stays.symm.trans disconnects) (by decide)
    · exact absurd (disconnected.symm.trans connected) (by decide)
  · rfl

/-- What a step of a broker that is not connected adds. -/
theorem addedBy_of_disconnected {session : Session} {label : SessionLabel}
    (disconnected : session.broker.connected = false) :
    addedBy session label = none ↔ label.opens = false := by
  have opened : ∀ first : ConnectOutcome, descriptorOf first = none ↔ first.isOpen = false := by
    intro first
    cases first with
    | null | error fd => exact iff_of_true rfl rfl
    | ok fd => exact iff_of_false nofun nofun
  have apart : session.broker.disconnect = some session.broker :=
    if_pos (Bool.eq_false_iff.mp disconnected)
  cases label with
  | connect node first second =>
    show (if session.broker.connected = true then none else descriptorOf first) = none ↔ _
    rw [if_neg (Bool.eq_false_iff.mp disconnected)]
    exact opened first
  | disconnect | subscribe pattern exchange | unSubscribe pattern named exchange =>
    exact iff_of_true rfl rfl
  | publish exchange first second | command exchange first second
  | request exchange first second =>
    refine iff_of_true ?_ rfl
    unfold addedBy connectCall BrokerRedis.exchangeCall
    cases exchange with
    | accepted | refused => rfl
    | lost executed => rw [disconnected]; rfl
  | readable fd replied first second =>
    cases replied with
    | true => exact iff_of_true rfl rfl
    | false =>
      unfold addedBy connectCall BrokerRedis.retryCall
      rw [apart]
      show (if session.broker.connected = true then none else descriptorOf first) = none ↔ _
      rw [if_neg (Bool.eq_false_iff.mp disconnected)]
      exact opened first
  | reconnectTimer first second =>
    unfold addedBy connectCall
    rw [disconnected]
    show (if session.broker.connected = true then none else descriptorOf first) = none ↔ _
    rw [if_neg (Bool.eq_false_iff.mp disconnected)]
    exact opened first

/-- A step deletes a descriptor exactly where the broker is connected and the step starts with
`disconnect`. -/
theorem deletedBy_eq_none_iff {session : Session} {label : SessionLabel}
    (registered : session.broker.Registered) :
    deletedBy session label = none ↔
      (session.broker.connected = true → label.disconnects = false) := by
  refine ⟨fun silent connected => ?_, deletedBy_eq_none⟩
  obtain ⟨context, live, -⟩ := registered connected
  unfold deletedBy at silent
  rw [live, connected, Bool.true_and] at silent
  dsimp only at silent
  split at silent
  · cases silent
  · rename_i stays
    exact Bool.eq_false_iff.mpr stays

/-- A descriptor that a step deletes has a read invoker of the broker. -/
theorem mem_of_deletedBy {session : Session} {label : SessionLabel}
    (registered : session.broker.Registered) {fd : Int}
    (deleted : deletedBy session label = some fd) : fd ∈ session.broker.readInvokers := by
  unfold deletedBy at deleted
  split at deleted
  · rename_i context live
    split at deleted
    · rename_i both
      obtain ⟨other, same, present⟩ := registered ((Bool.and_eq_true _ _).mp both).1
      cases same.symm.trans live
      cases deleted
      exact present
    · cases deleted
  · cases deleted

/-- A step of a broker changes none of its read invokers exactly if it is steady. -/
theorem steady_iff {session : Session} {label : SessionLabel}
    (registered : session.broker.Registered) :
    (deletedBy session label = none ∧ addedBy session label = none) ↔
      label.steady session.broker.connected = true := by
  rw [deletedBy_eq_none_iff registered]
  unfold SessionLabel.steady
  cases connected : session.broker.connected with
  | true =>
    rw [if_pos rfl, Bool.not_eq_true']
    exact ⟨fun both => both.1 rfl, fun stays => ⟨fun _ => stays,
      addedBy_of_connected connected stays⟩⟩
  | false =>
    rw [if_neg Bool.false_ne_true, Bool.not_eq_true', addedBy_of_disconnected connected]
    exact and_iff_right nofun

/-- A call of `connect` that opens no subscribe context leaves the broker connected or not, as it
was. -/
theorem ConnectCall.connected {call : ConnectCall}
    (unopened : (if call.broker.connected then none else descriptorOf call.first) = none) :
    call.result.2.connected = call.broker.connected := by
  obtain ⟨broker, node, first, second⟩ := call
  unfold ConnectCall.result BrokerRedis.connect
  dsimp only at unopened ⊢
  split
  · rfl
  · rename_i disconnected
    have disconnected : ¬ broker.connected = true := disconnected
    rw [if_neg disconnected] at unopened
    cases first with
    | null | error fd => rfl
    | ok fd => cases unopened

/-- A steady step leaves the broker connected or not, as it was. -/
theorem sessionStep_connected {session next : Session} {label : SessionLabel}
    (registered : session.broker.Registered)
    (steady : label.steady session.broker.connected = true)
    (taken : sessionStep session label = some next) :
    next.broker.connected = session.broker.connected := by
  obtain ⟨kept, silent⟩ := (steady_iff registered).mpr steady
  have stays := (deletedBy_eq_none_iff registered).mp kept
  have unchanged : ∀ after, session.broker.disconnect = some after → label.disconnects = true →
      after.connected = session.broker.connected := by
    intro after apart disconnects
    have disconnected : ¬ session.broker.connected = true := fun connected =>
      absurd ((stays connected).symm.trans disconnects) (by decide)
    unfold BrokerRedis.disconnect at apart
    rw [if_pos disconnected] at apart
    cases apart
    rfl
  rcases sessionStep_broker taken with ⟨call, called, same⟩ | ⟨-, ⟨rfl, apart⟩ | ⟨quiet, -⟩⟩
  · unfold addedBy at silent
    rw [called] at silent
    rw [same, ConnectCall.connected silent]
    rcases connectCall_cases called with ⟨same, -⟩ | ⟨first, second, retry, disconnects, -⟩ |
      ⟨same, -⟩
    · rw [same]
    · obtain ⟨disconnected, apart, rfl⟩ := Option.map_eq_some_iff.mp retry
      exact unchanged disconnected apart disconnects
    · rw [same]
  · exact unchanged next.broker apart rfl
  · exact quiet.connected

end BrokerProxy.Redis
