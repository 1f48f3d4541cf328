/-
This file shows the other half of what `connected` of a device means: the flag is set
exactly when a message on the loopback topic has been handled since it was last cleared,
and the timer that clears it expires 3000 ms after that message, no earlier. So a device
that is not renamed, and whose iterations all come within three seconds of the last such
message, never loses its connection.
-/

import BrokerProxy.Broker.BrokerSerial

namespace BrokerProxy.Broker

open Codec Limero Redis Runs

variable {Value : Type} {decoder : TinyCborDecoder Value}

/-! ### The two events of an iteration -/

namespace BrokerSerial

variable {device : BrokerSerial} {fromCbor : CborDeserializer Value} {readings : Readings}

theorem connected_onLoopback (device : BrokerSerial) (latency : Bytes) (value : UInt64)
    (readings : Readings) : (device.onLoopback latency value readings).connected = true := by
  have set : ∀ before : BrokerSerial, (before.setConnected true).connected = true :=
    fun before => connected_setConnected before true
  exact set _

/-- Handling a message on the loopback topic sets the flag, and `_connectTimer` to three seconds
later. -/
theorem emitIncoming_handled {msg other : PubMsg} {reading : Nat}
    (handles : (device.emitIncoming decoder fromCbor msg readings).1 =
      some (.handled other reading)) :
    reading = readings.resetting ∧
      (device.emitIncoming decoder fromCbor msg readings).2.connected = true ∧
      (device.emitIncoming decoder fromCbor msg readings).2.connectTimer.expireTime =
        (readings.resetting + 3000) % 2 ^ 64 := by
  unfold emitIncoming at handles ⊢
  split at handles
  · dsimp only at handles ⊢
    split at handles
    · rename_i attached _ accepted
      rw [if_pos accepted]
      obtain ⟨-, -, reset⟩ := device.onLoopback_fields attached.latency
        (getValue decoder fromCbor msg.payload).1 readings
      cases handles
      refine ⟨rfl, connected_onLoopback _ _ _ _, ?_⟩
      rw [reset, TimerSource.start, TimerSource.expireAt_expireTime, device.connect_every.1]
    · cases handles
  · cases handles

theorem requestLoopbackTimer_event (device : BrokerSerial) (readings : Readings) :
    (device.requestLoopbackTimer readings).1 = none ∨
      (device.requestLoopbackTimer readings).1 = some .loopbackTimer := by
  unfold requestLoopbackTimer
  dsimp only
  split
  · exact Or.inr rfl
  · exact Or.inl rfl

/-- A firing of `_connectTimer` finds the timer expired. -/
theorem requestConnectTimer_event (device : BrokerSerial) (readings : Readings) :
    (device.requestConnectTimer readings).1 = none ∨
      (device.requestConnectTimer readings).1 = some .connectTimer ∧
        device.connectTimer.expireTime ≤ readings.first := by
  unfold requestConnectTimer
  dsimp only
  split
  · rename_i fires
    refine Or.inr ⟨rfl, Nat.not_lt.mp fun early => ?_⟩
    rw [device.connectTimer.request_early _ _ early] at fires
    cases fires
  · exact Or.inl rfl

/-- A request never handles a message, and clears the flag only when `_connectTimer` is due. -/
theorem requestTimer_event (device : BrokerSerial) (place : Nat) (readings : Readings) :
    (device.requestTimer place readings).1 = none ∨
      (device.requestTimer place readings).1 = some .loopbackTimer ∨
      (device.requestTimer place readings).1 = some .connectTimer ∧
        device.connectTimer.expireTime ≤ readings.first := by
  unfold requestTimer
  dsimp only
  split
  · exact Or.inl rfl
  · split
    · exact (device.requestLoopbackTimer_event readings).imp_right Or.inl
    · split
      · exact (device.requestConnectTimer_event readings).imp_right Or.inr
      · exact Or.inl rfl

/-- An iteration that clears the flag finds `_connectTimer` due. -/
theorem loop_fired {decoder : TinyCborDecoder Value}
    (fires : (device.loop decoder fromCbor readings).1 = some .connectTimer) :
    device.connectTimer.expireTime ≤ readings.first := by
  unfold loop at fires
  dsimp only at fires
  split at fires
  · split at fires
    · unfold emitIncoming at fires
      split at fires
      · dsimp only at fires
        split at fires <;> cases fires
      · cases fires
    · cases fires
  · split at fires
    · split at fires
      · rcases device.requestTimer_event _ readings with none | loopback | ⟨-, due⟩
        · cases none.symm.trans fires
        · cases loopback.symm.trans fires
        · exact due
      · cases fires
    · cases fires

/-- An iteration that handles a message on the loopback topic sets the flag and the timer. -/
theorem loop_handled {decoder : TinyCborDecoder Value} {msg : PubMsg} {reading : Nat}
    (handles : (device.loop decoder fromCbor readings).1 = some (.handled msg reading)) :
    reading = readings.resetting ∧
      (device.loop decoder fromCbor readings).2.connected = true ∧
      (device.loop decoder fromCbor readings).2.connectTimer.expireTime =
        (readings.resetting + 3000) % 2 ^ 64 := by
  unfold loop at handles ⊢
  dsimp only at handles ⊢
  split
  · rename_i waits
    rw [if_pos waits] at handles
    split
    · rename_i next invoked
      rw [invoked] at handles
      exact emitIncoming_handled handles
    · rename_i next
      rw [next] at handles
      cases handles
  · rename_i waits
    rw [if_neg waits] at handles
    split at handles
    · split at handles
      · rcases device.requestTimer_event _ readings with none | loopback | ⟨fires, -⟩
        · cases none.symm.trans handles
        · cases loopback.symm.trans handles
        · cases fires.symm.trans handles
      · cases handles
    · cases handles

end BrokerSerial

/-! ### Every run -/

/-- The flag is set exactly if a message has been handled since it was last cleared, by a device
that was initialised, and `_connectTimer` expires three seconds after that message. -/
structure Exact (run : BrokerRun) : Prop where
  connected : run.device.connected = (lastHandled run.history).isSome
  initialised : (lastHandled run.history).isSome = true → run.device.attached ≠ none
  expireTime : ∀ msg reading, lastHandled run.history = some (msg, reading) →
    run.device.connectTimer.expireTime = (reading + 3000) % 2 ^ 64

/-- Nothing that the flag depends on has changed. -/
theorem Exact.untouched {run next : BrokerRun} (exact : Exact run)
    (untouched : run.device.Untouched next.device)
    (last : lastHandled next.history = lastHandled run.history) : Exact next where
  connected := by rw [untouched.connected, exact.connected, last]
  initialised := by
    rw [last, untouched.attached]
    exact exact.initialised
  expireTime := by
    rw [last, untouched.connectTimer]
    exact exact.expireTime

/-- The events after an iteration. -/
theorem Exact.loop {run : BrokerRun} (exact : Exact run) (fromCbor : CborDeserializer Value)
    (readings : Readings) :
    Exact
      { device := (run.device.loop decoder fromCbor readings).2
        clock := readings.resetting
        history := (run.device.loop decoder fromCbor readings).1.toList ++ run.history } := by
  have served := BrokerSerial.served_loop decoder run.device fromCbor readings
  cases served with
  | idle silent untouched =>
    refine exact.untouched untouched ?_
    rcases silent with same | same <;> rw [same] <;> rfl
  | fired fires node attached cleared unset =>
    rw [fires]
    refine ⟨?_, nofun, nofun⟩
    cases initialised : run.device.attached with
    | some topics => exact cleared topics initialised
    | none =>
      refine (unset initialised).trans (Bool.eq_false_iff.mpr fun connected => ?_)
      exact exact.initialised (exact.connected.symm.trans connected) initialised
  | handled msg attached handles initialised topic success node kept expireTime =>
    obtain ⟨-, connected, expires⟩ := BrokerSerial.loop_handled handles
    rw [handles]
    refine ⟨connected, fun _ => ?_, fun other reading last => ?_⟩
    · rw [kept, initialised]
      exact Option.some_ne_none _
    · cases last
      exact expires

theorem Exact.step {run next : BrokerRun} (exact : Exact run) {label : BrokerLabel Value}
    (taken : brokerStep decoder run label = some next) : Exact next := by
  cases label with
  | init =>
    unfold brokerStep at taken
    dsimp only at taken
    split at taken
    · cases taken
      exact ⟨exact.connected, fun _ => Option.some_ne_none _, exact.expireTime⟩
    · cases taken
  | node n =>
    cases taken
    exact ⟨BrokerSerial.connected_setConnected _ false, nofun, nofun⟩
  | on flow msg =>
    cases taken
    exact exact.untouched (run.device.untouched_on flow msg) rfl
  | loop fromCbor readings =>
    unfold brokerStep at taken
    dsimp only at taken
    split at taken
    · cases taken
      exact exact.loop fromCbor readings
    · cases taken
  | others before after =>
    cases taken
    exact exact.untouched ⟨rfl, rfl, rfl, rfl⟩ rfl

theorem exact_of_reachable {run : BrokerRun} (reachable : (deviceMachine decoder).Reachable run) :
    Exact run := by
  refine Machine.Reachable.invariant ?_ (fun _ _ _ _ exact taken => exact.step taken) reachable
  rintro run ⟨hostname, first, second, before, after, thread, -, rfl⟩
  exact ⟨rfl, nofun, nofun⟩

/-- The indicator is exact: in every state that a device reaches, `connected()` is true if and only
if a message on the loopback topic has been handled since the last firing of `_connectTimer` and the
last call of `node`; and `_connectTimer` expires 3000 ms after the reading of the clock at which the
last such message was handled. -/
theorem connected_exact {run : BrokerRun} (reachable : (deviceMachine decoder).Reachable run) :
    (run.device.connected = true ↔ ∃ msg reading, lastHandled run.history = some (msg, reading)) ∧
      ∀ msg reading, lastHandled run.history = some (msg, reading) →
        run.device.connectTimer.expireTime = (reading + 3000) % 2 ^ 64 := by
  have exact := exact_of_reachable reachable
  refine ⟨?_, exact.expireTime⟩
  rw [exact.connected, Option.isSome_iff_exists, Prod.exists]

/-- The steps of a device that hears from itself: it is not renamed, and every iteration of the loop
polls its timer less than 3000 ms after the last message on the loopback topic was handled. -/
def keepsAlive (run : BrokerRun) : BrokerLabel Value → Bool
  | .node _ => false
  | .loop _ readings =>
      (lastHandled run.history).all fun last =>
        readings.first < last.2 + 3000 && last.2 + 3000 < 2 ^ 64
  | _ => true

theorem Exact.connected_step {run next : BrokerRun} (exact : Exact run)
    (connected : run.device.connected = true) {label : BrokerLabel Value}
    (met : keepsAlive run label = true) (taken : brokerStep decoder run label = some next) :
    next.device.connected = true := by
  cases label with
  | init =>
    unfold brokerStep at taken
    dsimp only at taken
    split at taken
    · cases taken
      exact connected
    · cases taken
  | node n => cases met
  | on flow msg =>
    cases taken
    exact (run.device.untouched_on flow msg).connected.trans connected
  | loop fromCbor readings =>
    unfold brokerStep at taken
    dsimp only at taken
    split at taken
    · cases taken
      have served := BrokerSerial.served_loop decoder run.device fromCbor readings
      cases served with
      | idle silent untouched => exact untouched.connected.trans connected
      | fired fires =>
        -- The timer would have to expire before the time that the last message has set it to.
        obtain ⟨last, same⟩ := Option.isSome_iff_exists.mp (exact.connected.symm.trans connected)
        have expires := exact.expireTime last.1 last.2 same
        unfold keepsAlive at met
        dsimp only at met
        rw [same, Option.all_some, Bool.and_eq_true, decide_eq_true_eq, decide_eq_true_eq] at met
        rw [Nat.mod_eq_of_lt met.2] at expires
        have due := BrokerSerial.loop_fired fires
        exact absurd due (Nat.not_le.mpr (expires ▸ met.1))
      | handled msg attached handles => exact (BrokerSerial.loop_handled handles).2.1
    · cases taken
  | others before after =>
    cases taken
    exact connected

/-- A device that hears from itself stays connected: in every run from a state in which it is
connected, without a call of `node`, where every iteration of the loop comes within 3000 ms of the
last message handled on the loopback topic, `connected()` is still true at the end. -/
theorem connected_stays (labels : List (BrokerLabel Value)) {run final : BrokerRun}
    (reachable : (deviceMachine decoder).Reachable run) (connected : run.device.connected = true)
    (ended : ((deviceMachine decoder).restrict keepsAlive).run run labels = some final) :
    final.device.connected = true := by
  induction labels generalizing run with
  | nil =>
    cases ended
    exact connected
  | cons label rest inductionHypothesis =>
    obtain ⟨next, taken, remaining⟩ := Option.bind_eq_some_iff.mp ended
    obtain ⟨met, stepped⟩ := Machine.restrict_step taken
    exact inductionHypothesis (.step label reachable stepped)
      ((exact_of_reachable reachable).connected_step connected met stepped) remaining

/-- The loop goes on for almost three seconds after the message has come back. -/
def quietSeconds : List (BrokerLabel ReferenceValue) :=
  [.loop (Codec.constructed 100) (.at 2002 (by decide)),
    .loop (Codec.constructed 100) (.at 4004 (by decide))]

theorem loopbackRun_reachable :
    ∃ run : BrokerRun, (deviceMachine referenceDecoder).Reachable run ∧
      run.device.connected = true ∧
      (((deviceMachine referenceDecoder).restrict keepsAlive).run run quietSeconds).isSome =
        true := by
  obtain ⟨run, reachable, passed⟩ := Machine.exists_reachable_of_run
    (deviceMachine referenceDecoder) oneDevice_initial loopbackRun
    (fun run => run.device.connected &&
      (((deviceMachine referenceDecoder).restrict keepsAlive).run run quietSeconds).isSome)
    (by decide +kernel)
  obtain ⟨connected, runs⟩ := (Bool.and_eq_true _ _).mp passed
  exact ⟨run, reachable, connected, runs⟩

theorem connected_exact_oneDevice :
    ∃ run : BrokerRun, run.device.connected = true ∧
      ∃ msg reading, lastHandled run.history = some (msg, reading) := by
  obtain ⟨run, reachable, connected, -⟩ := loopbackRun_reachable
  exact ⟨run, connected, (connected_exact reachable).1.mp connected⟩

theorem connected_stays_oneDevice :
    ∃ run final : BrokerRun, run.device.connected = true ∧
      ((deviceMachine referenceDecoder).restrict keepsAlive).run run quietSeconds = some final ∧
      final.device.connected = true := by
  obtain ⟨run, reachable, connected, runs⟩ := loopbackRun_reachable
  obtain ⟨final, ended⟩ := Option.isSome_iff_exists.mp runs
  exact ⟨run, final, connected, ended, connected_stays quietSeconds reachable connected ended⟩

end BrokerProxy.Broker
