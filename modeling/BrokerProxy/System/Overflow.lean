/-
This file shows what happens when the queues of frames overflow. A chunk can hold more
frames than `_incomingMessage` has places, and the broker can publish faster than the line
takes the frames in `_outgoingMessage`; what finds no place is dropped.

Only whole messages are lost. A run in which frames are dropped is, for everybody who
listens at one of the ends, a run in which the calls and messages of these frames have
never been made: each state is that of such a run, up to the histories of what went in. So
what comes out is still in order, unchanged and without repetition. It takes a place for
every chunk of bytes, since a missing chunk could join two halves of different frames; the
torn frames of `Serial::txd` end at the next flag.
-/

import BrokerProxy.System.Delivery

namespace BrokerProxy.System

open Codec Limero Line Ppp Protocol Runs

variable {Value : Type}

/-! ### Orderly runs -/

/-- The indices of a queue do not wrap around, if it takes so many values more. -/
def hasIndices (session : PipelineState SerialFlow SerialItem) (flow : SerialFlow) (count : Nat) :
    Bool :=
  (session.accepted flow).length + count < 2 ^ 64

/-- If the next pass serves a chunk, the receiver gets it in time. -/
def Proxy.decodesInTime (proxy : Proxy Value) (up : List (Marked UInt8)) (readings : Nat → UInt64)
    (finish : UInt64) : Bool :=
  match proxy.session.pipe, (proxy.session.memory .incomingSerial).contents tenPlaces with
  | .incomingSerial :: _, chunk :: later =>
      inTime proxy.bytesToFrame.lastFrameFlag (timed chunk readings) finish
          (later.flatten ++ up) &&
        (handleRxd proxy.bytesToFrame ⟨timed chunk readings, finish⟩).any
          fun result => hasIndices proxy.session .incomingMessage (emissions result.2).length
  | _, _ => true

/-- The steps of a careful run, except that the queues of frames may be full. -/
def orderly (system : SerialSystem Value) : SystemLabel → Bool
  | .call call => quiet system.text && decide call.NoNul
  | .print word => flagChar ∉ word
  | .onRxd count readings finish _ =>
      finish - lastFlag system.device.fromSerialFrame.lastFrameFlag
        (timed (system.down.take count) readings) ≤ frameTimeout
  | .invoke _ => system.hasRoom .incomingSerial 1
  | .waitInvoker readings finish _ _ => system.proxy.decodesInTime system.up readings finish
  | .publish msg =>
      0 ∉ msg.topic && Cbor.stringLength msg.topic + Cbor.stringLength msg.payload ≤ 97 &&
        hasIndices system.proxy.session .outgoingMessage 1

/-! ### Other histories -/

/-- The same system, with other histories of what has gone in. -/
def SerialSystem.withHistories (system : SerialSystem Value) (called : List DeviceCall)
    (published : List PubMsg) : SerialSystem Value :=
  { system with called := called, published := published }

/-- A step that nothing is told to from outside. -/
def SystemLabel.silent : SystemLabel → Bool
  | .call _ | .publish _ => false
  | .print _ | .onRxd _ _ _ _ | .invoke _ | .waitInvoker _ _ _ _ => true

section

variable {tiny : Tiny Value} {system : SerialSystem Value} {label : SystemLabel}
  (called : List DeviceCall) (published : List PubMsg)

theorem decode_withHistories (system : SerialSystem Value) (chunk : List (Marked UInt8))
    (readings : Nat → UInt64) (finish : UInt64) :
    (system.withHistories called published).decode chunk readings finish =
      (system.decode chunk readings finish).map (·.withHistories called published) := by
  unfold SerialSystem.decode
  rw [Option.map_map]
  rfl

theorem handle_withHistories (system : SerialSystem Value) (frame : Bytes) (msgTypes : MsgTypes) :
    (system.withHistories called published).handle tiny frame msgTypes =
      (system.handle tiny frame msgTypes).map (·.withHistories called published) := by
  unfold SerialSystem.handle
  rw [Option.map_map]
  rfl

theorem txd_withHistories (system : SerialSystem Value) (frame : Bytes)
    (transmission : Transmission) :
    (system.withHistories called published).txd frame transmission =
      (system.txd frame transmission).map (·.withHistories called published) := by
  unfold SerialSystem.txd
  rw [Option.map_map]
  rfl

/-- A silent step does not look at the histories of what has gone in. -/
theorem step_silent (silent : label.silent = true) :
    systemStep tiny (system.withHistories called published) label =
      (systemStep tiny system label).map (·.withHistories called published) := by
  cases label with
  | call call => cases silent
  | publish msg => cases silent
  | print word => rfl
  | onRxd count readings finish msgTypes =>
    rw [systemStep, systemStep]
    change (if count ≤ system.down.length then _ else none) = _
    split
    · unfold SerialSystem.onRxd
      rw [Option.map_bind]
      refine Option.bind_congr fun handled _ => ?_
      rw [Function.comp_apply, Option.map_map]
      rfl
    · rfl
  | invoke count =>
    rw [systemStep, systemStep]
    change (if count ≤ system.up.length then _ else none) = _
    split <;> rfl
  | waitInvoker readings finish msgTypes transmission =>
    show (system.withHistories called published).waitInvoker tiny readings finish msgTypes
      transmission = (system.waitInvoker tiny readings finish msgTypes transmission).map _
    let invoked :=
      { system with
        proxy := { system.proxy with session := system.proxy.session.waitInvoker serialLayout } }
    unfold SerialSystem.waitInvoker
    dsimp only [SerialSystem.withHistories]
    cases system.proxy.session.pipe with
    | nil => rfl
    | cons flow rest =>
      cases flow with
      | incomingSerial =>
        dsimp only
        cases ((system.proxy.session.memory .incomingSerial).pop tenPlaces).1 with
        | none => rfl
        | some chunk =>
          exact decode_withHistories called published invoked chunk readings finish
      | incomingMessage =>
        dsimp only
        cases ((system.proxy.session.memory .incomingMessage).pop tenPlaces).1 with
        | none => rfl
        | some frame =>
          exact handle_withHistories called published invoked frame msgTypes
      | outgoingMessage =>
        dsimp only
        cases ((system.proxy.session.memory .outgoingMessage).pop tenPlaces).1 with
        | none => rfl
        | some frame => exact txd_withHistories called published invoked frame transmission

theorem orderly_withHistories :
    orderly (system.withHistories called published) label = orderly system label := by
  cases label <;> rfl

/-- A call is added to whatever history there is, if its frame is written. -/
theorem call_withHistories (call : DeviceCall) :
    ∃ added : List DeviceCall, ∀ called published : _,
      (system.withHistories called published).call tiny call =
        (system.call tiny call).map (·.withHistories (called ++ added) published) := by
  unfold SerialSystem.call
  dsimp only [SerialSystem.withHistories]
  cases call.send tiny.deviceEncoder system.device.toCbor with
  | none => exact ⟨[], fun _ _ => rfl⟩
  | some sent =>
    obtain ⟨frame, toCbor⟩ := sent
    cases frame with
    | none => exact ⟨[], fun called _ => by rw [List.append_nil]; rfl⟩
    | some frame => exact ⟨[call], fun _ _ => rfl⟩

/-- A message is added to whatever history there is, if it is serialised. -/
theorem publish_withHistories (msg : PubMsg) :
    ∃ added : List PubMsg, ∀ called published : _,
      (system.withHistories called published).publish tiny msg =
        (system.publish tiny msg).map (·.withHistories called (published ++ added)) := by
  unfold SerialSystem.publish
  dsimp only [SerialSystem.withHistories]
  cases brokerIncoming tiny.proxyEncoder system.proxy.toCbor msg with
  | none => exact ⟨[], fun _ _ => rfl⟩
  | some sent =>
    obtain ⟨frame, toCbor⟩ := sent
    cases frame with
    | none => exact ⟨[], fun _ published => by rw [List.append_nil]; rfl⟩
    | some frame => exact ⟨[msg], fun _ _ => rfl⟩

/-- Whatever the histories of what has gone in are, a step does the same, and adds the same to
them. -/
theorem step_withHistories (system : SerialSystem Value) (label : SystemLabel) :
    ∃ (calls : List DeviceCall) (msgs : List PubMsg), ∀ called published,
      systemStep tiny (system.withHistories called published) label =
        (systemStep tiny system label).map
          (·.withHistories (called ++ calls) (published ++ msgs)) := by
  by_cases silent : label.silent = true
  · refine ⟨[], [], fun called published => ?_⟩
    rw [List.append_nil, List.append_nil]
    exact step_silent called published silent
  · cases label with
    | call call =>
      obtain ⟨added, same⟩ : ∃ added, ∀ called published,
          (system.withHistories called published).call tiny call =
            (system.call tiny call).map (·.withHistories (called ++ added) published) :=
        call_withHistories call
      refine ⟨added, [], fun called published => ?_⟩
      rw [List.append_nil]
      exact same called published
    | publish msg =>
      obtain ⟨added, same⟩ : ∃ added, ∀ called published,
          (system.withHistories called published).publish tiny msg =
            (system.publish tiny msg).map (·.withHistories called (published ++ added)) :=
        publish_withHistories msg
      refine ⟨[], added, fun called published => ?_⟩
      rw [List.append_nil]
      exact same called published
    | print _ | onRxd _ _ _ _ | invoke _ | waitInvoker _ _ _ _ => exact absurd rfl silent

end

/-! ### What survives -/

/-- Nothing is lost, but by torn frames, of some of the calls and messages that have gone in. -/
def Survives (system : SerialSystem Value) : Prop :=
  ∃ called published, called.Sublist system.called ∧ published.Sublist system.published ∧
    Lossless (system.withHistories called published)

namespace Underway

variable {tiny : Tiny Value} {system next : SerialSystem Value}
  {items : (flow : SerialFlow) → List (SerialItem flow)} {upward : List Payload}
  {calls : List SentCall}

/-- The calls under way are the last of those made. Without some of them, the others are
accounted for. -/
theorem handled_without {first middle last : List SentCall}
    (handled : Fifo.Accounted (system.called.map DeviceCall.message) system.handled
      ((first ++ (middle ++ last)).map fun sent => sent.call.message)) (kept : Nat) :
    ∃ called : List DeviceCall, called.Sublist system.called ∧
      Fifo.Accounted (called.map DeviceCall.message) system.handled
        ((first ++ (middle.take kept ++ last)).map fun sent => sent.call.message) := by
  rw [Fifo.Accounted, List.map_append, List.map_append] at handled
  obtain ⟨before, after, same, sameHandled, rest⟩ := List.map_eq_append_iff.mp handled
  obtain ⟨afterFirst, others, rfl, sameFirst, rest⟩ := List.map_eq_append_iff.mp rest
  obtain ⟨afterMiddle, afterLast, rfl, sameMiddle, sameLast⟩ := List.map_eq_append_iff.mp rest
  refine ⟨before ++ (afterFirst ++ (afterMiddle.take kept ++ afterLast)), ?_, ?_⟩
  · rw [same]
    exact (List.Sublist.refl before).append ((List.Sublist.refl afterFirst).append
      ((List.take_sublist kept afterMiddle).append (List.Sublist.refl afterLast)))
  · rw [Fifo.Accounted, List.map_append, List.map_append, List.map_append, List.map_append,
      List.map_append, List.map_take, List.map_take, sameHandled, sameFirst, sameMiddle, sameLast]

/-- A pass that serves a chunk: the first of its frames go to `_incomingMessage`, as many as there
are places. -/
theorem waitInvoker_overflow (underway : Underway system items upward calls)
    (downward : Downward system (items .outgoingMessage)) {rest : List SerialFlow}
    (token : system.proxy.session.pipe = .incomingSerial :: rest) {readings : Nat → UInt64}
    {finish : UInt64} {msgTypes : MsgTypes} {transmission : Transmission}
    (met : orderly system (.waitInvoker readings finish msgTypes transmission) = true)
    (taken : system.waitInvoker tiny readings finish msgTypes transmission = some next) :
    Survives next := by
  obtain ⟨chunk, chunks, same, popped, accepted, held⟩ := underway.taken token
  have carries := underway.up
  rw [same, List.flatten_cons, List.append_assoc] at carries
  unfold orderly Proxy.decodesInTime at met
  simp only [token, underway.contents, same] at met
  obtain ⟨inTime, indices⟩ := (Bool.and_eq_true _ _).mp met
  have calm : Calm system.proxy.bytesToFrame.lastFrameFlag (timed chunk readings) finish
      (chunks.flatten ++ system.up) := calm_of_inTime inTime
  obtain ⟨receiver, events, received, later, handled, emitted, rfl, kept⟩ :=
    handleRxd_of_carries chunk readings finish carries calm
  rw [handled, Option.any_some] at indices
  have few : (system.proxy.session.accepted .incomingMessage).length +
      (emissions events).length < 2 ^ 64 := of_decide_eq_true indices
  have other : Function.update items .incomingSerial chunks .incomingMessage =
      items .incomingMessage := Function.update_of_ne (by decide) _ _
  obtain ⟨all, grown⟩ := Holding.onAll_take roomy held .incomingMessage (emissions events)
    (by rw [accepted]; exact few)
  rw [other] at all grown
  let places : Nat := 10 - (items .incomingMessage).length
  have notMore : ((emissions events).take places).length ≤ (emissions events).length :=
    List.length_take_le' places _
  have frames := underway.upFrames
  rw [List.map_append, ← emitted] at frames
  obtain ⟨queued, others, rfl, sameQueued, frames⟩ := List.map_eq_append_iff.mp frames.symm
  obtain ⟨arriving, behind, rfl, sameArriving, sameBehind⟩ := List.map_eq_append_iff.mp frames
  obtain ⟨called, fewer, accounted⟩ := handled_without underway.handled places
  have moved : Underway
      { system with
        proxy := { system.proxy with
          session := (system.proxy.session.waitInvoker serialLayout).onAll serialLayout pipeSize
            .incomingMessage (emissions events)
          bytesToFrame := receiver }
        called := called }
      (Function.update (Function.update items .incomingSerial chunks) .incomingMessage
        (items .incomingMessage ++ (emissions events).take places)) later
      (queued ++ (arriving.take places ++ behind)) :=
    { underway with
      holding := all
      few := fun flow => by
        rw [grown, accepted]
        refine underway.few_update (Nat.lt_of_le_of_lt ?_ few) flow
        exact Nat.add_le_add_left notMore _
      up := by
        rw [Function.update_of_ne (by decide), Function.update_self]
        exact kept
      upFrames := by
        rw [Function.update_self, List.map_append, List.map_append, List.map_take, sameQueued,
          sameArriving, sameBehind, List.append_assoc]
      handled := accounted }
  unfold SerialSystem.waitInvoker SerialSystem.decode at taken
  simp only [token, popped, handled, Option.map_some] at taken
  obtain rfl := Option.some.inj taken
  refine ⟨called, system.published, fewer, List.Sublist.refl _, _, later, _, moved, ?_⟩
  rw [Function.update_of_ne (by decide), Function.update_of_ne (by decide)]
  exact ⟨downward.coming, downward.intact⟩

/-- A message that finds no place is dropped. -/
theorem publish_refused (underway : Underway system items upward calls)
    (downward : Downward system (items .outgoingMessage)) {msg : PubMsg}
    (met : orderly system (.publish msg) = true) (full : ¬ (items .outgoingMessage).length < 10)
    (taken : system.publish tiny msg = some next) : Survives next := by
  obtain ⟨fits, indices⟩ := (Bool.and_eq_true _ _).mp met
  obtain ⟨-, short⟩ := (Bool.and_eq_true _ _).mp fits
  have length := length_arrayEncoding_publication msg
  have few : (system.proxy.session.accepted .outgoingMessage).length + 1 < 2 ^ 64 :=
    of_decide_eq_true indices
  have bound := of_decide_eq_true short
  have success := success_of_fits tiny.proxyEncoder system.proxy.toCbor (publicationArguments msg)
    (by rw [underway.proxyToCbor]; omega)
  have refused : system.proxy.session.on serialLayout pipeSize .outgoingMessage
      (arrayEncoding (publicationArguments msg)) = system.proxy.session :=
    underway.holding.on_of_full .outgoingMessage _ (Nat.lt_of_succ_lt few) full
  have moved : Underway
      { system with
        proxy := { system.proxy with
          toCbor := system.proxy.toCbor.serialize tiny.proxyEncoder (publicationArguments msg) } }
      items upward calls :=
    { underway with
      proxyToCbor := (congrArg Block.capacity (serialize_buffer tiny.proxyEncoder
        system.proxy.toCbor (publicationArguments msg))).trans underway.proxyToCbor }
  rw [SerialSystem.publish, brokerIncoming_of_success success, Option.map_some] at taken
  dsimp only at taken
  rw [refused] at taken
  obtain rfl := Option.some.inj taken
  exact ⟨system.called, system.published, List.Sublist.refl _, List.sublist_append_left _ _,
    items, upward, calls, moved, downward.coming, downward.intact⟩

end Underway

/-! ### Runs -/

theorem Lossless.survives {system : SerialSystem Value} (lossless : Lossless system) :
    Survives system :=
  ⟨system.called, system.published, List.Sublist.refl _, List.Sublist.refl _, lossless⟩

section

variable {tiny : Tiny Value} {system next : SerialSystem Value} {label : SystemLabel}

/-- Something survives an orderly step from a state in which nothing is lost. -/
theorem Lossless.step_orderly (lossless : Lossless system) (met : orderly system label = true)
    (taken : systemStep tiny system label = some next) : Survives next := by
  have careless : careful system label = true → Survives next :=
    fun met => (lossless.step met taken).survives
  cases label with
  | call _ | print _ | onRxd _ _ _ _ | invoke _ => exact careless met
  | waitInvoker readings finish msgTypes transmission =>
    cases token : system.proxy.session.pipe with
    | nil => exact careless (by simp only [careful, token])
    | cons flow rest =>
      cases flow with
      | incomingMessage | outgoingMessage => exact careless (by simp only [careful, token])
      | incomingSerial =>
        obtain ⟨items, upward, calls, underway, downward⟩ := lossless
        exact underway.waitInvoker_overflow downward token met taken
  | publish msg =>
    obtain ⟨items, upward, calls, underway, downward⟩ := lossless
    by_cases room : (items .outgoingMessage).length < 10
    · obtain ⟨fits, indices⟩ := (Bool.and_eq_true _ _).mp met
      have size : (system.proxy.session.memory .outgoingMessage).size tenPlaces =
          (items .outgoingMessage).length := underway.size .outgoingMessage
      refine careless ((Bool.and_eq_true _ _).mpr ⟨fits, (Bool.and_eq_true _ _).mpr ⟨?_, indices⟩⟩)
      rw [size]
      exact decide_eq_true room
    · exact underway.publish_refused downward met room taken

/-- Something survives an orderly step, since the same step with fewer histories loses nothing. -/
theorem Survives.step (survives : Survives system) (met : orderly system label = true)
    (taken : systemStep tiny system label = some next) : Survives next := by
  obtain ⟨called, published, fewer, less, lossless⟩ := survives
  obtain ⟨calls, msgs, same⟩ : ∃ (calls : List DeviceCall) (msgs : List PubMsg),
      ∀ called published, systemStep tiny (system.withHistories called published) label =
        (systemStep tiny system label).map
          (·.withHistories (called ++ calls) (published ++ msgs)) :=
    step_withHistories system label
  have shadow : systemStep tiny (system.withHistories called published) label =
      some (next.withHistories (called ++ calls) (published ++ msgs)) := by rw [same, taken]; rfl
  have own : next = next.withHistories (system.called ++ calls) (system.published ++ msgs) := by
    have step := same system.called system.published
    rw [taken] at step
    exact Option.some.inj (taken.symm.trans step)
  obtain ⟨left, rest, fewest, least, kept⟩ :=
    lossless.step_orderly ((orderly_withHistories called published).trans met) shadow
  refine ⟨left, rest, ?_, ?_, kept⟩
  · rw [own]
    exact fewest.trans (fewer.append (List.Sublist.refl calls))
  · rw [own]
    exact least.trans (less.append (List.Sublist.refl msgs))

end

/-- Eleven subscriptions in one chunk of the line, and a pass for the chunk and for each of the ten
frames that find a place. -/
def burst : List SystemLabel :=
  (List.range 11).map (fun place => .call (.subscribe [0x61 + UInt8.ofNat place])) ++
    .invoke 99 :: List.replicate 11 (pass 100)

end BrokerProxy.System
