/-
This file shows that the serial link delivers: in careful runs every call of the device
reaches the handlers of the proxy, and every message of the broker reaches `_incoming` of
the device, each once, unchanged and in the order in which it was made, whatever the
chunks, the passes of the worker thread and the traffic in the other direction are.

The invariant keeps track of what is under way. A call is in the line, in a chunk, in the
receiver's buffer or in the queue of frames; a message is in the queue of frames or in the
other line. Each step moves it on without changing the order.

A frame that `Serial::txd` tears loses its message. It does no more harm: what is left of it
stands between two flags, from where the decoder and the deserializer of the device do not
make another message. As long as no frame is torn, no message is lost.
-/

import BrokerProxy.Ppp.CutFrames
import BrokerProxy.System.SerialSystem

namespace BrokerProxy.System

open Codec Framing Limero Line Ppp Protocol Runs

variable {Value : Type}

/-! ### What is sent -/

/-- A call whose frame has been written. -/
structure SentCall where
  call : DeviceCall
  noNul : call.NoNul
  fits : (arrayEncoding call.arguments).length ≤ 100

/-- A message whose frame has been passed to the session. -/
structure SentMsg where
  msg : PubMsg
  noNul : 0 ∉ msg.topic
  fits : (arrayEncoding (publicationArguments msg)).length ≤ 100

theorem arrayEncoding_ne_nil (arguments : List Argument) : arrayEncoding arguments ≠ [] :=
  List.cons_ne_nil _ _

def SentCall.frame (sent : SentCall) : Bytes := arrayEncoding sent.call.arguments

def SentMsg.frame (sent : SentMsg) : Bytes := arrayEncoding (publicationArguments sent.msg)

/-- A call for which the serializer does not report success sends nothing. -/
theorem send_refused {width : Nat} {encoder : TinyCborEncoder width}
    {toCbor : CborSerializer width} {call : DeviceCall}
    (failed : ¬ (toCbor.serialize encoder call.arguments).success = true) :
    call.send encoder toCbor = some (none, toCbor.serialize encoder call.arguments) := by
  have same : call.send encoder toCbor = toSerialFrame encoder toCbor call.arguments := by
    cases call <;> rfl
  rw [same, toSerialFrame, if_neg failed]

/-- A frame of a call comes out of the filters as its message. -/
theorem SentCall.incoming (sent : SentCall) (decoder : TinyCborDecoder Value)
    {fromCbor : CborDeserializer Value} (capacity : fromCbor.capacity = 1024)
    (msgTypes : MsgTypes) :
    ∃ after, Protocol.incoming decoder fromCbor sent.frame msgTypes =
      some ([sent.call.message], after) := by
  obtain ⟨call, noNul, fits⟩ := sent
  have received : (arrayEncoding call.arguments).take fromCbor.capacity =
      arrayEncoding call.arguments := List.take_of_length_le (by omega)
  cases call with
  | publish topic bs =>
    have length : (arrayEncoding (publicationArguments { topic := topic, payload := bs })).length =
        Cbor.stringLength topic + Cbor.stringLength bs + 3 := length_arrayEncoding_publication _
    have topicShort := Cbor.length_le_stringLength topic
    have payloadShort := Cbor.length_le_stringLength bs
    have short : (arrayEncoding (publicationArguments { topic := topic, payload := bs })).length ≤
        100 := fits
    obtain ⟨after, emitted⟩ := incoming_publication decoder msgTypes
      (show topic.length < 2 ^ 64 by omega) (show bs.length < 2 ^ 64 by omega) received
    rw [cString_of_no_nul noNul] at emitted
    exact ⟨after, emitted⟩
  | subscribe text | sendNode text =>
    obtain ⟨after, emitted⟩ := incoming_text decoder msgTypes (length_lt_of_fits fits) received
    rw [cString_of_no_nul noNul] at emitted
    exact ⟨after, emitted⟩

/-- The filters do not change the size of the deserializer. -/
theorem incoming_capacity {decoder : TinyCborDecoder Value}
    {fromCbor after : CborDeserializer Value} {frame : Bytes} {msgTypes : MsgTypes}
    {msgs : List ProxyMsg}
    (got : Protocol.incoming decoder fromCbor frame msgTypes = some (msgs, after)) :
    after.capacity = fromCbor.capacity := by
  obtain ⟨pub, gotPub, rest⟩ := Option.bind_eq_some_iff.mp got
  obtain ⟨sub, gotSub, rest⟩ := Option.bind_eq_some_iff.mp rest
  obtain ⟨node, gotNode, same⟩ := Option.map_eq_some_iff.mp rest
  obtain ⟨pattern, readSub, rfl⟩ := Option.map_eq_some_iff.mp gotSub
  obtain ⟨name, readNode, rfl⟩ := Option.map_eq_some_iff.mp gotNode
  obtain ⟨-, rfl⟩ := Prod.mk.inj same
  calc name.2.capacity = pattern.2.capacity := readText_capacity readNode
    _ = pub.2.capacity := readText_capacity readSub
    _ = fromCbor.capacity := readPublish_capacity gotPub

/-- A frame of a message is decoded on the device. -/
theorem SentMsg.received (sent : SentMsg) (decoder : TinyCborDecoder Value)
    {fromCbor : CborDeserializer Value} (capacity : fromCbor.capacity = 100) (msgType : Int32) :
    ∃ after, fromSerialFrame decoder fromCbor sent.frame msgType = some (some sent.msg, after) ∧
      after.capacity = 100 := by
  have length := length_arrayEncoding_publication sent.msg
  have topicShort := Cbor.length_le_stringLength sent.msg.topic
  have payloadShort := Cbor.length_le_stringLength sent.msg.payload
  have fits := sent.fits
  obtain ⟨after, got⟩ := fromSerialFrame_of_fits decoder sent.noNul
    (show sent.msg.topic.length < 2 ^ 64 by omega) (show sent.msg.payload.length < 2 ^ 64 by omega)
    (fits.trans capacity.ge) msgType
  exact ⟨after, got, (readPublish_capacity got).trans capacity⟩

/-- The frames of messages are all decoded on the device, in order. -/
theorem deliver_sent (decoder : TinyCborDecoder Value) (sent : List SentMsg) :
    ∀ {fromCbor : CborDeserializer Value} (msgTypes : Nat → Int32), fromCbor.capacity = 100 →
      ∃ after, deliver decoder fromCbor msgTypes (sent.map SentMsg.frame) =
          some (sent.map SentMsg.msg, after) ∧ after.capacity = 100 := by
  induction sent with
  | nil => exact fun _ capacity => ⟨_, rfl, capacity⟩
  | cons first rest inductionHypothesis =>
    intro fromCbor msgTypes capacity
    obtain ⟨middle, received, same⟩ := first.received decoder capacity (msgTypes 0)
    obtain ⟨after, delivered, last⟩ := inductionHypothesis (fun place => msgTypes (place + 1)) same
    refine ⟨after, ?_, last⟩
    rw [List.map_cons, deliver, received, Option.bind_some, delivered]
    rfl

/-- A beginning of the frame of a message gives this message or none. -/
theorem SentMsg.cut (sent : SentMsg) {decoder : TinyCborDecoder Value}
    {fromCbor after : CborDeserializer Value} {frame : Bytes} {msgType : Int32}
    {got : Option PubMsg} (capacity : fromCbor.capacity = 100) (part : frame <+: sent.frame)
    (received : fromSerialFrame decoder fromCbor frame msgType = some (got, after)) :
    got.toList.Sublist [sent.msg] ∧ after.capacity = 100 := by
  refine ⟨?_, (readPublish_capacity received).trans capacity⟩
  cases got with
  | none => exact List.nil_sublist _
  | some msg =>
    have length := length_arrayEncoding_publication sent.msg
    have topicShort := Cbor.length_le_stringLength sent.msg.topic
    have payloadShort := Cbor.length_le_stringLength sent.msg.payload
    have fits := sent.fits
    obtain rfl : msg = sent.msg := fromSerialFrame_of_prefix decoder sent.noNul
      (show sent.msg.topic.length < 2 ^ 64 by omega)
      (show sent.msg.payload.length < 2 ^ 64 by omega) (fits.trans capacity.ge) part received
    exact List.Sublist.refl _

/-- Beginnings of frames give some of the messages, in order. -/
theorem deliver_cut {decoder : TinyCborDecoder Value} {frames : List Bytes} :
    ∀ {sent : List SentMsg} {fromCbor after : CborDeserializer Value} {msgTypes : Nat → Int32}
      {msgs : List PubMsg}, fromCbor.capacity = 100 →
        List.Forall₂ (fun frame sent => frame <+: SentMsg.frame sent) frames sent →
          deliver decoder fromCbor msgTypes frames = some (msgs, after) →
            msgs.Sublist (sent.map SentMsg.msg) ∧ after.capacity = 100 := by
  induction frames with
  | nil =>
    intro sent fromCbor after msgTypes msgs capacity _ delivered
    cases delivered
    exact ⟨List.nil_sublist _, capacity⟩
  | cons frame rest inductionHypothesis =>
    intro sent fromCbor after msgTypes msgs capacity cut delivered
    obtain ⟨first, others, part, cutLater, rfl⟩ := List.forall₂_cons_left_iff.mp cut
    obtain ⟨⟨got, middle⟩, received, remaining⟩ := Option.bind_eq_some_iff.mp delivered
    obtain ⟨⟨later, last⟩, deliveredLater, same⟩ := Option.map_eq_some_iff.mp remaining
    cases same
    obtain ⟨one, kept⟩ := first.cut capacity part received
    obtain ⟨all, final⟩ := inductionHypothesis kept cutLater deliveredLater
    exact ⟨one.append all, final⟩

/-! ### What is under way -/

/-- A session with what its queues hold, and the payloads and calls under way to the proxy. -/
structure Underway (system : SerialSystem Value)
    (items : (flow : SerialFlow) → List (SerialItem flow)) (upward : List Payload)
    (calls : List SentCall) : Prop where
  holding : Holding serialLayout system.proxy.session items
  few : ∀ flow, (system.proxy.session.accepted flow).length < 2 ^ 64
  deviceToCbor : system.device.toCbor.buffer.capacity = 100
  deviceFromCbor : system.device.fromCbor.capacity = 100
  proxyToCbor : system.proxy.toCbor.buffer.capacity = 1024
  proxyFromCbor : system.proxy.fromCbor.capacity = 1024
  up : pppFramer.Carries system.proxy.bytesToFrame.inputFrame
    ((items .incomingSerial).flatten ++ system.up) system.text upward
  free : flagChar ∉ system.device.fromSerialFrame.inputFrame
  upFrames : items .incomingMessage ++ upward.map Payload.bytes = calls.map SentCall.frame
  handled : Fifo.Accounted (system.called.map DeviceCall.message) system.handled
    (calls.map fun sent => sent.call.message)

/-- Some of the messages published are on the line to the device, or their frames are among those
that wait for it. The line has at least beginnings of their frames. -/
def Coming (system : SerialSystem Value) (waiting : List Bytes) : Prop :=
  ∃ onLine queued : List SentMsg,
    CutFrames (parts flagChar system.device.fromSerialFrame.inputFrame
      (system.down.map Marked.symbol)) (onLine.map SentMsg.frame) ∧
    waiting = queued.map SentMsg.frame ∧
    (system.delivered ++ (onLine ++ queued).map SentMsg.msg).Sublist system.published

/-- All the messages that are published and not delivered are on the line, or their frames wait for
it. -/
def Intact (system : SerialSystem Value) (waiting : List Bytes) : Prop :=
  ∃ (downward : List Payload) (msgs : List SentMsg),
    pppFramer.Carries system.device.fromSerialFrame.inputFrame system.down [] downward ∧
    downward.map Payload.bytes ++ waiting = msgs.map SentMsg.frame ∧
    Fifo.Accounted system.published system.delivered (msgs.map SentMsg.msg)

/-- What is under way to the device. -/
structure Downward (system : SerialSystem Value) (waiting : List Bytes) : Prop where
  coming : Coming system waiting
  intact : system.torn = 0 → Intact system waiting

/-- Something is under way, and nothing is lost but by torn frames. -/
def Lossless (system : SerialSystem Value) : Prop :=
  ∃ items upward calls, Underway system items upward calls ∧
    Downward system (items .outgoingMessage)

/-! ### The way down -/

/-- What goes onto the line is what the port has sent of the frame. -/
theorem symbols_sent {serial : Session.Serial} {frame : Bytes} {transmission : Transmission}
    {rc : Nat} {line : Session.Line}
    (returned : serial.txd ⟨[], []⟩ (pppFrame frame) transmission.attempts
      transmission.flushPace = some (rc, line)) :
    ((lineFrame frame).take line.sent.length).map Marked.symbol = line.sent := by
  rw [List.map_take, symbols_lineFrame]
  exact (List.prefix_iff_eq_take.mp (Session.txd_idle returned).2).symm

/-- The line gets a beginning of the frame, and all of it unless the frame is counted as torn. -/
theorem SerialSystem.txd_cases {system next : SerialSystem Value} {frame : Bytes}
    {transmission : Transmission} (taken : system.txd frame transmission = some next) :
    ∃ (beginning : List (Marked UInt8)) (torn : Nat),
      beginning.map Marked.symbol <+: pppFrame frame ∧ (torn = 0 → beginning = lineFrame frame) ∧
      next = { system with down := system.down ++ beginning, torn := system.torn + torn } := by
  obtain ⟨⟨rc, line⟩, returned, rfl⟩ := Option.map_eq_some_iff.mp taken
  refine ⟨(lineFrame frame).take line.sent.length, if line.sent = pppFrame frame then 0 else 1,
    ?_, fun whole => ?_, rfl⟩
  · rw [symbols_sent returned]
    exact (Session.txd_idle returned).2
  · have all : line.sent = pppFrame frame := by
      by_contra less
      rw [if_neg less] at whole
      cases whole
    rw [all, ← symbols_lineFrame, List.length_map, List.take_length]

namespace Downward

variable {tiny : Tiny Value} {system next : SerialSystem Value} {waiting : List Bytes}

/-- The device reads: what the chunk makes of the frames on the line is delivered. -/
theorem onRxd (downward : Downward system waiting) {count : Nat} {readings : Nat → UInt64}
    {finish : UInt64} {msgTypes : Nat → Int32} {receiver : BytesToFrame}
    {events : List FrameEvent} {msgs : List PubMsg} {fromCbor : CborDeserializer Value}
    (capacity : system.device.fromCbor.capacity = 100)
    (onTime : ¬ finish - lastFlag system.device.fromSerialFrame.lastFrameFlag
      (timed (system.down.take count) readings) > frameTimeout)
    (handled : handleRxd system.device.fromSerialFrame
      ⟨timed (system.down.take count) readings, finish⟩ = some (receiver, events))
    (delivered : deliver tiny.decoder system.device.fromCbor msgTypes (emissions events) =
      some (msgs, fromCbor)) :
    fromCbor.capacity = 100 ∧
      Downward
        { system with
          device := { system.device with fromSerialFrame := receiver, fromCbor := fromCbor }
          down := system.down.drop count
          delivered := system.delivered ++ msgs } waiting := by
  obtain ⟨onLine, queued, pieces, same, order⟩ := downward.coming
  rw [← List.take_append_drop count system.down] at pieces
  obtain ⟨read, left, origins, split, rest, among, cut⟩ := handleRxd_of_cut onTime pieces handled
  obtain ⟨first, later, rfl, rfl, rfl⟩ := List.map_eq_append_iff.mp split
  obtain ⟨senders, someOf, rfl⟩ := List.sublist_map_iff.mp among
  obtain ⟨fewer, kept⟩ := deliver_cut capacity (List.forall₂_map_right_iff.mp cut) delivered
  refine ⟨kept, ⟨later, queued, rest, same, ?_⟩, fun untorn => ?_⟩
  · refine List.Sublist.trans ?_ order
    have sent : ((first ++ later) ++ queued).map SentMsg.msg =
        first.map SentMsg.msg ++ (later ++ queued).map SentMsg.msg := by
      rw [List.append_assoc, List.map_append]
    rw [sent, List.append_assoc]
    exact (List.Sublist.refl system.delivered).append
      ((fewer.trans (someOf.map SentMsg.msg)).append (List.Sublist.refl _))
  · obtain ⟨payloads, sent, carries, frames, accounted⟩ := downward.intact untorn
    rw [← List.take_append_drop count system.down] at carries
    obtain ⟨other, others, received, remaining, handledSame, emitted, rfl, kept⟩ :=
      handleRxd_of_carries _ readings finish carries fun late => absurd late onTime
    cases handledSame.symm.trans handled
    rw [List.map_append, List.append_assoc, ← emitted] at frames
    obtain ⟨arrived, behind, rfl, taken, lasting⟩ := List.map_eq_append_iff.mp frames.symm
    obtain ⟨after, deliveredSame, -⟩ := deliver_sent tiny.decoder arrived msgTypes capacity
    rw [taken, delivered] at deliveredSame
    cases deliveredSame
    refine ⟨remaining, behind, kept, lasting.symm, ?_⟩
    rw [Fifo.Accounted, List.map_append, ← List.append_assoc] at accounted
    exact accounted

/-- The port gets the frame that has waited longest. -/
theorem txd {frame : Bytes} (downward : Downward system (frame :: waiting))
    {transmission : Transmission} (taken : system.txd frame transmission = some next) :
    Downward next waiting := by
  obtain ⟨beginning, torn, part, whole, rfl⟩ := SerialSystem.txd_cases taken
  refine ⟨?_, fun untorn => ?_⟩
  · obtain ⟨onLine, queued, pieces, same, order⟩ := downward.coming
    obtain ⟨first, later, rfl, rfl, rfl⟩ := List.map_eq_cons_iff.mp same.symm
    obtain ⟨added, most, written⟩ := pieces.write part
    obtain ⟨extra, atMost, rfl⟩ :=
      List.sublist_map_iff.mp (show added.Sublist ([first].map SentMsg.frame) from most)
    rw [← List.map_append] at written
    refine ⟨onLine ++ extra, later, written, rfl, List.Sublist.trans ?_ order⟩
    rw [List.append_assoc]
    exact (List.Sublist.refl _).append (((List.Sublist.refl onLine).append
      (atMost.append (List.Sublist.refl later))).map _)
  · obtain ⟨before, complete⟩ := Nat.add_eq_zero_iff.mp untorn
    obtain ⟨payloads, sent, carries, frames, accounted⟩ := downward.intact before
    obtain ⟨onLine, others, rfl, sentSame, rest⟩ := List.map_eq_append_iff.mp frames.symm
    obtain ⟨first, later, rfl, rfl, remaining⟩ := List.map_eq_cons_iff.mp rest
    let payload : Payload := ⟨first.frame, arrayEncoding_ne_nil _⟩
    have written := carries.write (by decide +kernel : quiet [] = true) payload
    rw [← lineFrame_payload] at written
    refine ⟨payloads ++ [payload], onLine ++ first :: later, ?_, ?_, accounted⟩
    · rw [whole complete]
      exact written
    · rw [List.map_append, List.map_append, sentSame, List.map_cons, List.append_assoc,
        ← remaining]
      rfl

/-- A message is published, and its frame waits. -/
theorem push (downward : Downward system waiting) (sent : SentMsg) :
    Downward { system with published := system.published ++ [sent.msg] }
      (waiting ++ [sent.frame]) := by
  refine ⟨?_, fun untorn => ?_⟩
  · obtain ⟨onLine, queued, pieces, rfl, order⟩ := downward.coming
    refine ⟨onLine, queued ++ [sent], pieces, ?_, ?_⟩
    · rw [List.map_append, List.map_singleton]
    · rw [← List.append_assoc, List.map_append, ← List.append_assoc]
      exact order.append (List.Sublist.refl [sent.msg])
  · obtain ⟨payloads, msgs, carries, frames, accounted⟩ := downward.intact untorn
    refine ⟨payloads, msgs ++ [sent], carries, ?_, ?_⟩
    · rw [← List.append_assoc, frames, List.map_append]
      rfl
    · rw [List.map_append]
      exact accounted.push sent.msg

end Downward

namespace Underway

variable {tiny : Tiny Value} {system next : SerialSystem Value}
  {items : (flow : SerialFlow) → List (SerialItem flow)} {upward : List Payload}
  {calls : List SentCall}

/-- The size of a queue is what its memory shows. -/
theorem size (underway : Underway system items upward calls) (flow : SerialFlow) :
    (system.proxy.session.memory flow).size tenPlaces = (items flow).length :=
  (underway.holding flow).window.size_eq
    ((underway.holding flow).length_accepted ▸ underway.few flow)

/-- What a queue holds is what the memory of the queue shows. -/
theorem contents (underway : Underway system items upward calls)
    (flow : SerialFlow) :
    (system.proxy.session.memory flow).contents tenPlaces = items flow :=
  Holding.contents underway.holding flow (underway.few flow)

/-- What the test for room means. -/
theorem room (underway : Underway system items upward calls) {flow : SerialFlow}
    {count : Nat} (roomy : system.hasRoom flow count = true) :
    (system.proxy.session.accepted flow).length + count < 2 ^ 64 ∧
      (items flow).length + count ≤ 10 := by
  obtain ⟨places, few⟩ := (Bool.and_eq_true _ _).mp roomy
  rw [underway.size] at places
  exact ⟨of_decide_eq_true few, of_decide_eq_true places⟩

/-- The pipe has a place for each token. -/
theorem roomy : ∑ flow, (serialLayout flow).capacity ≤ pipeSize := by decide

/-- After values are put into one queue, no queue has had too many. -/
theorem few_update (underway : Underway system items upward calls)
    {flow : SerialFlow} {values : List (SerialItem flow)}
    (small : (system.proxy.session.accepted flow).length + values.length < 2 ^ 64)
    (other : SerialFlow) :
    (Function.update system.proxy.session.accepted flow
      (system.proxy.session.accepted flow ++ values) other).length < 2 ^ 64 := by
  by_cases same : other = flow
  · subst same
    rw [Function.update_self, List.length_append]
    exact small
  · rw [Function.update_of_ne same]
    exact underway.few other

/-! ### Steps of the device -/

/-- A call for which the serializer reports success adds its frame to the line. -/
theorem call_sent (underway : Underway system items upward calls)
    (downward : Downward system (items .outgoingMessage)) {call : DeviceCall}
    (met : careful system (.call call) = true)
    (success : (system.device.toCbor.serialize tiny.deviceEncoder call.arguments).success = true)
    (taken : system.call tiny call = some next) : Lossless next := by
  obtain ⟨silent, noNul⟩ := (Bool.and_eq_true _ _).mp met
  have fits := (toBytes_of_success tiny.deviceEncoder system.device.toCbor _ success).1
  rw [underway.deviceToCbor] at fits
  let sent : SentCall := ⟨call, of_decide_eq_true noNul, fits⟩
  let payload : Payload := ⟨sent.frame, arrayEncoding_ne_nil _⟩
  have written := underway.up.write silent payload
  rw [← lineFrame_payload, List.append_assoc] at written
  have moved : Underway
      { system with
        device := { system.device with
          toCbor := system.device.toCbor.serialize tiny.deviceEncoder call.arguments }
        up := system.up ++ lineFrame sent.frame
        text := []
        called := system.called ++ [call] }
      items (upward ++ [payload]) (calls ++ [sent]) :=
    { underway with
      deviceToCbor := (congrArg Block.capacity
        (serialize_buffer tiny.deviceEncoder system.device.toCbor call.arguments)).trans
          underway.deviceToCbor
      up := written
      upFrames := by
        rw [List.map_append, ← List.append_assoc, underway.upFrames, List.map_append]
        rfl
      handled := by
        have accounted := underway.handled.push call.message
        rw [List.map_append, List.map_append]
        exact accounted }
  rw [SerialSystem.call, DeviceCall.send_of_success success] at taken
  obtain rfl := Option.some.inj taken
  exact ⟨_, _, _, moved, downward.coming, downward.intact⟩

/-- A call for which the serializer does not report success writes nothing. -/
theorem call_refused (underway : Underway system items upward calls)
    (downward : Downward system (items .outgoingMessage)) {call : DeviceCall}
    (failed : ¬ (system.device.toCbor.serialize tiny.deviceEncoder call.arguments).success = true)
    (taken : system.call tiny call = some next) : Lossless next := by
  have moved : Underway
      { system with
        device := { system.device with
          toCbor := system.device.toCbor.serialize tiny.deviceEncoder call.arguments } }
      items upward calls :=
    { underway with
      deviceToCbor := (congrArg Block.capacity
        (serialize_buffer tiny.deviceEncoder system.device.toCbor call.arguments)).trans
          underway.deviceToCbor }
  rw [SerialSystem.call, send_refused failed] at taken
  obtain rfl := Option.some.inj taken
  exact ⟨_, _, _, moved, downward.coming, downward.intact⟩

/-- Text between frames. -/
theorem print (underway : Underway system items upward calls) {word : Bytes}
    (free : flagChar ∉ word) : Underway (system.print word) items upward calls := by
  have printed := underway.up.print free
  rw [List.append_assoc] at printed
  exact { underway with up := printed }

/-- The device reads, and echoes what is not a frame. -/
theorem onRxd (underway : Underway system items upward calls)
    (downward : Downward system (items .outgoingMessage)) {count : Nat}
    {readings : Nat → UInt64} {finish : UInt64} {msgTypes : Nat → Int32}
    (met : careful system (.onRxd count readings finish msgTypes) = true)
    (taken : system.onRxd tiny count readings finish msgTypes = some next) : Lossless next := by
  rw [careful, decide_eq_true_eq] at met
  have onTime : ¬ finish - lastFlag system.device.fromSerialFrame.lastFrameFlag
      (timed (system.down.take count) readings) > frameTimeout := UInt64.not_lt.mpr met
  obtain ⟨⟨receiver, events⟩, handled, rest⟩ := Option.bind_eq_some_iff.mp taken
  obtain ⟨⟨msgs, fromCbor⟩, delivered, rfl⟩ := Option.map_eq_some_iff.mp rest
  have looped := (handleRxd_onTime system.device.fromSerialFrame
    ⟨timed (system.down.take count) readings, finish⟩ onTime).symm.trans handled
  have echo := echoes_rxdLoop _ underway.free looped
  obtain ⟨capacity, arrived⟩ :=
    downward.onRxd underway.deviceFromCbor onTime handled delivered
  have moved : Underway
      { system with
        device := { system.device with fromSerialFrame := receiver, fromCbor := fromCbor }
        down := system.down.drop count
        delivered := system.delivered ++ msgs }
      items upward calls :=
    { underway with
      deviceFromCbor := capacity
      free := rxdLoop_free underway.free looped }
  exact ⟨items, upward, calls, moved.print echo, arrived.coming, arrived.intact⟩

/-! ### Steps of the proxy -/

/-- The proxy reads a chunk into `_incomingSerial`. -/
theorem invoke (underway : Underway system items upward calls)
    (downward : Downward system (items .outgoingMessage)) {count : Nat}
    (met : careful system (.invoke count) = true) : Lossless (system.invoke count) := by
  obtain ⟨few, places⟩ := underway.room met
  obtain ⟨stepped, held⟩ := Holding.on roomy underway.holding .incomingSerial
    (system.up.take count) (Nat.lt_of_succ_lt few) places
  have accepted : (system.proxy.session.on serialLayout pipeSize .incomingSerial
      (system.up.take count)).accepted = Function.update system.proxy.session.accepted
        .incomingSerial (system.proxy.session.accepted .incomingSerial ++
          [system.up.take count]) := by rw [stepped]
  have carries := underway.up
  rw [← List.take_append_drop count system.up, ← List.append_assoc] at carries
  refine ⟨_, upward, calls,
    { underway with
      holding := held
      few := fun other => accepted ▸ underway.few_update few other
      up := by
        rw [Function.update_self, List.flatten_append, List.flatten_singleton]
        exact carries }, ?_⟩
  rw [Function.update_of_ne (by decide)]
  exact ⟨downward.coming, downward.intact⟩

/-- A pass that finds no token. -/
theorem waitInvoker_nil (underway : Underway system items upward calls)
    (downward : Downward system (items .outgoingMessage))
    (empty : system.proxy.session.pipe = []) {readings : Nat → UInt64} {finish : UInt64}
    {msgTypes : MsgTypes} {transmission : Transmission}
    (taken : system.waitInvoker tiny readings finish msgTypes transmission = some next) :
    Lossless next := by
  have unchanged : system.proxy.session.waitInvoker serialLayout = system.proxy.session := by
    rw [PipelineState.waitInvoker, empty]
  unfold SerialSystem.waitInvoker at taken
  simp only [empty, unchanged] at taken
  obtain rfl := Option.some.inj taken
  exact ⟨items, upward, calls, underway, downward⟩

/-- What a pass leaves of the system when it has taken a value out of its queue. -/
theorem taken (underway : Underway system items upward calls) {flow : SerialFlow}
    {rest : List SerialFlow} (token : system.proxy.session.pipe = flow :: rest) :
    ∃ oldest later, items flow = oldest :: later ∧
      ((system.proxy.session.memory flow).pop tenPlaces).1 = some oldest ∧
      (system.proxy.session.waitInvoker serialLayout).accepted = system.proxy.session.accepted ∧
      Holding serialLayout (system.proxy.session.waitInvoker serialLayout)
        (Function.update items flow later) := by
  obtain ⟨oldest, later, same, popped, stepped, held⟩ :=
    underway.holding.waitInvoker token (underway.few flow)
  exact ⟨oldest, later, same, popped, by rw [stepped], held⟩

/-- A pass that serves a chunk: its frames go to `_incomingMessage`. -/
theorem waitInvoker_chunk (underway : Underway system items upward calls)
    (downward : Downward system (items .outgoingMessage)) {rest : List SerialFlow}
    (token : system.proxy.session.pipe = .incomingSerial :: rest) {readings : Nat → UInt64}
    {finish : UInt64} {msgTypes : MsgTypes} {transmission : Transmission}
    (met : careful system (.waitInvoker readings finish msgTypes transmission) = true)
    (taken : system.waitInvoker tiny readings finish msgTypes transmission = some next) :
    Lossless next := by
  obtain ⟨chunk, chunks, same, popped, accepted, held⟩ := underway.taken token
  have carries := underway.up
  rw [same, List.flatten_cons, List.append_assoc] at carries
  unfold careful at met
  simp only [token, underway.contents, same] at met
  obtain ⟨inTime, room⟩ := (Bool.and_eq_true _ _).mp met
  have calm : Calm system.proxy.bytesToFrame.lastFrameFlag (timed chunk readings) finish
      (chunks.flatten ++ system.up) := calm_of_inTime inTime
  obtain ⟨receiver, events, received, later, handled, emitted, rfl, kept⟩ :=
    handleRxd_of_carries chunk readings finish carries calm
  rw [handled, Option.any_some] at room
  obtain ⟨few, places⟩ := underway.room room
  have other : Function.update items .incomingSerial chunks .incomingMessage =
      items .incomingMessage := Function.update_of_ne (by decide) _ _
  obtain ⟨all, grown⟩ := Holding.onAll roomy .incomingMessage (emissions events) held
    (by rw [accepted]; exact few) (by rw [other]; exact places)
  rw [other] at all
  have moved : Underway
      { system with
        proxy := { system.proxy with
          session := (system.proxy.session.waitInvoker serialLayout).onAll serialLayout pipeSize
            .incomingMessage (emissions events)
          bytesToFrame := receiver } }
      (Function.update (Function.update items .incomingSerial chunks) .incomingMessage
        (items .incomingMessage ++ emissions events)) later calls :=
    { underway with
      holding := all
      few := fun flow => by
        rw [grown, accepted]
        exact underway.few_update few flow
      up := by
        rw [Function.update_of_ne (by decide), Function.update_self]
        exact kept
      upFrames := by
        have frames := underway.upFrames
        rw [List.map_append, ← List.append_assoc, ← emitted] at frames
        rw [Function.update_self]
        exact frames }
  unfold SerialSystem.waitInvoker SerialSystem.decode at taken
  simp only [token, popped, handled, Option.map_some] at taken
  obtain rfl := Option.some.inj taken
  refine ⟨_, later, calls, moved, ?_⟩
  rw [Function.update_of_ne (by decide), Function.update_of_ne (by decide)]
  exact ⟨downward.coming, downward.intact⟩

/-- A pass that serves a frame: the filters handle its call. -/
theorem waitInvoker_frame (underway : Underway system items upward calls)
    (downward : Downward system (items .outgoingMessage)) {rest : List SerialFlow}
    (token : system.proxy.session.pipe = .incomingMessage :: rest) {readings : Nat → UInt64}
    {finish : UInt64} {msgTypes : MsgTypes} {transmission : Transmission}
    (taken : system.waitInvoker tiny readings finish msgTypes transmission = some next) :
    Lossless next := by
  obtain ⟨frame, frames, same, popped, accepted, held⟩ := underway.taken token
  have upFrames := underway.upFrames
  rw [same, List.cons_append] at upFrames
  obtain ⟨first, others, rfl, rfl, remaining⟩ := List.map_eq_cons_iff.mp upFrames.symm
  obtain ⟨fromCbor, got⟩ := first.incoming tiny.decoder underway.proxyFromCbor msgTypes
  have accounted := underway.handled
  have moved : Underway
      { system with
        proxy := { system.proxy with
          session := system.proxy.session.waitInvoker serialLayout
          fromCbor := fromCbor }
        handled := system.handled ++ [first.call.message] }
      (Function.update items .incomingMessage frames) upward others :=
    { underway with
      holding := held
      few := accepted ▸ underway.few
      proxyFromCbor := (incoming_capacity got).trans underway.proxyFromCbor
      up := by
        rw [Function.update_of_ne (by decide)]
        exact underway.up
      upFrames := by
        rw [Function.update_self]
        exact remaining.symm
      handled := accounted.pop }
  unfold SerialSystem.waitInvoker SerialSystem.handle at taken
  simp only [token, popped, got, Option.map_some] at taken
  obtain rfl := Option.some.inj taken
  refine ⟨_, upward, others, moved, ?_⟩
  rw [Function.update_of_ne (by decide)]
  exact ⟨downward.coming, downward.intact⟩

/-- A pass that serves a frame to be sent: it goes to the port. -/
theorem waitInvoker_send (underway : Underway system items upward calls)
    (downward : Downward system (items .outgoingMessage)) {rest : List SerialFlow}
    (token : system.proxy.session.pipe = .outgoingMessage :: rest) {readings : Nat → UInt64}
    {finish : UInt64} {msgTypes : MsgTypes} {transmission : Transmission}
    (taken : system.waitInvoker tiny readings finish msgTypes transmission = some next) :
    Lossless next := by
  obtain ⟨frame, frames, same, popped, accepted, held⟩ := underway.taken token
  have moved : Underway
      { system with
        proxy := { system.proxy with session := system.proxy.session.waitInvoker serialLayout } }
      (Function.update items .outgoingMessage frames) upward calls :=
    { underway with
      holding := held
      few := accepted ▸ underway.few
      up := by
        rw [Function.update_of_ne (by decide)]
        exact underway.up
      upFrames := by
        rw [Function.update_of_ne (by decide)]
        exact underway.upFrames }
  rw [same] at downward
  have before : Downward
      { system with
        proxy := { system.proxy with session := system.proxy.session.waitInvoker serialLayout } }
      (frame :: frames) := ⟨downward.coming, downward.intact⟩
  unfold SerialSystem.waitInvoker at taken
  simp only [token, popped] at taken
  have after := before.txd taken
  obtain ⟨beginning, torn, -, -, rfl⟩ := SerialSystem.txd_cases taken
  refine ⟨_, upward, calls, { moved with }, ?_⟩
  rw [Function.update_self]
  exact after

/-- A message of the broker that fits the device: its frame is passed to the session. -/
theorem publish (underway : Underway system items upward calls)
    (downward : Downward system (items .outgoingMessage)) {msg : PubMsg}
    (met : careful system (.publish msg) = true) (taken : system.publish tiny msg = some next) :
    Lossless next ∧ next.published = system.published ++ [msg] ∧ next.handled = system.handled := by
  obtain ⟨fits, room⟩ := (Bool.and_eq_true _ _).mp met
  obtain ⟨noNul, short⟩ := (Bool.and_eq_true _ _).mp fits
  have length := length_arrayEncoding_publication msg
  have short : (arrayEncoding (publicationArguments msg)).length ≤ 100 := by
    have bound := of_decide_eq_true short
    omega
  let sent : SentMsg := ⟨msg, of_decide_eq_true noNul, short⟩
  have success := success_of_fits tiny.proxyEncoder system.proxy.toCbor (publicationArguments msg)
    (by rw [underway.proxyToCbor]; omega)
  obtain ⟨few, places⟩ := underway.room room
  obtain ⟨stepped, held⟩ := Holding.on roomy underway.holding .outgoingMessage sent.frame
    (Nat.lt_of_succ_lt few) places
  have accepted : (system.proxy.session.on serialLayout pipeSize .outgoingMessage
      sent.frame).accepted = Function.update system.proxy.session.accepted .outgoingMessage
        (system.proxy.session.accepted .outgoingMessage ++ [sent.frame]) := by rw [stepped]
  have moved : Underway
      { system with
        proxy := { system.proxy with
          session := system.proxy.session.on serialLayout pipeSize .outgoingMessage sent.frame
          toCbor := system.proxy.toCbor.serialize tiny.proxyEncoder (publicationArguments msg) }
        published := system.published ++ [msg] }
      (Function.update items .outgoingMessage (items .outgoingMessage ++ [sent.frame])) upward
        calls :=
    { underway with
      holding := held
      few := fun other => accepted ▸ underway.few_update few other
      proxyToCbor := (congrArg Block.capacity (serialize_buffer tiny.proxyEncoder
        system.proxy.toCbor (publicationArguments msg))).trans underway.proxyToCbor
      up := by
        rw [Function.update_of_ne (by decide)]
        exact underway.up
      upFrames := by
        rw [Function.update_of_ne (by decide)]
        exact underway.upFrames }
  rw [SerialSystem.publish, brokerIncoming_of_success success] at taken
  obtain rfl := Option.some.inj taken
  have queued := downward.push sent
  refine ⟨⟨_, upward, calls, moved, ?_⟩, rfl, rfl⟩
  rw [Function.update_self]
  exact ⟨queued.coming, queued.intact⟩

end Underway

/-! ### Runs -/

section

variable {tiny : Tiny Value} {system next : SerialSystem Value} {label : SystemLabel}

/-- A careful step loses nothing but the end of a torn frame. -/
theorem Lossless.step (lossless : Lossless system) (met : careful system label = true)
    (taken : systemStep tiny system label = some next) : Lossless next := by
  obtain ⟨items, upward, calls, underway, downward⟩ := lossless
  cases label with
  | call call =>
    by_cases success :
        (system.device.toCbor.serialize tiny.deviceEncoder call.arguments).success = true
    · exact underway.call_sent downward met success taken
    · exact underway.call_refused downward success taken
  | print word =>
    obtain rfl := Option.some.inj taken
    exact ⟨items, upward, calls, underway.print (of_decide_eq_true met), downward.coming,
      downward.intact⟩
  | onRxd count readings finish msgTypes =>
    rw [systemStep] at taken
    split at taken
    · exact underway.onRxd downward met taken
    · cases taken
  | invoke count =>
    rw [systemStep] at taken
    split at taken
    · obtain rfl := Option.some.inj taken
      exact underway.invoke downward met
    · cases taken
  | waitInvoker readings finish msgTypes transmission =>
    cases token : system.proxy.session.pipe with
    | nil => exact underway.waitInvoker_nil downward token taken
    | cons flow rest =>
      cases flow with
      | incomingSerial => exact underway.waitInvoker_chunk downward token met taken
      | incomingMessage => exact underway.waitInvoker_frame downward token taken
      | outgoingMessage => exact underway.waitInvoker_send downward token taken
  | publish msg => exact (underway.publish downward met taken).1

/-- A pass adds to the messages handled, and publishes nothing. -/
theorem SerialSystem.waitInvoker_histories {readings : Nat → UInt64} {finish : UInt64}
    {msgTypes : MsgTypes} {transmission : Transmission}
    (taken : system.waitInvoker tiny readings finish msgTypes transmission = some next) :
    system.handled <+: next.handled ∧ next.published = system.published := by
  unfold SerialSystem.waitInvoker at taken
  dsimp only at taken
  split at taken
  · cases taken
    exact ⟨List.prefix_rfl, rfl⟩
  · split at taken
    · obtain ⟨result, -, rfl⟩ := Option.map_eq_some_iff.mp taken
      exact ⟨List.prefix_rfl, rfl⟩
    · cases taken
      exact ⟨List.prefix_rfl, rfl⟩
  · split at taken
    · obtain ⟨result, -, rfl⟩ := Option.map_eq_some_iff.mp taken
      exact ⟨List.prefix_append _ _, rfl⟩
    · cases taken
      exact ⟨List.prefix_rfl, rfl⟩
  · split at taken
    · obtain ⟨line, -, rfl⟩ := Option.map_eq_some_iff.mp taken
      exact ⟨List.prefix_rfl, rfl⟩
    · cases taken
      exact ⟨List.prefix_rfl, rfl⟩

/-- A step adds to the messages handled, and only a message of the broker is published. -/
theorem systemStep_histories (taken : systemStep tiny system label = some next) :
    system.handled <+: next.handled ∧
      ((∀ msg, label ≠ .publish msg) → next.published = system.published) := by
  cases label with
  | call call =>
    obtain ⟨sent, -, rfl⟩ := Option.map_eq_some_iff.mp taken
    dsimp only
    split <;> exact ⟨List.prefix_rfl, fun _ => rfl⟩
  | print word =>
    cases taken
    exact ⟨List.prefix_rfl, fun _ => rfl⟩
  | onRxd count readings finish msgTypes =>
    rw [systemStep] at taken
    split at taken
    · obtain ⟨received, -, rest⟩ := Option.bind_eq_some_iff.mp taken
      obtain ⟨delivered, -, rfl⟩ := Option.map_eq_some_iff.mp rest
      exact ⟨List.prefix_rfl, fun _ => rfl⟩
    · cases taken
  | invoke count =>
    rw [systemStep] at taken
    split at taken
    · cases taken
      exact ⟨List.prefix_rfl, fun _ => rfl⟩
    · cases taken
  | waitInvoker readings finish msgTypes transmission =>
    obtain ⟨handled, published⟩ := SerialSystem.waitInvoker_histories taken
    exact ⟨handled, fun _ => published⟩
  | publish msg =>
    obtain ⟨sent, -, rfl⟩ := Option.map_eq_some_iff.mp taken
    dsimp only
    split <;> exact ⟨List.prefix_rfl, fun other => absurd rfl (other msg)⟩

/-- Nothing is under way at the beginning. -/
theorem Constructed.lossless (constructed : Constructed system) : Lossless system := by
  obtain ⟨value, start⟩ := constructed.session
  obtain ⟨up, text, down⟩ := constructed.lines
  obtain ⟨called, handled, published, delivered⟩ := constructed.histories
  refine ⟨fun _ => [], [], [],
    { holding := fun flow => ?_, few := fun flow => ?_
      deviceToCbor := constructed.deviceToCbor, deviceFromCbor := constructed.deviceFromCbor
      proxyToCbor := constructed.proxyToCbor, proxyFromCbor := constructed.proxyFromCbor
      up := ?_, free := ?_, upFrames := rfl, handled := ?_ },
    { coming := ⟨[], [], ?_, rfl, ?_⟩, intact := fun _ => ⟨[], [], ?_, rfl, ?_⟩ }⟩
  · rw [start]
    exact ⟨Window.constructed _ _, Fifo.Accounted.start, rfl⟩
  · rw [start]
    exact Nat.two_pow_pos 64
  · rw [constructed.bytesToFrame, up, text]
    exact Framer.carries_nil
  · rw [constructed.fromSerialFrame]
    exact List.not_mem_nil
  · rw [called, handled]
    exact Fifo.Accounted.start
  · rw [constructed.fromSerialFrame, down]
    exact .nil
  · rw [published, delivered]
    exact List.Sublist.refl []
  · rw [constructed.fromSerialFrame, down]
    exact Framer.carries_nil
  · rw [published, delivered]
    exact Fifo.Accounted.start

theorem lossless_of_reachable
    (reachable : ((systemMachine tiny).restrict careful).Reachable system) : Lossless system := by
  refine Machine.Reachable.invariant ?_ ?_ reachable
  · exact fun _ fresh => Constructed.lossless fresh
  · intro system label next _ lossless taken
    obtain ⟨met, stepped⟩ := Machine.restrict_step taken
    exact lossless.step met stepped

/-- Without a token every queue is empty. -/
theorem Underway.empty {items : (flow : SerialFlow) → List (SerialItem flow)}
    {upward : List Payload} {calls : List SentCall}
    (underway : Underway system items upward calls)
    (noToken : system.proxy.session.pipe = []) (flow : SerialFlow) : items flow = [] := by
  have tokens := (underway.holding flow).tokens
  rw [noToken, List.count_nil] at tokens
  exact List.length_eq_zero_iff.mp tokens.symm

/-! ### What has come through -/

/-- The messages delivered are some of those published. -/
theorem Lossless.delivered_sublist (lossless : Lossless system) :
    system.delivered.Sublist system.published := by
  obtain ⟨items, upward, calls, -, downward⟩ := lossless
  obtain ⟨onLine, queued, -, -, order⟩ := downward.coming
  exact (List.sublist_append_left _ _).trans order

/-- As long as no frame is torn they are the first of those published. -/
theorem Lossless.delivered_prefix (lossless : Lossless system) (untorn : system.torn = 0) :
    system.delivered <+: system.published := by
  obtain ⟨items, upward, calls, -, downward⟩ := lossless
  obtain ⟨payloads, msgs, -, -, accounted⟩ := downward.intact untorn
  exact ⟨_, accounted.symm⟩

/-- With nothing under way every message has then been delivered. -/
theorem Lossless.delivered_all (lossless : Lossless system) (untorn : system.torn = 0)
    (noLine : system.down = []) (noToken : system.proxy.session.pipe = []) :
    system.delivered = system.published := by
  obtain ⟨items, upward, calls, underway, downward⟩ := lossless
  obtain ⟨payloads, msgs, down, frames, accounted⟩ := downward.intact untorn
  rw [noLine] at down
  rw [underway.empty noToken .outgoingMessage, down.messages_of_nil] at frames
  rw [List.map_eq_nil_iff.mp frames.symm] at accounted
  exact accounted.of_empty

end

/-- From the proxy to the device: in every careful run the messages given to `_incoming` are some of
those that the broker published, each at most once, in order and unchanged, whatever frames are
torn. As long as no frame is torn they are the first of them, and all of them once the pipe and the
line are empty. -/
theorem downlink_delivers (tiny : Tiny Value) {system : SerialSystem Value}
    (reachable : ((systemMachine tiny).restrict careful).Reachable system) :
    system.delivered.Sublist system.published ∧
      (system.torn = 0 → system.delivered <+: system.published ∧
        (system.down = [] → system.proxy.session.pipe = [] →
          system.delivered = system.published)) := by
  have lossless := lossless_of_reachable reachable
  exact ⟨lossless.delivered_sublist, fun untorn =>
    ⟨lossless.delivered_prefix untorn, lossless.delivered_all untorn⟩⟩

/-- The bundled encoders and decoder of the examples. -/
def referenceTiny : Tiny ReferenceValue where
  deviceEncoder := referenceEncoder 32
  proxyEncoder := referenceEncoder 64
  decoder := referenceDecoder

theorem one_lt_page : 1 < 4096 := by decide

theorem page_within : 4096 + 100 ≤ 2 ^ 32 := by decide

theorem proxyBuffer_le_page : 1024 ≤ 4096 := by decide

/-- Both ends before anything happens. -/
def freshSystem : SerialSystem ReferenceValue where
  device :=
    { toCbor :=
        { buffer := ⟨4096, 100, one_lt_page, page_within⟩
          size := 0
          err := .noError
          encoderRoot := { data := 0, limit := none }
          encoder := { data := 0, limit := none }
          heap := fun _ => 0 }
      fromCbor := constructed 100
      fromSerialFrame := ⟨[], [], 0⟩ }
  proxy :=
    { session :=
        { memory := fun flow => Memory.constructed tenPlaces fun _ =>
            match flow with
            | .incomingSerial | .incomingMessage | .outgoingMessage => []
          pipe := []
          accepted := fun _ => []
          emitted := fun _ => [] }
      serialPort := ⟨4, true⟩
      bytesToFrame := ⟨[], [], 0⟩
      toCbor := constructedAt (pageBlock 1024 proxyBuffer_le_page)
      fromCbor := constructed 1024 }
  up := []
  text := []
  down := []
  torn := 0
  called := []
  handled := []
  published := []
  delivered := []

theorem freshSystem_constructed : (systemMachine referenceTiny).initial freshSystem where
  deviceToCbor := rfl
  deviceFromCbor := rfl
  fromSerialFrame := rfl
  proxyToCbor := rfl
  proxyFromCbor := rfl
  bytesToFrame := rfl
  session := ⟨fun flow _ =>
    match flow with
    | .incomingSerial | .incomingMessage | .outgoingMessage => [], rfl⟩
  lines := ⟨rfl, rfl, rfl⟩
  torn := rfl
  histories := ⟨rfl, rfl, rfl, rfl⟩

/-- A pass of the worker thread without a delay. The kernel takes a frame at once, of which the line
sends so many bytes before the flush. -/
def pass (flushPace : Nat) : SystemLabel :=
  .waitInvoker (fun _ => 0) 0 ⟨0, 0, 0⟩ ⟨[⟨0, .accepts 4096⟩], flushPace⟩

/-- A subscription and text from the device and a message from the broker, with the chunks cut
inside the frames. -/
def bothWays : List SystemLabel :=
  [.call (.subscribe [0x61]), .print [0x68, 0x69], .publish { topic := [0x61], payload := [0x01] },
    .invoke 3, pass 100, .invoke 8, pass 100, .onRxd 4 (fun _ => 0) 0 (fun _ => 0), pass 100,
    pass 100, .onRxd 7 (fun _ => 0) 0 (fun _ => 0)]

theorem bothWays_reachable :
    ∃ system, ((systemMachine referenceTiny).restrict careful).Reachable system ∧
      system.handled = [.subscribe { pattern := [0x61] }] ∧ system.called.length = 1 ∧
      system.delivered = [{ topic := [0x61], payload := [0x01] }] ∧
      system.published.length = 1 ∧ system.torn = 0 := by
  obtain ⟨system, reachable, passed⟩ := Machine.exists_reachable_of_run
    ((systemMachine referenceTiny).restrict careful)
    (show (systemMachine referenceTiny).initial freshSystem from freshSystem_constructed) bothWays
    (fun system => decide (system.handled = [.subscribe { pattern := [0x61] }] ∧
      system.called.length = 1 ∧ system.delivered = [{ topic := [0x61], payload := [0x01] }] ∧
      system.published.length = 1 ∧ system.torn = 0)) (by decide +kernel)
  exact ⟨system, reachable, of_decide_eq_true passed⟩

theorem downlink_delivers_bothWays :
    ∃ system, ((systemMachine referenceTiny).restrict careful).Reachable system ∧
      system.delivered = [{ topic := [0x61], payload := [0x01] }] ∧
      system.delivered <+: system.published := by
  obtain ⟨system, reachable, -, -, delivered, -, untorn⟩ := bothWays_reachable
  exact ⟨system, reachable, delivered,
    ((downlink_delivers referenceTiny reachable).2 untorn).1⟩

/-- Of two messages the frame of the first is torn after two bytes, and the second arrives. -/
def tornFrame : List SystemLabel :=
  [.publish { topic := [0x61], payload := [0x01] },
    .publish { topic := [0x62], payload := [0x02] }, pass 2, pass 100,
    .onRxd 13 (fun _ => 0) 0 (fun _ => 0)]

example :
    (((systemMachine referenceTiny).restrict careful).run freshSystem tornFrame).any
      (fun system => decide (system.torn = 1 ∧ system.down.length = 0 ∧
        system.delivered = [{ topic := [0x62], payload := [0x02] }])) = true := by decide +kernel

end BrokerProxy.System
