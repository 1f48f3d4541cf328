/-
This file models how the device finds out that it is connected. `BrokerSerial` publishes
the time to itself every second, and `connected` is set when such a message comes back. A
timer of three seconds that each of them resets clears the flag, and so does `node`.

The handlers are attached in `init` and keep the topics of that moment. A later call of
`node` changes `_loopbackTopic`, but what is published and handled stays on the topic of
the subscription that `init` has made, which is the loopback topic here.
-/

import BrokerProxy.Limero.QueueFlowArduino
import BrokerProxy.Limero.ThreadRun
import BrokerProxy.Redis.TypedTopics

namespace BrokerProxy.Broker

open Codec Limero Redis Runs

/-! ### The device -/

/-- The absolute topics of the handlers that `init` attaches. -/
structure Attached where
  loopback : Bytes
  latency : Bytes
deriving DecidableEq

/-- The fields of `BrokerSerial`, with its thread: the node, what `init` has attached, the two
timers between those of other actors, and the queues. -/
structure BrokerSerial where
  node : Bytes
  attached : Option Attached
  before : List TimerSource
  loopbackTimer : TimerSource
  connectTimer : TimerSource
  after : List TimerSource
  thread : MainThread BrokerQueue Unit PubMsg Bool BrokerQueue.ringSize
  loopback_every : loopbackTimer.interval = 1000 ∧ loopbackTimer.repeats = true
  connect_every : connectTimer.interval = 3000 ∧ connectTimer.repeats = true

/-- The readings of the clock that an iteration of `Thread::loop` can take: at its start, to compare
it with an expire time, the two of `request`, and the two of a handler. -/
structure Readings where
  now : Nat
  check : Nat
  first : Nat
  second : Nat
  handling : Nat
  resetting : Nat
  now_le : now ≤ check
  check_le : check ≤ first
  first_le : first ≤ second
  second_le : second ≤ handling
  handling_le : handling ≤ resetting
  resetting_lt : resetting < 2 ^ 64

/-- What happens at a device: it is initialised or named, a timer fires, or a message on the
loopback topic is handled, with the reading of the clock that resets the timer. -/
inductive DeviceEvent
  | init
  | node
  | loopbackTimer
  | connectTimer
  | handled (msg : PubMsg) (reading : Nat)
deriving DecidableEq

namespace BrokerSerial

/-- The constructor, on a thread that has other timers. -/
def constructed (hostname : Bytes) (first second : Nat) (before after : List TimerSource)
    (thread : MainThread BrokerQueue Unit PubMsg Bool BrokerQueue.ringSize) : BrokerSerial where
  node := hostname
  attached := none
  before := before
  loopbackTimer := (TimerSource.constructed 1000 true).start first
  connectTimer := (TimerSource.constructed 3000 true).start second
  after := after
  thread := { thread with latest := fun _ => false }
  loopback_every := ⟨rfl, rfl⟩
  connect_every := ⟨rfl, rfl⟩

def srcPrefix (device : BrokerSerial) : Bytes := ascii "src/" ++ (device.node ++ ascii "/")

def dstPrefix (device : BrokerSerial) : Bytes := ascii "dst/" ++ (device.node ++ ascii "/")

def loopbackTopic (device : BrokerSerial) : Bytes := device.dstPrefix ++ ascii "system/loopback"

/-- `connected()`. -/
def connected (device : BrokerSerial) : Bool := device.thread.latest ()

/-- `connected = value`. -/
def setConnected (device : BrokerSerial) (value : Bool) : BrokerSerial :=
  { device with thread := device.thread.onValue () value }

/-- `node`. -/
def setNode (device : BrokerSerial) (n : Bytes) : BrokerSerial :=
  { device with node := n }.setConnected false

/-- `init`. -/
def init (device : BrokerSerial) : BrokerSerial :=
  { device with
    attached := some
      { loopback := absolute device.dstPrefix device.loopbackTopic
        latency := absolute device.srcPrefix (ascii "system/latency") } }

/-- A message is given to `_incoming` or `_outgoing`. -/
def on (device : BrokerSerial) (flow : BrokerQueue) (msg : PubMsg) : BrokerSerial :=
  { device with thread := device.thread.on flow msg }

/-- A value is passed to a sink of `publisher`. A 64-bit number always fits the serializer. -/
def publish (device : BrokerSerial) (topic : Bytes) (value : UInt64) : BrokerSerial :=
  device.on .outgoing { topic := topic, payload := arrayEncoding [.uint64 value] }

/-- The handler of `_loopbackTimer`. What `sendNode` writes to the line is not part of the state. -/
def onLoopbackTimer (device : BrokerSerial) (handling : Nat) : BrokerSerial :=
  match device.attached with
  | some attached => device.publish attached.loopback (UInt64.ofNat handling)
  | none => device

/-- The handler of `_connectTimer`. -/
def onConnectTimer (device : BrokerSerial) : BrokerSerial :=
  match device.attached with
  | some _ => device.setConnected false
  | none => device

/-- The handler of the loopback topic. -/
def onLoopback (device : BrokerSerial) (latency : Bytes) (value : UInt64) (readings : Readings) :
    BrokerSerial :=
  let alive := (device.publish latency (UInt64.ofNat readings.handling - value)).setConnected true
  { alive with
    connectTimer := alive.connectTimer.start readings.resetting
    connect_every := alive.connect_every }

variable {Value : Type} (decoder : TinyCborDecoder Value)

/-- `_fromCbor.fromBytes(payload).begin().get(t)`, given what the deserializer held before. -/
def getValue (fromCbor : CborDeserializer Value) (payload : Bytes) :
    UInt64 × CborDeserializer Value :=
  ((fromCbor.fromBytes payload).begin decoder).getUInt64 decoder 0

/-- `_incoming` emits a message. Of the flows attached to it only the one of the loopback topic
changes the device; the others may have used the deserializer before. -/
def emitIncoming (device : BrokerSerial) (fromCbor : CborDeserializer Value) (msg : PubMsg)
    (readings : Readings) : Option DeviceEvent × BrokerSerial :=
  match device.attached with
  | some attached =>
      let got := getValue decoder fromCbor msg.payload
      if attached.loopback = msg.topic ∧ got.2.success = true then
        (some (.handled msg readings.resetting),
          device.onLoopback attached.latency got.1 readings)
      else (none, device)
  | none => (none, device)

/-- The timers of the thread. -/
def timers (device : BrokerSerial) : List TimerSource :=
  device.before ++ device.loopbackTimer :: device.connectTimer :: device.after

/-- `request` of `_loopbackTimer`. -/
def requestLoopbackTimer (device : BrokerSerial) (readings : Readings) :
    Option DeviceEvent × BrokerSerial :=
  let answer := device.loopbackTimer.request readings.first readings.second
  let kept := device.loopbackTimer.request_interval readings.first readings.second
  let requested :=
    { device with
      loopbackTimer := answer.2
      loopback_every :=
        ⟨kept.1.trans device.loopback_every.1, kept.2.trans device.loopback_every.2⟩ }
  if answer.1 = true then (some .loopbackTimer, requested.onLoopbackTimer readings.handling)
  else (none, requested)

/-- `request` of `_connectTimer`. -/
def requestConnectTimer (device : BrokerSerial) (readings : Readings) :
    Option DeviceEvent × BrokerSerial :=
  let answer := device.connectTimer.request readings.first readings.second
  let kept := device.connectTimer.request_interval readings.first readings.second
  let requested :=
    { device with
      connectTimer := answer.2
      connect_every := ⟨kept.1.trans device.connect_every.1, kept.2.trans device.connect_every.2⟩ }
  if answer.1 = true then (some .connectTimer, requested.onConnectTimer) else (none, requested)

/-- `request` of the timer at a place. -/
def requestTimer (device : BrokerSerial) (place : Nat) (readings : Readings) :
    Option DeviceEvent × BrokerSerial :=
  let request := fun timer : TimerSource => (timer.request readings.first readings.second).2
  if place < device.before.length then
    (none, { device with before := device.before.modify place request })
  else if place = device.before.length then device.requestLoopbackTimer readings
  else if place = device.before.length + 1 then device.requestConnectTimer readings
  else
    (none,
      { device with after := device.after.modify (place - (device.before.length + 2)) request })

/-- The message that the next token in the work queue stands for. -/
def nextMessage (device : BrokerSerial) : Option PubMsg :=
  match device.thread.workQueue.pop.1 with
  | some (.queueFlow .incoming) => (device.thread.queue .incoming).pop.1
  | _ => none

/-- `Thread::loop`: while no timer is due it invokes one token, and otherwise it polls the timer
that has expired first. -/
def loop (device : BrokerSerial) (fromCbor : CborDeserializer Value) (readings : Readings) :
    Option DeviceEvent × BrokerSerial :=
  let expireTimes := device.timers.map TimerSource.expireTime
  if 0 < MainThread.waitTime readings.now expireTimes then
    let invoked := { device with thread := device.thread.loop readings.now expireTimes }
    match device.nextMessage with
    | some msg => invoked.emitIncoming decoder fromCbor msg readings
    | none => (none, invoked)
  else
    match (ThreadRun.findExpired device.timers 0 ((readings.now + 5000) % 2 ^ 64, none)).2 with
    | some place =>
        if (device.timers[place]?).any fun timer => timer.expireTime < readings.check then
          device.requestTimer place readings
        else (none, device)
    | none => (none, device)

end BrokerSerial

/-! ### Runs -/

/-- A device with the latest reading of the clock and what has happened, latest first. -/
structure BrokerRun where
  device : BrokerSerial
  clock : Nat
  history : List DeviceEvent

/-- What happens next: `init`, once; `node`; a message for one of the queues; an iteration of the
loop, with what the deserializer holds; or other actors change their timers. -/
inductive BrokerLabel (Value : Type)
  | init
  | node (n : Bytes)
  | on (flow : BrokerQueue) (msg : PubMsg)
  | loop (fromCbor : CborDeserializer Value) (readings : Readings)
  | others (before after : List TimerSource)

/-- One step. The clock does not run backwards. -/
def brokerStep {Value : Type} (decoder : TinyCborDecoder Value) (run : BrokerRun) :
    BrokerLabel Value → Option BrokerRun
  | .init =>
      if run.device.attached = none then
        some { run with device := run.device.init, history := .init :: run.history }
      else none
  | .node n => some { run with device := run.device.setNode n, history := .node :: run.history }
  | .on flow msg => some { run with device := run.device.on flow msg }
  | .loop fromCbor readings =>
      if run.clock ≤ readings.now ∧ fromCbor.capacity = 100 then
        let served := run.device.loop decoder fromCbor readings
        some
          { device := served.2
            clock := readings.resetting
            history := served.1.toList ++ run.history }
      else none
  | .others before after =>
      some { run with device := { run.device with before := before, after := after } }

/-- A device under any order of calls, messages and iterations. -/
def deviceMachine {Value : Type} (decoder : TinyCborDecoder Value) :
    Machine BrokerRun (BrokerLabel Value) where
  initial run := ∃ hostname first second before after thread,
    (mainMachine BrokerQueue Unit PubMsg Bool BrokerQueue.ringSize
        BrokerQueue.ringSize_pos).initial thread ∧
      run =
        { device := .constructed hostname first second before after thread
          clock := second
          history := [] }
  step := brokerStep decoder

/-! ### The indicator -/

/-- The message handled last, if none of the two things that clear the flag has happened since. -/
def lastHandled : List DeviceEvent → Option (PubMsg × Nat)
  | .handled msg reading :: _ => some (msg, reading)
  | .init :: earlier | .loopbackTimer :: earlier => lastHandled earlier
  | .connectTimer :: _ | .node :: _ | [] => none

/-- The device has been named since it was initialised. -/
def namedSinceInit : List DeviceEvent → Bool
  | .node :: earlier => earlier.any (· = .init)
  | .init :: _ | [] => false
  | .handled _ _ :: earlier | .connectTimer :: earlier | .loopbackTimer :: earlier =>
      namedSinceInit earlier

variable {Value : Type} (decoder : TinyCborDecoder Value)

/-- A payload that the deserializer of the device reads as a 64-bit number, whatever it held
before. -/
def Decodable (payload : Bytes) : Prop :=
  ∀ fromCbor : CborDeserializer Value, fromCbor.capacity = 100 →
    (BrokerSerial.getValue decoder fromCbor payload).2.success = true

/-- A decodable message on the loopback topic has been handled since the last firing of
`_connectTimer` and the last call of `node`, and `_connectTimer` expires no later than 3000 ms after
the reading of the clock then. -/
structure Alive (run : BrokerRun) (attached : Attached) (msg : PubMsg) (reading : Nat) : Prop where
  initialised : run.device.attached = some attached
  last : lastHandled run.history = some (msg, reading)
  topic : msg.topic = attached.loopback
  decodable : Decodable decoder msg.payload
  expireTime : run.device.connectTimer.expireTime ≤ reading + 3000
  past : reading ≤ run.clock

/-- A device whose flag is set is alive, and until it is named again the loopback topic is the one
it calls so. -/
structure Watched (run : BrokerRun) : Prop where
  alive : run.device.connected = true →
    ∃ attached msg reading, Alive decoder run attached msg reading
  initialised : ∀ attached, run.device.attached = some attached → .init ∈ run.history
  topic : namedSinceInit run.history = false → ∀ attached, run.device.attached = some attached →
    attached.loopback = run.device.loopbackTopic

/-! ### What is decoded -/

/-- `fromBytes` leaves as much of the bytes as the deserializer holds. -/
theorem take_fromBytes (fromCbor : CborDeserializer Value) (bs : Bytes) :
    (fromCbor.fromBytes bs).buffer.take (fromCbor.fromBytes bs).size =
      bs.take fromCbor.capacity := by
  unfold CborDeserializer.fromBytes
  dsimp only
  split
  · rename_i short
    rw [List.take_left' (List.length_take_of_le (Nat.le_refl _)), List.take_length,
      List.take_of_length_le short.le]
  · rename_i long
    exact List.take_left' (List.length_take_of_le (Nat.not_lt.mp long))

/-- Whether a payload is read does not depend on what the deserializer held before. -/
theorem success_getValue_eq {first second : CborDeserializer Value}
    (same : first.capacity = second.capacity) (payload : Bytes) :
    (BrokerSerial.getValue decoder first payload).2.success =
      (BrokerSerial.getValue decoder second payload).2.success := by
  unfold BrokerSerial.getValue CborDeserializer.begin
  rw [take_fromBytes, take_fromBytes, same]
  dsimp only
  split
  · unfold CborDeserializer.getUInt64 CborDeserializer.getNumber
    dsimp only
    split
    · dsimp only
      split
      · rfl
      · rfl
    · rfl
  · rfl

theorem decodable_of_success {fromCbor : CborDeserializer Value}
    (capacity : fromCbor.capacity = 100) {payload : Bytes}
    (success : (BrokerSerial.getValue decoder fromCbor payload).2.success = true) :
    Decodable decoder payload := by
  intro other same
  rw [success_getValue_eq decoder (same.trans capacity.symm) payload]
  exact success

/-! ### What an iteration does -/

/-- What the indicator depends on is unchanged. -/
structure BrokerSerial.Untouched (before after : BrokerSerial) : Prop where
  node : after.node = before.node
  attached : after.attached = before.attached
  connectTimer : after.connectTimer = before.connectTimer
  connected : after.connected = before.connected

namespace BrokerSerial

theorem Untouched.refl (device : BrokerSerial) : device.Untouched device where
  node := rfl
  attached := rfl
  connectTimer := rfl
  connected := rfl

theorem untouched_on (device : BrokerSerial) (flow : BrokerQueue) (msg : PubMsg) :
    device.Untouched (device.on flow msg) where
  node := rfl
  attached := rfl
  connectTimer := rfl
  connected := congrFun (device.thread.latest_on flow msg) ()

theorem connected_setConnected (device : BrokerSerial) (value : Bool) :
    (device.setConnected value).connected = value :=
  device.thread.latest_onValue () value

/-- The events and the device after an iteration: nothing that matters; a firing of `_connectTimer`,
which clears the flag if it can be set; or a message on the loopback topic, which sets it and resets
the timer. -/
inductive Served (device : BrokerSerial) (fromCbor : CborDeserializer Value) (readings : Readings)
    (event : Option DeviceEvent) (after : BrokerSerial) : Prop
  | idle (silent : event = none ∨ event = some .loopbackTimer) (untouched : device.Untouched after)
  | fired (fires : event = some .connectTimer) (node : after.node = device.node)
      (attached : after.attached = device.attached)
      (cleared : ∀ attached, device.attached = some attached → after.connected = false)
      (unset : device.attached = none → after.connected = device.connected)
  | handled (msg : PubMsg) (attached : Attached)
      (handles : event = some (.handled msg readings.resetting))
      (initialised : device.attached = some attached) (topic : attached.loopback = msg.topic)
      (success : (getValue decoder fromCbor msg.payload).2.success = true)
      (node : after.node = device.node) (kept : after.attached = device.attached)
      (expireTime : after.connectTimer.expireTime ≤ readings.resetting + 3000)

/-- The handler of the loopback topic leaves the node and the topics alone and resets
`_connectTimer`. -/
theorem onLoopback_fields (device : BrokerSerial) (latency : Bytes) (value : UInt64)
    (readings : Readings) :
    (device.onLoopback latency value readings).node = device.node ∧
      (device.onLoopback latency value readings).attached = device.attached ∧
      (device.onLoopback latency value readings).connectTimer =
        device.connectTimer.start readings.resetting := by
  unfold onLoopback setConnected publish on
  exact ⟨rfl, rfl, rfl⟩

theorem served_emitIncoming {device invoked : BrokerSerial} (untouched : device.Untouched invoked)
    (fromCbor : CborDeserializer Value) (msg : PubMsg) (readings : Readings) :
    device.Served decoder fromCbor readings
      (invoked.emitIncoming decoder fromCbor msg readings).1
      (invoked.emitIncoming decoder fromCbor msg readings).2 := by
  unfold emitIncoming
  split
  · rename_i attached initialised
    dsimp only
    split
    · rename_i accepted
      obtain ⟨node, kept, reset⟩ := invoked.onLoopback_fields attached.latency
        (getValue decoder fromCbor msg.payload).1 readings
      refine .handled msg attached rfl (untouched.attached.symm.trans initialised) accepted.1
        accepted.2 (node.trans untouched.node) (kept.trans untouched.attached) ?_
      rw [reset, TimerSource.start, TimerSource.expireAt_expireTime, invoked.connect_every.1]
      exact Nat.mod_le _ _
    · exact .idle (Or.inl rfl) untouched
  · exact .idle (Or.inl rfl) untouched

theorem served_requestLoopbackTimer (device : BrokerSerial) (fromCbor : CborDeserializer Value)
    (readings : Readings) :
    device.Served decoder fromCbor readings (device.requestLoopbackTimer readings).1
      (device.requestLoopbackTimer readings).2 := by
  unfold requestLoopbackTimer
  dsimp only
  split
  · refine .idle (Or.inr rfl) ?_
    unfold onLoopbackTimer
    split
    · exact
        { node := rfl
          attached := rfl
          connectTimer := rfl
          connected := congrFun (device.thread.latest_on .outgoing _) () }
    · exact ⟨rfl, rfl, rfl, rfl⟩
  · exact .idle (Or.inl rfl) ⟨rfl, rfl, rfl, rfl⟩

theorem served_requestConnectTimer (device : BrokerSerial) (fromCbor : CborDeserializer Value)
    (readings : Readings) :
    device.Served decoder fromCbor readings (device.requestConnectTimer readings).1
      (device.requestConnectTimer readings).2 := by
  unfold requestConnectTimer
  dsimp only
  split
  · unfold onConnectTimer
    cases initialised : device.attached with
    | some attached =>
      exact .fired rfl rfl initialised.symm (fun _ _ => connected_setConnected _ false)
        fun none => absurd (initialised.symm.trans none) (Option.some_ne_none _)
    | none =>
      exact .fired rfl rfl initialised.symm
        (fun attached some => absurd (some.symm.trans initialised) (Option.some_ne_none _))
        fun _ => rfl
  · rename_i early
    -- a timer that does not emit is as it was
    have before : readings.first < device.connectTimer.expireTime := by
      by_contra due
      exact early (device.connectTimer.request_due _ _ (Nat.not_lt.mp due))
    have same := device.connectTimer.request_early readings.first readings.second before
    refine .idle (Or.inl rfl) { node := rfl, attached := rfl, connectTimer := ?_, connected := rfl }
    exact congrArg Prod.snd same

theorem served_requestTimer (device : BrokerSerial) (fromCbor : CborDeserializer Value)
    (place : Nat) (readings : Readings) :
    device.Served decoder fromCbor readings (device.requestTimer place readings).1
      (device.requestTimer place readings).2 := by
  unfold requestTimer
  dsimp only
  split
  · exact .idle (Or.inl rfl) ⟨rfl, rfl, rfl, rfl⟩
  · split
    · exact served_requestLoopbackTimer decoder device fromCbor readings
    · split
      · exact served_requestConnectTimer decoder device fromCbor readings
      · exact .idle (Or.inl rfl) ⟨rfl, rfl, rfl, rfl⟩

theorem served_loop (device : BrokerSerial) (fromCbor : CborDeserializer Value)
    (readings : Readings) :
    device.Served decoder fromCbor readings (device.loop decoder fromCbor readings).1
      (device.loop decoder fromCbor readings).2 := by
  have invoked : ∀ expireTimes, device.Untouched
      { device with thread := device.thread.loop readings.now expireTimes } := fun expireTimes =>
    { node := rfl
      attached := rfl
      connectTimer := rfl
      connected := congrFun (device.thread.latest_loop readings.now expireTimes) () }
  unfold loop
  dsimp only
  split
  · split
    · exact served_emitIncoming decoder (invoked _) fromCbor _ readings
    · exact .idle (Or.inl rfl) (invoked _)
  · split
    · split
      · exact served_requestTimer decoder device fromCbor _ readings
      · exact .idle (Or.inl rfl) (Untouched.refl device)
    · exact .idle (Or.inl rfl) (Untouched.refl device)

/-- The loopback topic starts with `dst/`, so `init` takes it as it is. -/
theorem absolute_loopbackTopic (device : BrokerSerial) :
    absolute device.dstPrefix device.loopbackTopic = device.loopbackTopic := by
  have starts : (ascii "dst/").isPrefixOf device.loopbackTopic = true := by
    unfold loopbackTopic dstPrefix
    rw [List.append_assoc]
    exact List.isPrefixOf_iff_prefix.mpr (List.prefix_append _ _)
  unfold absolute
  rw [if_pos (Or.inr starts)]

end BrokerSerial

/-! ### Every run -/

variable {decoder}

/-- Nothing that the indicator depends on has changed, and nothing has happened that clears it. -/
theorem Watched.untouched {run next : BrokerRun} (watched : Watched decoder run)
    (untouched : run.device.Untouched next.device)
    (last : lastHandled next.history = lastHandled run.history)
    (named : namedSinceInit next.history = namedSinceInit run.history)
    (longer : .init ∈ run.history → .init ∈ next.history) (clock : run.clock ≤ next.clock) :
    Watched decoder next where
  alive connected := by
    obtain ⟨attached, msg, reading, alive⟩ :=
      watched.alive (untouched.connected.symm.trans connected)
    exact ⟨attached, msg, reading,
      { initialised := untouched.attached.trans alive.initialised
        last := last.trans alive.last
        topic := alive.topic
        decodable := alive.decodable
        expireTime := untouched.connectTimer ▸ alive.expireTime
        past := alive.past.trans clock }⟩
  initialised attached some :=
    longer (watched.initialised attached (untouched.attached.symm.trans some))
  topic unnamed attached some := by
    have same := watched.topic (named.symm.trans unnamed) attached
      (untouched.attached.symm.trans some)
    rw [same]
    unfold BrokerSerial.loopbackTopic BrokerSerial.dstPrefix
    rw [untouched.node]

/-- The topics stay with the node. -/
theorem Watched.topics {run : BrokerRun} (watched : Watched decoder run) {after : BrokerSerial}
    (node : after.node = run.device.node) (attached : after.attached = run.device.attached)
    (unnamed : namedSinceInit run.history = false) :
    ∀ topics, after.attached = some topics → topics.loopback = after.loopbackTopic := by
  intro topics some
  rw [watched.topic unnamed topics (attached.symm.trans some)]
  unfold BrokerSerial.loopbackTopic BrokerSerial.dstPrefix
  rw [node]

/-- A firing of `_connectTimer` clears the flag, or the flag could not be set. -/
theorem Watched.fired {run : BrokerRun} (watched : Watched decoder run) {after : BrokerSerial}
    (clock : Nat) (node : after.node = run.device.node)
    (attached : after.attached = run.device.attached)
    (cleared : ∀ topics, run.device.attached = some topics → after.connected = false)
    (unset : run.device.attached = none → after.connected = run.device.connected) :
    Watched decoder
      { device := after, clock := clock, history := .connectTimer :: run.history } where
  alive connected := by
    cases initialised : run.device.attached with
    | some topics => exact absurd ((cleared topics initialised).symm.trans connected) (by decide)
    | none =>
      obtain ⟨_, _, _, alive⟩ := watched.alive ((unset initialised).symm.trans connected)
      exact absurd (initialised.symm.trans alive.initialised).symm (Option.some_ne_none _)
  initialised topics some :=
    List.mem_cons_of_mem _ (watched.initialised topics (attached.symm.trans some))
  topic := watched.topics node attached

/-- An iteration keeps a device watched. -/
theorem Watched.loop {run : BrokerRun} (watched : Watched decoder run)
    {fromCbor : CborDeserializer Value} {readings : Readings} (clock : run.clock ≤ readings.now)
    (capacity : fromCbor.capacity = 100) {event : Option DeviceEvent} {after : BrokerSerial}
    (served : run.device.Served decoder fromCbor readings event after) :
    Watched decoder
      { device := after
        clock := readings.resetting
        history := event.toList ++ run.history } := by
  have order : readings.now ≤ readings.resetting := readings.now_le.trans
    (readings.check_le.trans (readings.first_le.trans
      (readings.second_le.trans readings.handling_le)))
  cases served with
  | idle silent untouched =>
    rcases silent with rfl | rfl
    · exact watched.untouched untouched rfl rfl id (clock.trans order)
    · exact watched.untouched untouched rfl rfl (List.mem_cons_of_mem _) (clock.trans order)
  | fired fires node attached cleared unset =>
    subst fires
    exact watched.fired readings.resetting node attached cleared unset
  | handled msg attached handles initialised topic success node kept expireTime =>
    subst handles
    exact
      { alive := fun _ => ⟨attached, msg, readings.resetting,
          { initialised := kept.trans initialised
            last := rfl
            topic := topic.symm
            decodable := decodable_of_success decoder capacity success
            expireTime := expireTime
            past := Nat.le_refl _ }⟩
        initialised := fun other some =>
          List.mem_cons_of_mem _ (watched.initialised other (kept.symm.trans some))
        topic := watched.topics node kept }

theorem Watched.step {run next : BrokerRun} (watched : Watched decoder run)
    {label : BrokerLabel Value} (taken : brokerStep decoder run label = some next) :
    Watched decoder next := by
  cases label with
  | init =>
    unfold brokerStep at taken
    dsimp only at taken
    split at taken
    · rename_i fresh
      cases taken
      refine
        { alive := fun connected => ?_
          initialised := fun _ _ => List.mem_cons_self
          topic := fun _ attached some => ?_ }
      · obtain ⟨_, _, _, alive⟩ := watched.alive connected
        exact absurd (fresh.symm.trans alive.initialised).symm (Option.some_ne_none _)
      · cases some
        exact run.device.absolute_loopbackTopic
    · cases taken
  | node n =>
    cases taken
    refine
      { alive := fun connected => ?_
        initialised := fun attached some =>
          List.mem_cons_of_mem _ (watched.initialised attached some)
        topic := fun unnamed attached some => ?_ }
    · exact absurd ((BrokerSerial.connected_setConnected _ false).symm.trans connected) (by decide)
    · have initialised := watched.initialised attached some
      have named : run.history.any (· = .init) = true :=
        List.any_eq_true.mpr ⟨_, initialised, decide_eq_true rfl⟩
      exact absurd (named.symm.trans unnamed) (by decide)
  | on flow msg =>
    cases taken
    exact watched.untouched (run.device.untouched_on flow msg) rfl rfl id (Nat.le_refl _)
  | loop fromCbor readings =>
    unfold brokerStep at taken
    dsimp only at taken
    split at taken
    · rename_i allowed
      cases taken
      exact watched.loop allowed.1 allowed.2
        (BrokerSerial.served_loop decoder run.device fromCbor readings)
    · cases taken
  | others before after =>
    cases taken
    exact watched.untouched ⟨rfl, rfl, rfl, rfl⟩ rfl rfl id (Nat.le_refl _)

theorem watched_of_initial {run : BrokerRun} (initial : (deviceMachine decoder).initial run) :
    Watched decoder run := by
  obtain ⟨hostname, first, second, before, after, thread, -, rfl⟩ := initial
  exact { alive := nofun, initialised := nofun, topic := nofun }

/-- In every state that a device reaches, `connected()` is true only if a decodable message on the
loopback topic has been handled since the last firing of `_connectTimer` and the last call of
`node`, and `_connectTimer` expires at most 3000 ms after the reading of the clock taken while the
last such message was handled. Until `node` is called after `init`, that topic is
`_loopbackTopic`. -/
theorem connected_alive {run : BrokerRun} (reachable : (deviceMachine decoder).Reachable run)
    (connected : run.device.connected = true) :
    ∃ attached msg reading, Alive decoder run attached msg reading ∧
      (namedSinceInit run.history = false → msg.topic = run.device.loopbackTopic) := by
  have watched := Machine.Reachable.invariant (fun _ initial => watched_of_initial initial)
    (fun _ _ _ _ watched taken => watched.step taken) reachable
  obtain ⟨attached, msg, reading, alive⟩ := watched.alive connected
  refine ⟨attached, msg, reading, alive, fun unnamed => ?_⟩
  exact alive.topic.trans (watched.topic unnamed attached alive.initialised)

/-! ### One loopback -/

/-- The work queue has ten slots. -/
theorem workQueue_pos : 0 < 10 := by decide

/-- A thread that has just been constructed. -/
def idleThread : MainThread BrokerQueue Unit PubMsg Bool BrokerQueue.ringSize where
  workQueue := RingQueue.constructed workQueue_pos fun _ => .valueFlow ()
  queue flow := RingQueue.constructed flow.ringSize_pos fun _ => ⟨[], []⟩
  latest _ := false
  stats := ⟨0⟩
  accepted _ := []
  emitted _ := []

/-- A device named `device` whose timers are the only ones of its thread. -/
def oneDevice : BrokerRun where
  device := .constructed (ascii "device") 0 0 [] [] idleThread
  clock := 0
  history := []

theorem oneDevice_initial : (deviceMachine referenceDecoder).initial oneDevice :=
  ⟨_, _, _, _, _, _, ⟨fun _ => .valueFlow (), fun _ => false, fun _ _ => ⟨[], []⟩, rfl⟩, rfl⟩

/-- The readings of an iteration that takes no time. -/
def Readings.at (now : Nat) (small : now < 2 ^ 64) : Readings where
  now := now
  check := now
  first := now
  second := now
  handling := now
  resetting := now
  now_le := Nat.le_refl now
  check_le := Nat.le_refl now
  first_le := Nat.le_refl now
  second_le := Nat.le_refl now
  handling_le := Nat.le_refl now
  resetting_lt := small

/-- The device is initialised, its timer fires, and the message comes back. -/
def loopbackRun : List (BrokerLabel ReferenceValue) :=
  [.init, .loop (Codec.constructed 100) (.at 1001 (by decide)),
    .on .incoming ⟨ascii "dst/device/system/loopback", arrayEncoding [.uint64 1001]⟩,
    .loop (Codec.constructed 100) (.at 1005 (by decide)),
    .loop (Codec.constructed 100) (.at 1006 (by decide))]

theorem connected_alive_oneDevice :
    ∃ run : BrokerRun, run.device.connected = true ∧
      ∃ attached msg reading, Alive referenceDecoder run attached msg reading ∧
        (namedSinceInit run.history = false → msg.topic = run.device.loopbackTopic) := by
  obtain ⟨run, reachable, passed⟩ := Machine.exists_reachable_of_run
    (deviceMachine referenceDecoder) oneDevice_initial loopbackRun
    (fun run => run.device.connected) (by decide +kernel)
  exact ⟨run, passed, connected_alive reachable passed⟩

end BrokerProxy.Broker
