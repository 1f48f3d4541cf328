/-
This file puts the serial link together: a device with `BrokerSerial` at one end, the
proxy with `SessionSerial` and the handlers of `main` at the other, and a line in each
direction.

On the device a call is a step at the moment at which its frame is serialised: `subscribe`
and `sendNode` do so at once, `publish` puts its message into `_outgoing`, from where the
thread takes it. The bytes that are available are read, decoded and given to `_incoming` in
one go; what is not a frame is echoed to the line.

In the proxy one worker thread does everything. A chunk that it reads goes through the queue
`_incomingSerial`, the frames in it through `_incomingMessage` and the frames to be sent
through `_outgoingMessage`; the three share the pipe of the thread, and each pass of
`waitInvoker` serves one token. `Serial::txd` sends a frame, or the beginning of it if a
`write` fails or the flush comes too soon.

The calls of `INFO` and `WARN`, which format into a buffer of their own, are left out. For
the rest a step has no result where the code it stands for is undefined. What has been
serialised and handled, published and delivered is recorded, and how many frames were torn.
-/

import BrokerProxy.Limero.Pipeline
import BrokerProxy.Ppp.Link
import BrokerProxy.Protocol.DeviceToProxy
import BrokerProxy.Protocol.ProxyToDevice
import BrokerProxy.Session.SerialTransmission

namespace BrokerProxy.System

open Codec Limero Line Ppp Protocol Runs

/-! ### The two ends -/

/-- What the queues of a session hold. -/
abbrev SerialItem : SerialFlow → Type
  | .incomingSerial => List (Marked UInt8)
  | .incomingMessage => Bytes
  | .outgoingMessage => Bytes

/-- Each queue has ten places and 64-bit indices. -/
def serialLayout : SerialFlow → Layout := fun _ => tenPlaces

/-- The pipe of a Linux thread holds 64 KiB, which is one pointer each for as many tokens. -/
def pipeSize : Nat := 8192

/-- The fields of `BrokerSerial` that the messages pass. -/
structure Device (Value : Type) where
  toCbor : CborSerializer 32
  fromCbor : CborDeserializer Value
  fromSerialFrame : BytesToFrame

/-- The session of the proxy with its port, and the serializers of its handlers. -/
structure Proxy (Value : Type) where
  session : PipelineState SerialFlow SerialItem
  serialPort : Session.Serial
  bytesToFrame : BytesToFrame
  toCbor : CborSerializer 64
  fromCbor : CborDeserializer Value

/-- Both ends, the lines between them with the text since the last frame, the number of frames of
which the line to the device got only the beginning, and what has been called, handled, published
and delivered. -/
structure SerialSystem (Value : Type) where
  device : Device Value
  proxy : Proxy Value
  up : List (Marked UInt8)
  text : Bytes
  down : List (Marked UInt8)
  torn : Nat
  called : List DeviceCall
  handled : List ProxyMsg
  published : List PubMsg
  delivered : List PubMsg

/-- The TinyCBOR library at both ends. -/
structure Tiny (Value : Type) where
  deviceEncoder : TinyCborEncoder 32
  proxyEncoder : TinyCborEncoder 64
  decoder : TinyCborDecoder Value

/-- What `ppp_frame` writes to a line. -/
def lineFrame (frame : Bytes) : List (Marked UInt8) :=
  match pppFrame frame with
  | [] => []
  | first :: rest => ⟨first, false⟩ :: inner rest

theorem lineFrame_payload (payload : Payload) :
    lineFrame payload.bytes = pppFramer.frame payload := by
  rw [lineFrame, pppFrame_eq]
  rfl

theorem symbols_lineFrame (frame : Bytes) :
    (lineFrame frame).map Marked.symbol = pppFrame frame := by
  unfold lineFrame
  cases pppFrame frame with
  | nil => rfl
  | cons first rest => exact congrArg (first :: ·) (symbols_inner rest)

/-- What the kernel and the line do with the frame that a pass sends: the rounds of the loop in
`Serial::txd`, and what the line sends before the queue is flushed. -/
structure Transmission where
  attempts : List Session.WriteAttempt
  flushPace : Nat

variable {Value : Type} (tiny : Tiny Value)

/-- The handler of `_fromSerialFrame` for the frames of one call of `onRxd`. -/
def deliver (decoder : TinyCborDecoder Value) :
    CborDeserializer Value → (Nat → Int32) → List Bytes →
      Option (List PubMsg × CborDeserializer Value)
  | fromCbor, _, [] => some ([], fromCbor)
  | fromCbor, msgTypes, frame :: rest =>
      (fromSerialFrame decoder fromCbor frame (msgTypes 0)).bind fun first =>
        (deliver decoder first.2 (fun place => msgTypes (place + 1)) rest).map fun later =>
          (first.1.toList ++ later.1, later.2)

/-- What happens next. The device makes a call, prints text or reads what is available; the proxy
reads a chunk, serves a token, or gets a message from the broker. -/
inductive SystemLabel
  | call (call : DeviceCall)
  | print (word : Bytes)
  | onRxd (count : Nat) (readings : Nat → UInt64) (finish : UInt64) (msgTypes : Nat → Int32)
  | invoke (count : Nat)
  | waitInvoker (readings : Nat → UInt64) (finish : UInt64) (msgTypes : MsgTypes)
      (transmission : Transmission)
  | publish (msg : PubMsg)

namespace SerialSystem

/-- A call of the device is serialised, and its frame written if the serializer reports success. -/
def call (system : SerialSystem Value) (call : DeviceCall) : Option (SerialSystem Value) :=
  (call.send tiny.deviceEncoder system.device.toCbor).map fun sent =>
    let serialized := { system with device := { system.device with toCbor := sent.2 } }
    match sent.1 with
    | some frame =>
        { serialized with
          up := system.up ++ lineFrame frame
          text := []
          called := system.called ++ [call] }
    | none => serialized

/-- The device prints text on its line. -/
def print (system : SerialSystem Value) (word : Bytes) : SerialSystem Value :=
  { system with up := system.up ++ outer word, text := system.text ++ word }

/-- `onRxd` of the device. -/
def onRxd (system : SerialSystem Value) (count : Nat) (readings : Nat → UInt64) (finish : UInt64)
    (msgTypes : Nat → Int32) : Option (SerialSystem Value) :=
  (handleRxd system.device.fromSerialFrame ⟨timed (system.down.take count) readings, finish⟩).bind
    fun (receiver, events) =>
      (deliver tiny.decoder system.device.fromCbor msgTypes (emissions events)).map
        fun (msgs, fromCbor) =>
          { system with
            device := { system.device with fromSerialFrame := receiver, fromCbor := fromCbor }
            down := system.down.drop count
            delivered := system.delivered ++ msgs }.print (echoes events)

/-- `SessionSerial::invoke` of the proxy, which reads the bytes that have arrived. -/
def invoke (system : SerialSystem Value) (count : Nat) : SerialSystem Value :=
  { system with
    up := system.up.drop count
    proxy := { system.proxy with
      session := system.proxy.session.on serialLayout pipeSize .incomingSerial
        (system.up.take count) } }

/-- `bytesToFrame` gets a chunk and passes its frames to `_incomingMessage`. -/
def decode (system : SerialSystem Value) (chunk : List (Marked UInt8)) (readings : Nat → UInt64)
    (finish : UInt64) : Option (SerialSystem Value) :=
  (handleRxd system.proxy.bytesToFrame ⟨timed chunk readings, finish⟩).map
    fun (receiver, events) =>
      { system with
        proxy := { system.proxy with
          session := system.proxy.session.onAll serialLayout pipeSize .incomingMessage
            (emissions events)
          bytesToFrame := receiver } }

/-- The filters of `main` get a frame. -/
def handle (system : SerialSystem Value) (frame : Bytes) (msgTypes : MsgTypes) :
    Option (SerialSystem Value) :=
  (incoming tiny.decoder system.proxy.fromCbor frame msgTypes).map fun (msgs, fromCbor) =>
    { system with
      proxy := { system.proxy with fromCbor := fromCbor }
      handled := system.handled ++ msgs }

/-- The port gets a frame. Nothing waits in the queue of the kernel when `Serial::txd` is called,
since a call leaves nothing waiting, and what the line sends is a beginning of the frame. -/
def txd (system : SerialSystem Value) (frame : Bytes) (transmission : Transmission) :
    Option (SerialSystem Value) :=
  (system.proxy.serialPort.txd ⟨[], []⟩ (pppFrame frame) transmission.attempts
    transmission.flushPace).map fun (_, line) =>
      { system with
        down := system.down ++ (lineFrame frame).take line.sent.length
        torn := system.torn + if line.sent = pppFrame frame then 0 else 1 }

/-- One token of the pipe: the value that its flow emits goes to what is attached to the flow. -/
def waitInvoker (system : SerialSystem Value) (readings : Nat → UInt64) (finish : UInt64)
    (msgTypes : MsgTypes) (transmission : Transmission) : Option (SerialSystem Value) :=
  let session := system.proxy.session
  let invoked :=
    { system with
      proxy := { system.proxy with session := session.waitInvoker serialLayout } }
  match session.pipe with
  | [] => some invoked
  | .incomingSerial :: _ =>
      match ((session.memory .incomingSerial).pop tenPlaces).1 with
      | some chunk => invoked.decode chunk readings finish
      | none => some invoked
  | .incomingMessage :: _ =>
      match ((session.memory .incomingMessage).pop tenPlaces).1 with
      | some frame => invoked.handle tiny frame msgTypes
      | none => some invoked
  | .outgoingMessage :: _ =>
      match ((session.memory .outgoingMessage).pop tenPlaces).1 with
      | some frame => invoked.txd frame transmission
      | none => some invoked

/-- The encoder behind `broker.incoming()` gets a message and passes its frame to the session. -/
def publish (system : SerialSystem Value) (msg : PubMsg) : Option (SerialSystem Value) :=
  (brokerIncoming tiny.proxyEncoder system.proxy.toCbor msg).map fun sent =>
    let serialized := { system with proxy := { system.proxy with toCbor := sent.2 } }
    match sent.1 with
    | some frame =>
        { serialized with
          proxy := { serialized.proxy with
            session := system.proxy.session.on serialLayout pipeSize .outgoingMessage frame }
          published := system.published ++ [msg] }
    | none => serialized

end SerialSystem

/-- One step. Nothing is read that has not arrived. -/
def systemStep (system : SerialSystem Value) : SystemLabel → Option (SerialSystem Value)
  | .call call => system.call tiny call
  | .print word => some (system.print word)
  | .onRxd count readings finish msgTypes =>
      if count ≤ system.down.length then system.onRxd tiny count readings finish msgTypes else none
  | .invoke count => if count ≤ system.up.length then some (system.invoke count) else none
  | .waitInvoker readings finish msgTypes transmission =>
      system.waitInvoker tiny readings finish msgTypes transmission
  | .publish msg => system.publish tiny msg

/-- Both ends have just been constructed, with the sizes of the source. -/
structure Constructed (system : SerialSystem Value) : Prop where
  deviceToCbor : system.device.toCbor.buffer.capacity = 100
  deviceFromCbor : system.device.fromCbor.capacity = 100
  fromSerialFrame : system.device.fromSerialFrame.inputFrame = []
  proxyToCbor : system.proxy.toCbor.buffer.capacity = 1024
  proxyFromCbor : system.proxy.fromCbor.capacity = 1024
  bytesToFrame : system.proxy.bytesToFrame.inputFrame = []
  session : (pipelineMachine SerialItem serialLayout pipeSize).initial system.proxy.session
  lines : system.up = [] ∧ system.text = [] ∧ system.down = []
  torn : system.torn = 0
  histories : system.called = [] ∧ system.handled = [] ∧ system.published = [] ∧
    system.delivered = []

/-- The two ends under any order of calls, messages, reads and passes. -/
def systemMachine : Machine (SerialSystem Value) SystemLabel where
  initial := Constructed
  step := systemStep tiny

/-! ### Careful runs -/

/-- A queue of the session has places for so many values, and its indices do not wrap around. -/
def SerialSystem.hasRoom (system : SerialSystem Value) (flow : SerialFlow) (count : Nat) : Bool :=
  (system.proxy.session.memory flow).size tenPlaces + count ≤ 10 &&
    (system.proxy.session.accepted flow).length + count < 2 ^ 64

instance (call : DeviceCall) : Decidable call.NoNul := by
  cases call <;> exact inferInstanceAs (Decidable (¬ _))

/-- The steps that lose nothing but the ends of torn frames: a frame follows quiet text, text has no
flag, no string has a NUL byte, a receiver ends its calls in time, a queue has room for what is put
into it, and a message for the device fits its buffer. -/
def careful (system : SerialSystem Value) : SystemLabel → Bool
  | .call call => quiet system.text && decide call.NoNul
  | .print word => flagChar ∉ word
  | .onRxd count readings finish _ =>
      finish - lastFlag system.device.fromSerialFrame.lastFrameFlag
        (timed (system.down.take count) readings) ≤ frameTimeout
  | .invoke _ => system.hasRoom .incomingSerial 1
  | .waitInvoker readings finish _ _ =>
      match system.proxy.session.pipe,
        (system.proxy.session.memory .incomingSerial).contents tenPlaces with
      | .incomingSerial :: _, chunk :: later =>
          inTime system.proxy.bytesToFrame.lastFrameFlag (timed chunk readings) finish
              (later.flatten ++ system.up) &&
            (handleRxd system.proxy.bytesToFrame ⟨timed chunk readings, finish⟩).any
              fun result => system.hasRoom .incomingMessage (emissions result.2).length
      | _, _ => true
  | .publish msg =>
      0 ∉ msg.topic && Cbor.stringLength msg.topic + Cbor.stringLength msg.payload ≤ 97 &&
        system.hasRoom .outgoingMessage 1

end BrokerProxy.System
