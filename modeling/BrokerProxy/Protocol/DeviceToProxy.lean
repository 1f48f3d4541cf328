/-
This file models the path of a message from the device to the proxy: the calls of
`BrokerSerial` that write a frame, and the three filters of the proxy that every frame is
given to. A frame that the device sends comes out of exactly one of the filters, with the
arguments of the call.
-/

import BrokerProxy.Protocol.Frames

namespace BrokerProxy.Protocol

open Codec
open Cbor (Cursor)

/-! ### The device -/

section

variable {width : Nat} (tiny : TinyCborEncoder width) (toCbor : CborSerializer width)

/-- Write an array, and give it to `_toSerialFrame` if the serializer reports success. -/
def toSerialFrame (arguments : List Argument) : Option (Option Bytes × CborSerializer width) :=
  let written := toCbor.serialize tiny arguments
  if written.success then written.toBytes.map fun frame => (some frame, written)
  else some (none, written)

/-- The handler of `_outgoing`. -/
def outgoing (msg : PubMsg) : Option (Option Bytes × CborSerializer width) :=
  toSerialFrame tiny toCbor (publicationArguments msg)

/-- `BrokerSerial::publish`, with the handler of `_outgoing` that takes the message. -/
def publish (topic bs : Bytes) : Option (Option Bytes × CborSerializer width) :=
  outgoing tiny toCbor { topic := topic, payload := bs }

/-- `BrokerSerial::subscribe`. -/
def subscribe (pattern : Bytes) : Option (Option Bytes × CborSerializer width) :=
  toSerialFrame tiny toCbor (textArguments .subscribe pattern)

/-- `BrokerSerial::sendNode`. -/
def sendNode (nodeName : Bytes) : Option (Option Bytes × CborSerializer width) :=
  toSerialFrame tiny toCbor (textArguments .node nodeName)

end

/-- A call of `BrokerSerial` that sends a message. -/
inductive DeviceCall
  | publish (topic bs : Bytes)
  | subscribe (pattern : Bytes)
  | sendNode (nodeName : Bytes)

/-- Make a call. -/
def DeviceCall.send {width : Nat} (tiny : TinyCborEncoder width) (toCbor : CborSerializer width) :
    DeviceCall → Option (Option Bytes × CborSerializer width)
  | .publish topic bs => Protocol.publish tiny toCbor topic bs
  | .subscribe pattern => Protocol.subscribe tiny toCbor pattern
  | .sendNode nodeName => Protocol.sendNode tiny toCbor nodeName

/-- The strings of a call have no NUL byte. -/
def DeviceCall.NoNul : DeviceCall → Prop
  | .publish topic _ => 0 ∉ topic
  | .subscribe pattern => 0 ∉ pattern
  | .sendNode nodeName => 0 ∉ nodeName

/-- What a call adds to the array. -/
def DeviceCall.arguments : DeviceCall → List Argument
  | .publish topic bs => publicationArguments { topic := topic, payload := bs }
  | .subscribe pattern => textArguments .subscribe pattern
  | .sendNode nodeName => textArguments .node nodeName

/-- A call for which the serializer reports success sends the whole array. -/
theorem DeviceCall.send_of_success {width : Nat} {tiny : TinyCborEncoder width}
    {toCbor : CborSerializer width} {call : DeviceCall}
    (success : (toCbor.serialize tiny call.arguments).success = true) :
    call.send tiny toCbor =
      some (some (arrayEncoding call.arguments), toCbor.serialize tiny call.arguments) := by
  have same : call.send tiny toCbor = toSerialFrame tiny toCbor call.arguments := by
    cases call <;> rfl
  rw [same, toSerialFrame, if_pos success, (toBytes_of_success tiny toCbor _ success).2]
  rfl

/-! ### The proxy -/

/-- What a filter of the proxy emits. -/
inductive ProxyMsg
  | publish (msg : PubMsg)
  | subscribe (msg : SubMsg)
  | node (msg : NodeMsg)
deriving DecidableEq

/-- What the variable `msgType` of each filter holds before it is read. -/
structure MsgTypes where
  getPubMsg : Int32
  getSubMsg : Int32
  getNodeMsg : Int32

section

variable {Value : Type} (decoder : TinyCborDecoder Value) (fromCbor : CborDeserializer Value)
  (frame : Bytes)

/-- `getPubMsg`. -/
def getPubMsg (msgType : Int32) : Option (Option PubMsg × CborDeserializer Value) :=
  readPublish decoder fromCbor frame msgType

/-- `getSubMsg`. -/
def getSubMsg (msgType : Int32) : Option (Option SubMsg × CborDeserializer Value) :=
  (readText decoder .subscribe fromCbor frame msgType).map fun got =>
    (got.1.map fun pattern => { pattern := pattern }, got.2)

/-- `getNodeMsg`. -/
def getNodeMsg (msgType : Int32) : Option (Option NodeMsg × CborDeserializer Value) :=
  (readText decoder .node fromCbor frame msgType).map fun got =>
    (got.1.map fun node => { node := node }, got.2)

/-- The subscribers of `session->incoming()`: each filter gets the frame, and the deserializer as
the one before left it. -/
def incoming (msgTypes : MsgTypes) : Option (List ProxyMsg × CborDeserializer Value) :=
  (getPubMsg decoder fromCbor frame msgTypes.getPubMsg).bind fun pub =>
    (getSubMsg decoder pub.2 frame msgTypes.getSubMsg).bind fun sub =>
      (getNodeMsg decoder sub.2 frame msgTypes.getNodeMsg).map fun node =>
        ((pub.1.map .publish).toList ++ (sub.1.map .subscribe).toList ++
          (node.1.map .node).toList, node.2)

end

/-- The message that a call is about. -/
def DeviceCall.message : DeviceCall → ProxyMsg
  | .publish topic bs => .publish { topic := topic, payload := bs }
  | .subscribe pattern => .subscribe { pattern := pattern }
  | .sendNode nodeName => .node { node := nodeName }

/-! ### From the device to the proxy -/

section

variable {Value : Type} (decoder : TinyCborDecoder Value) {fromCbor : CborDeserializer Value}
  {frame : Bytes} (msgTypes : MsgTypes)

/-- A publication comes out of the first filter only. -/
theorem incoming_publication {msg : PubMsg} (topicSmall : msg.topic.length < 2 ^ 64)
    (payloadSmall : msg.payload.length < 2 ^ 64)
    (received : frame.take fromCbor.capacity = arrayEncoding (publicationArguments msg)) :
    ∃ after, incoming decoder fromCbor frame msgTypes =
      some ([.publish { topic := cString msg.topic, payload := msg.payload }], after) := by
  rw [arrayEncoding_publication] at received
  have payloadUsable :
      (Cursor.mk (Cbor.encodeBytes msg.payload ++ [Cbor.breakByte]) none none).element.usable =
        true := by
    rw [(Cbor.Cursor.element_next (Cbor.item_encodeBytes payloadSmall _) rfl).1]
    rfl
  obtain ⟨afterPub, pub⟩ := readPublish_of_publication decoder topicSmall payloadSmall
    (by rw [Cbor.element_breakByte]; rfl) received msgTypes.getPubMsg
  have receivedSub := (readPublish_capacity pub).symm ▸ received
  obtain ⟨afterSub, sub⟩ := readText_of_text decoder .subscribe topicSmall
    payloadUsable receivedSub msgTypes.getSubMsg
  have receivedNode := (readText_capacity sub).symm ▸ receivedSub
  obtain ⟨afterNode, node⟩ := readText_of_text decoder .node topicSmall
    payloadUsable receivedNode msgTypes.getNodeMsg
  refine ⟨afterNode, ?_⟩
  unfold incoming getPubMsg getSubMsg getNodeMsg
  rw [pub, Option.bind_some, sub, Option.map_some, Option.bind_some, node]
  rfl

/-- A message with a text field comes out of the filter for its type, if there is one. -/
theorem incoming_text {type : MsgType} {text : Bytes} (small : text.length < 2 ^ 64)
    (received : frame.take fromCbor.capacity = arrayEncoding (textArguments type text)) :
    ∃ after, incoming decoder fromCbor frame msgTypes =
      some ((if type = .subscribe then [.subscribe { pattern := cString text }] else []) ++
        (if type = .node then [.node { node := cString text }] else []), after) := by
  obtain ⟨afterPub, pub⟩ := readPublish_of_text decoder small received
    msgTypes.getPubMsg
  have receivedSub := (readPublish_capacity pub).symm ▸ received
  rw [arrayEncoding_text] at receivedSub
  obtain ⟨afterSub, sub⟩ := readText_of_text decoder .subscribe small
    (by rw [Cbor.element_breakByte]; rfl) receivedSub msgTypes.getSubMsg
  have receivedNode := (readText_capacity sub).symm ▸ receivedSub
  obtain ⟨afterNode, node⟩ := readText_of_text decoder .node small
    (by rw [Cbor.element_breakByte]; rfl) receivedNode msgTypes.getNodeMsg
  refine ⟨afterNode, ?_⟩
  unfold incoming getPubMsg getSubMsg getNodeMsg
  rw [pub, Option.bind_some, sub, Option.map_some, Option.bind_some, node]
  cases type <;> rfl

end

/-- A text that was sent in a small array is small. -/
theorem length_lt_of_fits {type : MsgType} {text : Bytes}
    (fits : (arrayEncoding (textArguments type text)).length ≤ 100) : text.length < 2 ^ 64 := by
  rw [length_arrayEncoding_text] at fits
  have short := Cbor.length_le_stringLength text
  omega

/-- Every frame that the device sends comes out of exactly one filter of the proxy, as the message
of the call. -/
theorem deviceToProxy_received {width : Nat} {Value : Type} (tiny : TinyCborEncoder width)
    (decoder : TinyCborDecoder Value) (toCbor : CborSerializer width)
    (deviceCapacity : toCbor.buffer.capacity = 100) (fromCbor : CborDeserializer Value)
    (proxyCapacity : fromCbor.capacity = 1024) (msgTypes : MsgTypes) (call : DeviceCall)
    (noNul : call.NoNul) (success : (toCbor.serialize tiny call.arguments).success = true) :
    ∃ frame written after,
      call.send tiny toCbor = some (some frame, written) ∧
        incoming decoder fromCbor frame msgTypes = some ([call.message], after) := by
  have fits := (toBytes_of_success tiny toCbor call.arguments success).1
  have received : (arrayEncoding call.arguments).take fromCbor.capacity =
      arrayEncoding call.arguments := List.take_of_length_le (by omega)
  have emitted : ∃ after, incoming decoder fromCbor (arrayEncoding call.arguments) msgTypes =
      some ([call.message], after) := by
    cases call with
    | publish topic bs =>
      have length := length_arrayEncoding_publication { topic := topic, payload := bs }
      have short : Cbor.stringLength topic + Cbor.stringLength bs + 3 ≤ 100 :=
        length ▸ deviceCapacity ▸ fits
      have topicShort := Cbor.length_le_stringLength topic
      have payloadShort := Cbor.length_le_stringLength bs
      obtain ⟨after, emitted⟩ := incoming_publication decoder msgTypes
        (show topic.length < 2 ^ 64 by omega) (show bs.length < 2 ^ 64 by omega) received
      rw [cString_of_no_nul noNul] at emitted
      exact ⟨after, emitted⟩
    | subscribe text | sendNode text =>
      have small := length_lt_of_fits (deviceCapacity ▸ fits)
      obtain ⟨after, emitted⟩ := incoming_text decoder msgTypes small received
      rw [cString_of_no_nul noNul] at emitted
      exact ⟨after, emitted⟩
  obtain ⟨after, emitted⟩ := emitted
  exact ⟨_, _, after, DeviceCall.send_of_success success, emitted⟩

theorem deviceToProxy_received_publish :
    ∃ frame written after,
      (DeviceCall.publish [0x61, 0x2F, 0x62] [0x01, 0x00]).send (referenceEncoder 64)
          (constructedAt (pageBlock 100 (by decide))) =
        some (some frame, written) ∧
      incoming referenceDecoder (constructed 1024) frame ⟨0, 1, 3⟩ =
        some ([.publish { topic := [0x61, 0x2F, 0x62], payload := [0x01, 0x00] }], after) :=
  deviceToProxy_received (referenceEncoder 64) referenceDecoder
    (constructedAt (pageBlock 100 (by decide))) rfl (constructed 1024) rfl ⟨0, 1, 3⟩
    (.publish [0x61, 0x2F, 0x62] [0x01, 0x00]) (by unfold DeviceCall.NoNul; decide)
    (by decide +kernel)

end BrokerProxy.Protocol
