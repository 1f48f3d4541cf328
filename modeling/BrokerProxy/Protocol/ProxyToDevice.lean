/-
This file models the path of a message from the proxy to the device: the encoder behind
`broker.incoming()` and the handler of `_fromSerialFrame`. The buffer of the device is
smaller than the one of the proxy, and the device cuts a frame that does not fit. The
file says exactly which messages arrive.
-/

import BrokerProxy.Protocol.Frames

namespace BrokerProxy.Protocol

open Codec

/-! ### The two ends -/

/-- The encoder behind `broker.incoming()`, which takes the bytes before it looks at the success. -/
def brokerIncoming {width : Nat} (tiny : TinyCborEncoder width) (toCbor : CborSerializer width)
    (msg : PubMsg) : Option (Option Bytes × CborSerializer width) :=
  let written := toCbor.serialize tiny (publicationArguments msg)
  written.toBytes.map fun bs => (if written.success then some bs else none, written)

/-- The handler of `_fromSerialFrame`: the message that it gives to `_incoming`. -/
def fromSerialFrame {Value : Type} (decoder : TinyCborDecoder Value)
    (fromCbor : CborDeserializer Value) (msg : Bytes) (msgType : Int32) :
    Option (Option PubMsg × CborDeserializer Value) :=
  readPublish decoder fromCbor msg msgType

/-- A message for which the encoder reports success goes out as the whole array. -/
theorem brokerIncoming_of_success {width : Nat} {tiny : TinyCborEncoder width}
    {toCbor : CborSerializer width} {msg : PubMsg}
    (success : (toCbor.serialize tiny (publicationArguments msg)).success = true) :
    brokerIncoming tiny toCbor msg =
      some (some (arrayEncoding (publicationArguments msg)),
        toCbor.serialize tiny (publicationArguments msg)) := by
  rw [brokerIncoming, (toBytes_of_success tiny toCbor _ success).2, Option.map_some,
    if_pos success]

/-! ### What arrives -/

section

variable {Value : Type} (decoder : TinyCborDecoder Value) {fromCbor : CborDeserializer Value}
  {msg : PubMsg}

/-- A publication that fits into the buffer of the device arrives. -/
theorem fromSerialFrame_of_fits (noNul : 0 ∉ msg.topic)
    (topicSmall : msg.topic.length < 2 ^ 64) (payloadSmall : msg.payload.length < 2 ^ 64)
    (fits : (arrayEncoding (publicationArguments msg)).length ≤ fromCbor.capacity)
    (msgType : Int32) :
    ∃ after, fromSerialFrame decoder fromCbor (arrayEncoding (publicationArguments msg)) msgType =
      some (some msg, after) := by
  have received := List.take_of_length_le fits
  rw [arrayEncoding_publication] at received
  obtain ⟨after, got⟩ := readPublish_of_publication decoder topicSmall payloadSmall
    (by rw [Cbor.element_breakByte]; rfl) received msgType
  rw [cString_of_no_nul noNul, ← arrayEncoding_publication] at got
  exact ⟨after, got⟩

/-- A publication that does not fit is cut, and nothing is emitted for it. -/
theorem fromSerialFrame_of_cut (positive : 0 < fromCbor.capacity)
    (topicSmall : msg.topic.length < 2 ^ 64) (payloadSmall : msg.payload.length < 2 ^ 64)
    (cut : fromCbor.capacity < (arrayEncoding (publicationArguments msg)).length)
    (msgType : Int32) (got : PubMsg) (after : CborDeserializer Value) :
    fromSerialFrame decoder fromCbor (arrayEncoding (publicationArguments msg)) msgType ≠
      some (some got, after) := by
  obtain ⟨fields, whole⟩ : ∃ fields,
      arrayEncoding (publicationArguments msg) = Cbor.arrayStart :: fields :=
    ⟨_, arrayEncoding_publication msg⟩
  obtain ⟨capacity, same⟩ := Nat.exists_eq_succ_of_ne_zero positive.ne'
  rw [whole, same, List.length_cons] at cut
  refine readPublish_of_cut decoder topicSmall payloadSmall (?_ : _ = _ :: fields.take capacity)
    (?_ : _ :: (_ ++ fields.drop capacity) = _) ?_ msgType after
  · rw [whole, same, List.take_succ_cons]
  · rw [List.take_append_drop, whole]
  · intro nothing
    have short := List.drop_eq_nil_iff.mp nothing
    omega

/-- A beginning of the frame of a publication gives this publication or none. -/
theorem fromSerialFrame_of_prefix (noNul : 0 ∉ msg.topic)
    (topicSmall : msg.topic.length < 2 ^ 64) (payloadSmall : msg.payload.length < 2 ^ 64)
    (fits : (arrayEncoding (publicationArguments msg)).length ≤ fromCbor.capacity)
    {frame : Bytes} (part : frame <+: arrayEncoding (publicationArguments msg)) {msgType : Int32}
    {got : PubMsg} {after : CborDeserializer Value}
    (done : fromSerialFrame decoder fromCbor frame msgType = some (some got, after)) :
    got = msg := by
  obtain ⟨lost, whole⟩ := part
  by_cases complete : lost = []
  · rw [complete, List.append_nil] at whole
    obtain ⟨other, sent⟩ :=
      fromSerialFrame_of_fits decoder noNul topicSmall payloadSmall fits msgType
    rw [whole, sent] at done
    cases done
    rfl
  · cases frame with
    | nil => exact absurd done (readPublish_of_nil decoder msgType got after)
    | cons first kept =>
      have start : first = Cbor.arrayStart := by
        rw [arrayEncoding_publication, List.cons_append] at whole
        exact (List.cons.inj whole).1
      have received : (first :: kept).take fromCbor.capacity = Cbor.arrayStart :: kept := by
        rw [start]
        refine List.take_of_length_le ?_
        have length := congrArg List.length whole
        rw [List.length_append, List.length_cons] at length
        rw [List.length_cons]
        omega
      rw [start, List.cons_append] at whole
      exact absurd done (readPublish_of_cut decoder topicSmall payloadSmall received whole complete
        msgType after)

end

/-- A message that the proxy sends arrives at the device exactly if its frame has at most 100
bytes. -/
theorem proxyToDevice_received_iff {width : Nat} {Value : Type} (tiny : TinyCborEncoder width)
    (decoder : TinyCborDecoder Value) (toCbor : CborSerializer width)
    (proxyCapacity : toCbor.buffer.capacity = 1024) (fromCbor : CborDeserializer Value)
    (deviceCapacity : fromCbor.capacity = 100) (msgType : Int32) (msg : PubMsg)
    (noNul : 0 ∉ msg.topic)
    (success : (toCbor.serialize tiny (publicationArguments msg)).success = true) :
    (∃ frame written after,
      brokerIncoming tiny toCbor msg = some (some frame, written) ∧
        fromSerialFrame decoder fromCbor frame msgType = some (some msg, after)) ↔
      Cbor.stringLength msg.topic + Cbor.stringLength msg.payload ≤ 97 := by
  have fits := (toBytes_of_success tiny toCbor (publicationArguments msg) success).1
  have sent := brokerIncoming_of_success success
  have length := length_arrayEncoding_publication msg
  have topicShort := Cbor.length_le_stringLength msg.topic
  have payloadShort := Cbor.length_le_stringLength msg.payload
  have topicSmall : msg.topic.length < 2 ^ 64 := by omega
  have payloadSmall : msg.payload.length < 2 ^ 64 := by omega
  constructor
  · rintro ⟨frame, written, after, out, arrived⟩
    rw [sent] at out
    cases out
    by_contra long
    exact fromSerialFrame_of_cut decoder (by omega) topicSmall payloadSmall (by omega) msgType msg
      after arrived
  · intro short
    have room : (arrayEncoding (publicationArguments msg)).length ≤ fromCbor.capacity := by omega
    obtain ⟨after, arrived⟩ := fromSerialFrame_of_fits decoder noNul topicSmall payloadSmall room
      msgType
    exact ⟨_, _, after, sent, arrived⟩

theorem proxyToDevice_received_short :
    (∃ frame written after,
      brokerIncoming (referenceEncoder 64) (constructedAt (pageBlock 1024 (by decide)))
          { topic := [0x61], payload := [0x01] } = some (some frame, written) ∧
        fromSerialFrame referenceDecoder (constructed 100) frame 0 =
          some (some { topic := [0x61], payload := [0x01] }, after)) ↔
      Cbor.stringLength [0x61] + Cbor.stringLength [0x01] ≤ 97 :=
  proxyToDevice_received_iff (referenceEncoder 64) referenceDecoder
    (constructedAt (pageBlock 1024 (by decide))) rfl (constructed 100) rfl 0
    { topic := [0x61], payload := [0x01] } (by decide) (by decide +kernel)

/-- A message whose frame has 101 bytes. -/
def longMsg : PubMsg where
  topic := [0x61]
  payload := List.replicate 94 0

/-- The proxy reports success and sends the frame, and the device emits nothing. -/
theorem proxyToDevice_lost :
    0 ∉ longMsg.topic ∧
      ((constructedAt (pageBlock 1024 (by decide))).serialize (referenceEncoder 64)
        (publicationArguments longMsg)).success = true ∧
      (arrayEncoding (publicationArguments longMsg)).length = 101 ∧
      (fromSerialFrame referenceDecoder (constructed 100)
        (arrayEncoding (publicationArguments longMsg)) 0).map Prod.fst = some none ∧
      ¬ ∃ frame written after,
        brokerIncoming (referenceEncoder 64) (constructedAt (pageBlock 1024 (by decide)))
            longMsg = some (some frame, written) ∧
          fromSerialFrame referenceDecoder (constructed 100) frame 0 =
            some (some longMsg, after) := by
  have success : ((constructedAt (pageBlock 1024 (by decide))).serialize (referenceEncoder 64)
      (publicationArguments longMsg)).success = true := by decide +kernel
  have dropped : (fromSerialFrame referenceDecoder (constructed 100)
      (arrayEncoding (publicationArguments longMsg)) 0).map Prod.fst = some none := by
    decide +kernel
  refine ⟨by decide, success, by decide +kernel, dropped, ?_⟩
  rintro ⟨frame, written, after, out, arrived⟩
  rw [brokerIncoming_of_success success] at out
  cases out
  rw [arrived] at dropped
  cases dropped

end BrokerProxy.Protocol
