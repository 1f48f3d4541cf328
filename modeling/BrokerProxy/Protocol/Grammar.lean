/-
This file says which frames the filters of the proxy emit. A filter looks at the first
integer of an array or a map and at the fields after it. Whether the container ends after
these fields, it does not ask: the code of `end` that would leave the container is
commented out.
-/

import BrokerProxy.Codec.Reader
import BrokerProxy.Protocol.DeviceToProxy

namespace BrokerProxy.Protocol

open Codec
open Cbor (Cursor)

/-! ### The grammar -/

/-- The integer that a container starts with, and the element after it. -/
def firstInteger (received : Bytes) : Option (Int × Cursor) :=
  (enterSmall received).bind fun first =>
    match first.element with
    | .int number _ => first.next.map fun second => (number, second)
    | _ => none

/-- The container starts with the number of a message type and fields of the given types, and the
reader comes to an element after them. -/
def StartsWith (received : Bytes) (type : MsgType) (fields : List Kind) (last : Cursor) : Prop :=
  ∃ second values, firstInteger received = some (type.code.toInt, second) ∧
    readAll fields second = some (values, last)

/-- A frame of a message type: after the fields comes the end of the container, or another element
whose head is well formed. -/
def FrameOf (received : Bytes) (type : MsgType) (fields : List Kind) : Prop :=
  ∃ last, StartsWith received type fields last ∧ last.element.usable = true

/-- The first integer of a container is in the range of `int`. -/
def IntRange (received : Bytes) : Prop :=
  ∀ number second, firstInteger received = some (number, second) →
    -2 ^ 31 ≤ number ∧ number < 2 ^ 31

theorem firstInteger_eq_some_iff {received : Bytes} {number : Int} {second : Cursor} :
    firstInteger received = some (number, second) ↔
      ∃ first rest, enterSmall received = some first ∧ first.element = .int number rest ∧
        first.next = some second := by
  constructor
  · intro found
    obtain ⟨first, entered, rest⟩ := Option.bind_eq_some_iff.mp found
    split at rest
    · rename_i value after element
      obtain ⟨between, next, same⟩ := Option.map_eq_some_iff.mp rest
      cases same
      exact ⟨first, after, entered, element, next⟩
    · cases rest
  · rintro ⟨first, rest, entered, element, next⟩
    rw [firstInteger, entered, Option.bind_some, element, next]
    rfl

/-- Reading an `int` and fields is reading the first integer, converted, and the fields. -/
theorem readAll_int_iff {received : Bytes} {code : Int32} {fields : List Kind}
    {values : List Field} {last : Cursor} :
    (∃ first, enterSmall received = some first ∧
        readAll (.int :: fields) first = some (.int code :: values, last)) ↔
      ∃ number second, firstInteger received = some (number, second) ∧
        Int32.ofInt number = code ∧ readAll fields second = some (values, last) := by
  constructor
  · rintro ⟨first, entered, found⟩
    obtain ⟨value, second, later, isRead, areRead, same⟩ := of_readAll_cons found
    cases same
    obtain ⟨taken, next⟩ := take_of_read isRead
    obtain ⟨number, after, element, converted⟩ := Kind.take_int taken
    cases converted
    exact ⟨number, second, firstInteger_eq_some_iff.mpr ⟨first, after, entered, element, next⟩,
      rfl, areRead⟩
  · rintro ⟨number, second, found, rfl, areRead⟩
    obtain ⟨first, rest, entered, element, next⟩ := firstInteger_eq_some_iff.mp found
    have taken : Kind.int.take first.element = some (.int (Int32.ofInt number)) := by
      rw [element]
      rfl
    exact ⟨first, entered, readAll_cons (read_of_take taken next) areRead⟩

/-- An integer in the range of `int` is the code that it is converted to. -/
theorem eq_code_of_range {number : Int} {type : MsgType}
    (range : -2 ^ 31 ≤ number ∧ number < 2 ^ 31) (same : Int32.ofInt number = type.code) :
    number = type.code.toInt := by
  rw [← same, Int32.toInt_ofInt_of_le range.1 range.2]

/-- A container does not end where a value is due after an integer and one more element: in a map
of indefinite length this is a whole pair. -/
theorem startsWith_text_paired {received : Bytes} {type : MsgType} {field : Kind} {last : Cursor}
    (starts : StartsWith received type [field] last) : last.element ≠ .unpaired := by
  intro unpaired
  obtain ⟨second, values, found, areRead⟩ := starts
  obtain ⟨first, rest, entered, -, next⟩ := firstInteger_eq_some_iff.mp found
  obtain ⟨value, third, later, isRead, nothing, -⟩ := of_readAll_cons areRead
  cases nothing
  obtain ⟨-, further⟩ := take_of_read isRead
  have due := Cursor.due_of_unpaired unpaired
  rw [Cursor.due_of_next further, Cursor.due_of_next next, Option.map_map] at due
  have start := Cursor.due_of_enter (of_enterSmall entered).1
  cases begins : first.due with
  | none =>
    rw [begins] at due
    cases due
  | some value =>
    rw [begins, Option.map_some, Option.some_inj] at due
    exact start (begins.trans (congrArg some ((Bool.not_not value).symm.trans due)))

/-! ### The filters -/

section

variable {Value : Type} {decoder : TinyCborDecoder Value} (rejects : decoder.Rejects)
  (fromCbor : CborDeserializer Value) (frame : Bytes)

/-- The calls of a reader of a text message, as one list. -/
theorem getAll_text (deserializer : CborDeserializer Value) (number : Int32) (text : Bytes) :
    deserializer.getAll decoder [.int number, .string text] =
      ((deserializer.getInt decoder number).2.getString decoder text).map fun got =>
        ([.int (deserializer.getInt decoder number).1, .string got.1], got.2) := by
  rw [CborDeserializer.getAll_int, CborDeserializer.getAll_string]
  cases (deserializer.getInt decoder number).2.getString decoder text <;> rfl

/-- The calls of the reader of publications, as one list. -/
theorem getAll_publication (deserializer : CborDeserializer Value) (number : Int32)
    (topic payload : Bytes) :
    deserializer.getAll decoder [.int number, .string topic, .bytes payload] =
      ((deserializer.getInt decoder number).2.getString decoder topic).bind fun first =>
        (first.2.getBytes decoder payload).map fun second =>
          ([.int (deserializer.getInt decoder number).1, .string first.1, .bytes second.1],
            second.2) := by
  rw [CborDeserializer.getAll_int, CborDeserializer.getAll_string]
  cases (deserializer.getInt decoder number).2.getString decoder topic with
  | none => rfl
  | some first =>
    rw [Option.bind_some, Option.bind_some, CborDeserializer.getAll_bytes]
    cases first.2.getBytes decoder payload <;> rfl

theorem readText_emits_iff (type : MsgType) (msgType : Int32) :
    (∃ text after, readText decoder type fromCbor frame msgType = some (some text, after)) ↔
      ∃ values after, ((fromCbor.fromBytes frame).begin decoder).getAll decoder
          [.int msgType, .string []] = some (.int type.code :: values, after) ∧
        after.err = .noError := by
  rw [getAll_text]
  unfold readText
  dsimp only
  constructor
  · rintro ⟨text, after, read⟩
    obtain ⟨got, gotText, same⟩ := Option.map_eq_some_iff.mp read
    split at same
    · rename_i both
      refine ⟨[.string got.1], got.2, ?_, of_decide_eq_true both.1⟩
      rw [gotText, Option.map_some, both.2]
    · cases same
  · rintro ⟨values, after, gotAll, noError⟩
    obtain ⟨got, gotText, same⟩ := Option.map_eq_some_iff.mp gotAll
    obtain ⟨sameValues, rfl⟩ := Prod.mk.inj same
    obtain ⟨code, -⟩ := List.cons.inj sameValues
    refine ⟨got.1, got.2, ?_⟩
    rw [gotText, Option.map_some, if_pos ⟨decide_eq_true noError, Field.int.inj code⟩]

theorem readPublish_emits_iff (msgType : Int32) :
    (∃ msg after, readPublish decoder fromCbor frame msgType = some (some msg, after)) ↔
      ∃ values after, ((fromCbor.fromBytes frame).begin decoder).getAll decoder
          [.int msgType, .string [], .bytes []] =
            some (.int MsgType.publish.code :: values, after) ∧
        after.err = .noError := by
  rw [getAll_publication]
  unfold readPublish
  dsimp only
  constructor
  · rintro ⟨msg, after, read⟩
    obtain ⟨topic, gotTopic, rest⟩ := Option.bind_eq_some_iff.mp read
    obtain ⟨payload, gotPayload, same⟩ := Option.map_eq_some_iff.mp rest
    split at same
    · rename_i both
      refine ⟨[.string topic.1, .bytes payload.1], payload.2, ?_, of_decide_eq_true both.1⟩
      rw [gotTopic, Option.bind_some, gotPayload, Option.map_some, both.2]
    · cases same
  · rintro ⟨values, after, gotAll, noError⟩
    obtain ⟨topic, gotTopic, rest⟩ := Option.bind_eq_some_iff.mp gotAll
    obtain ⟨payload, gotPayload, same⟩ := Option.map_eq_some_iff.mp rest
    obtain ⟨sameValues, rfl⟩ := Prod.mk.inj same
    obtain ⟨code, -⟩ := List.cons.inj sameValues
    refine ⟨{ topic := topic.1, payload := payload.1 }, payload.2.end, ?_⟩
    rw [gotTopic, Option.bind_some, gotPayload, Option.map_some,
      if_pos ⟨decide_eq_true noError, Field.int.inj code⟩]

include rejects in
/-- Reading a message type and fields succeeds exactly on the frames of the type. -/
theorem getAll_frame_iff {type : MsgType} (range : IntRange (frame.take fromCbor.capacity))
    (msgType : Int32) (targets : List Field)
    (paired : ∀ last, StartsWith (frame.take fromCbor.capacity) type (targets.map Field.kind)
      last → last.element ≠ .unpaired) :
    (∃ values after, ((fromCbor.fromBytes frame).begin decoder).getAll decoder
        (.int msgType :: targets) = some (.int type.code :: values, after) ∧
          after.err = .noError) ↔
      FrameOf (frame.take fromCbor.capacity) type (targets.map Field.kind) := by
  constructor
  · rintro ⟨values, after, got, noError⟩
    have begun := CborDeserializer.err_of_getAll got noError
    cases entered : enterSmall (frame.take fromCbor.capacity) with
    | none => exact absurd begun (CborDeserializer.begin_failed rejects entered)
    | some first =>
      obtain ⟨last, areRead, ends⟩ :=
        (CborDeserializer.begin_at rejects entered).getAll_success rejects got noError
      obtain ⟨number, second, found, converted, fields⟩ :=
        readAll_int_iff.mp ⟨first, entered, areRead⟩
      have same := eq_code_of_range (range number second found) converted
      have starts : StartsWith (frame.take fromCbor.capacity) type (targets.map Field.kind) last :=
        ⟨second, values, same ▸ found, fields⟩
      rcases ends.usable_or_unpaired noError with usable | unpaired
      · exact ⟨last, starts, usable⟩
      · exact absurd unpaired (paired last starts)
  · rintro ⟨last, ⟨second, values, found, fields⟩, usable⟩
    obtain ⟨first, entered, areRead⟩ :=
      readAll_int_iff.mpr ⟨type.code.toInt, second, found, Int32.ofInt_toInt _, fields⟩
    have reached : ((fromCbor.fromBytes frame).begin decoder).Reached decoder first :=
      CborDeserializer.begin_reached_of_small entered
    have kinds : readAll ((Field.int msgType :: targets).map Field.kind) first =
        some (.int type.code :: values, last) := areRead
    obtain ⟨moved, got, final⟩ := CborDeserializer.getAll_takes reached kinds
    exact ⟨values, moved, got, (final.at usable).1⟩

theorem getSubMsg_emits_iff (msgType : Int32) :
    (∃ msg after, getSubMsg decoder fromCbor frame msgType = some (some msg, after)) ↔
      ∃ text after,
        readText decoder .subscribe fromCbor frame msgType = some (some text, after) := by
  constructor
  · rintro ⟨msg, after, emitted⟩
    obtain ⟨⟨text, moved⟩, read, same⟩ := Option.map_eq_some_iff.mp emitted
    obtain ⟨pattern, isText, -⟩ := Option.map_eq_some_iff.mp (Prod.mk.inj same).1
    exact ⟨pattern, moved, isText ▸ read⟩
  · rintro ⟨text, after, read⟩
    exact ⟨{ pattern := text }, after, by rw [getSubMsg, read]; rfl⟩

theorem getNodeMsg_emits_iff (msgType : Int32) :
    (∃ msg after, getNodeMsg decoder fromCbor frame msgType = some (some msg, after)) ↔
      ∃ text after, readText decoder .node fromCbor frame msgType = some (some text, after) := by
  constructor
  · rintro ⟨msg, after, emitted⟩
    obtain ⟨⟨text, moved⟩, read, same⟩ := Option.map_eq_some_iff.mp emitted
    obtain ⟨node, isText, -⟩ := Option.map_eq_some_iff.mp (Prod.mk.inj same).1
    exact ⟨node, moved, isText ▸ read⟩
  · rintro ⟨text, after, read⟩
    exact ⟨{ node := text }, after, by rw [getNodeMsg, read]; rfl⟩

include rejects in
/-- Each filter of the proxy emits exactly the frames of its message type, whatever the others have
left in the deserializer. -/
theorem filters_emit_iff (range : IntRange (frame.take fromCbor.capacity)) (msgTypes : MsgTypes) :
    ((¬ ∃ last, StartsWith (frame.take fromCbor.capacity) .publish [.string, .bytes] last ∧
        last.element = .unpaired) →
      ((∃ msg after, getPubMsg decoder fromCbor frame msgTypes.getPubMsg =
          some (some msg, after)) ↔
        FrameOf (frame.take fromCbor.capacity) .publish [.string, .bytes])) ∧
    ((∃ msg after, getSubMsg decoder fromCbor frame msgTypes.getSubMsg = some (some msg, after)) ↔
      FrameOf (frame.take fromCbor.capacity) .subscribe [.string]) ∧
    ((∃ msg after, getNodeMsg decoder fromCbor frame msgTypes.getNodeMsg =
        some (some msg, after)) ↔
      FrameOf (frame.take fromCbor.capacity) .node [.string]) := by
  refine ⟨fun paired => ?_, ?_, ?_⟩
  · unfold getPubMsg
    rw [readPublish_emits_iff]
    exact getAll_frame_iff rejects fromCbor frame range _ [.string [], .bytes []]
      fun last starts unpaired => paired ⟨last, starts, unpaired⟩
  · rw [getSubMsg_emits_iff, readText_emits_iff]
    exact getAll_frame_iff rejects fromCbor frame range _ [.string []]
      fun last starts => startsWith_text_paired starts
  · rw [getNodeMsg_emits_iff, readText_emits_iff]
    exact getAll_frame_iff rejects fromCbor frame range _ [.string []]
      fun last starts => startsWith_text_paired starts

end

theorem filters_emit_three_elements :
    ∃ msg after, getPubMsg referenceDecoder (constructed 1024) [0x83, 0x00, 0x61, 0x61, 0x41, 0x01]
      0 = some (some msg, after) := by
  have range : IntRange [0x83, 0x00, 0x61, 0x61, 0x41, 0x01] := by
    intro number second found
    cases show some ((0 : Int), Cursor.mk [0x61, 0x61, 0x41, 0x01] (some 2) none) = _ from found
    decide
  have paired : ¬ ∃ last, StartsWith [0x83, 0x00, 0x61, 0x61, 0x41, 0x01] .publish
      [.string, .bytes] last ∧ last.element = .unpaired := by
    rintro ⟨last, ⟨second, values, found, areRead⟩, unpaired⟩
    cases show some ((0 : Int), Cursor.mk [0x61, 0x61, 0x41, 0x01] (some 2) none) = _ from found
    cases show some ([Field.string [0x61], .bytes [0x01]], Cursor.mk [] (some 0) none) = _
      from areRead
    cases unpaired
  exact ((filters_emit_iff referenceDecoder_rejects (constructed 1024)
    [0x83, 0x00, 0x61, 0x61, 0x41, 0x01] range ⟨0, 0, 0⟩).1 paired).mpr
      ⟨_, ⟨_, _, rfl, rfl⟩, rfl⟩

/-- The frame is an array, and ends after the fields. -/
def ExactFrame (frame : Bytes) (type : MsgType) (fields : List Kind) : Prop :=
  (Cbor.decodeHead frame).map Cbor.Head.major = some 4 ∧
    ∃ last, StartsWith frame type fields last ∧ last.element = .stop

/-- A publication with an element more than it should have is emitted. -/
theorem filter_emits_four_elements :
    (∃ msg after, getPubMsg referenceDecoder (constructed 1024)
        [0x84, 0x00, 0x61, 0x61, 0x41, 0x01, 0x07] 0 = some (some msg, after)) ∧
      ¬ ExactFrame [0x84, 0x00, 0x61, 0x61, 0x41, 0x01, 0x07] .publish [.string, .bytes] := by
  refine ⟨⟨{ topic := [0x61], payload := [0x01] }, _, rfl⟩, ?_⟩
  rintro ⟨-, last, ⟨second, values, found, areRead⟩, stops⟩
  cases show some ((0 : Int), Cursor.mk [0x61, 0x61, 0x41, 0x01, 0x07] (some 3) none) = _
    from found
  cases show some ([Field.string [0x61], .bytes [0x01]], Cursor.mk [0x07] (some 1) none) = _
    from areRead
  cases stops

end BrokerProxy.Protocol
