/-
This file models the reflection of `MsgPublish`. One template visits the members of the
message, and a reflector decides what a visit does: one writes the members into an array,
the other reads them from a frame. The type of the message is a constant. The reflector
that writes adds it like any integer. The one that reads asks for an integer in its place
and does not look at the number, so what has the shape of a publication is taken for one.
-/

import BrokerProxy.Codec.ValueList
import BrokerProxy.Protocol.Grammar

namespace BrokerProxy.Protocol

open Codec
open Cbor (Cursor)

/-! ### The template -/

/-- `MsgPublish`. -/
structure MsgPublish where
  id : Int32
  value : Bytes
deriving DecidableEq

/-- `MsgPublish::TYPE`. -/
def MsgPublish.type : Int32 := MsgType.publish.code

/-- What a template of `reflect` asks of a reflector: `member` of a constant, of a variable and of
bytes, between `begin` and `end`. A visit may set the member. -/
structure Reflector (State : Type) where
  begin : State → State
  memberConst : State → Int32 → State
  memberInt : State → Int32 → Int32 × State
  memberBytes : State → Bytes → Option (Bytes × State)
  «end» : State → State

/-- `MsgPublish::reflect`. -/
def MsgPublish.reflect {State : Type} (r : Reflector State) (msg : MsgPublish) (state : State) :
    Option (MsgPublish × State) :=
  let id := r.memberInt (r.memberConst (r.begin state) MsgPublish.type) msg.id
  (r.memberBytes id.2 msg.value).map fun value =>
    ({ id := id.1, value := value.1 }, r.end value.2)

section

variable {width : Nat} {Value : Type}

/-- `ReflectToCbor`. -/
def reflectToCbor (tiny : TinyCborEncoder width) : Reflector (CborSerializer width) where
  begin serializer := serializer.begin tiny
  memberConst serializer t := serializer.addInt tiny t
  memberInt serializer t := (t, serializer.addInt tiny t)
  memberBytes serializer t := some (t, serializer.addBytes tiny t)
  «end» serializer := serializer.end tiny

/-- `ReflectFromCbor`. -/
def reflectFromCbor (tiny : TinyCborDecoder Value) : Reflector (CborDeserializer Value) where
  begin deserializer := deserializer.begin tiny
  memberConst deserializer t := deserializer.getConstInt tiny t
  memberInt deserializer t := deserializer.getInt tiny t
  memberBytes deserializer t := deserializer.getBytes tiny t
  «end» deserializer := deserializer.end

/-! ### Writing -/

/-- The members of a message, as they are visited. -/
def MsgPublish.members (msg : MsgPublish) : List Field :=
  [.int MsgPublish.type, .int msg.id, .bytes msg.value]

/-- The array of a message. -/
def MsgPublish.encoding (msg : MsgPublish) : Bytes :=
  arrayEncoding (msg.members.map Field.argument)

/-- Reflecting a message into a serializer adds its members and leaves it as it is. -/
theorem reflect_toCbor (tiny : TinyCborEncoder width) (msg : MsgPublish)
    (serializer : CborSerializer width) :
    msg.reflect (reflectToCbor tiny) serializer =
      some (msg, serializer.serialize tiny (msg.members.map Field.argument)) := rfl

/-- What is written of a message that fits is its array. -/
theorem toBytes_of_fits (tiny : TinyCborEncoder width) {msg : MsgPublish}
    {serializer : CborSerializer width} (fits : msg.encoding.length ≤ serializer.buffer.capacity) :
    (serializer.serialize tiny (msg.members.map Field.argument)).toBytes = some msg.encoding := by
  have different : msg.encoding.length ≠ serializer.buffer.capacity + 1 := by omega
  have promise := (serialize_promise_iff tiny serializer _).mpr different
  refine promise.bytes ?_
  rw [serialize_buffer]
  exact fits

/-! ### Reading -/

/-- The array or map at the start of the input begins with two integers and a byte string that is
there completely, and `last` is the position after them. -/
def BeginsWith (received : Bytes) (zeroth number : Int) (value : Bytes) (last : Cursor) : Prop :=
  ∃ second third rest later, firstInteger received = some (zeroth, second) ∧
    second.element = .int number rest ∧ second.next = some third ∧
    third.element = .bytes (some (value, later)) ∧ third.next = some last

/-- A position that a release of the decoder moves to: an element whose head is well formed, the
end, or the end of a map where a value is due, if that is allowed. -/
def Allowed (allowed : Bool) (last : Cursor) : Prop :=
  last.element.usable = true ∨ (last.element = .unpaired ∧ allowed = true)

/-- The container begins so if two integers and the bytes are read one after the other. -/
theorem beginsWith_iff_read {received value : Bytes} {id : Int32} {last : Cursor} :
    (∃ zeroth number, BeginsWith received zeroth number value last ∧ Int32.ofInt number = id) ↔
      ∃ zeroth first second third, enterSmall received = some first ∧
        read .int first = some (.int zeroth, second) ∧
        read .int second = some (.int id, third) ∧
        read .bytes third = some (.bytes value, last) := by
  constructor
  · rintro ⟨zeroth, number, ⟨second, third, rest, later, isFirst, elementId, nextId, elementValue,
      nextValue⟩, converted⟩
    obtain ⟨first, _, entered, elementType, nextType⟩ := firstInteger_eq_some_iff.mp isFirst
    exact ⟨Int32.ofInt zeroth, first, second, third, entered,
      read_of_take (by rw [elementType]; rfl) nextType,
      read_of_take (by rw [elementId, ← converted]; rfl) nextId,
      read_of_take (by rw [elementValue]; rfl) nextValue⟩
  · rintro ⟨zeroth, first, second, third, entered, isType, isId, isValue⟩
    obtain ⟨takenType, nextType⟩ := take_of_read isType
    obtain ⟨number₀, _, elementType, -⟩ := Kind.take_int takenType
    obtain ⟨takenId, nextId⟩ := take_of_read isId
    obtain ⟨number, rest, elementId, sameId⟩ := Kind.take_int takenId
    obtain ⟨takenValue, nextValue⟩ := take_of_read isValue
    obtain ⟨body, later, elementValue, sameValue⟩ := Kind.take_bytes takenValue
    cases sameValue
    have isFirst := firstInteger_eq_some_iff.mpr ⟨first, _, entered, elementType, nextType⟩
    exact ⟨number₀, number, ⟨second, third, rest, later, isFirst, elementId, nextId, elementValue,
      nextValue⟩, (Field.int.inj sameId).symm⟩

variable {decoder : TinyCborDecoder Value}

/-- Reflecting a message from a deserializer is a call of `get` for each member, of which the first
is forgotten. -/
theorem reflect_fromCbor_iff {target msg : MsgPublish}
    {deserializer after : CborDeserializer Value} :
    target.reflect (reflectFromCbor decoder) deserializer = some (msg, after) ↔
      ∃ zeroth, (deserializer.begin decoder).getAll decoder target.members =
        some ([.int zeroth, .int msg.id, .bytes msg.value], after) := by
  obtain ⟨id, value⟩ := msg
  have constant : (deserializer.begin decoder).getConstInt decoder MsgPublish.type =
      ((deserializer.begin decoder).getInt decoder MsgPublish.type).2 :=
    CborDeserializer.getConstInt_eq_getInt decoder _ _ _
  unfold MsgPublish.reflect MsgPublish.members reflectFromCbor
  dsimp only
  rw [constant, CborDeserializer.getAll_int, CborDeserializer.getAll_int,
    CborDeserializer.getAll_bytes]
  constructor
  · intro reflected
    obtain ⟨got, found, same⟩ := Option.map_eq_some_iff.mp reflected
    cases same
    refine ⟨((deserializer.begin decoder).getInt decoder MsgPublish.type).1, ?_⟩
    rw [found]
    rfl
  · rintro ⟨zeroth, all⟩
    obtain ⟨⟨others, final⟩, afterType, same⟩ := Option.map_eq_some_iff.mp all
    cases same
    obtain ⟨⟨others, final⟩, afterId, same⟩ := Option.map_eq_some_iff.mp afterType
    cases same
    obtain ⟨got, found, same⟩ := Option.bind_eq_some_iff.mp afterId
    cases same
    rw [found]
    rfl

variable (rejects : decoder.Rejects) {allowed : Bool} (breaks : decoder.AllowsBreak allowed)

include rejects

/-- A call at an element of its kind takes the value and moves on. -/
theorem get_at {deserializer : CborDeserializer Value} {cursor next : Cursor}
    (here : deserializer.At decoder cursor) {target value : Field}
    (isRead : read target.kind cursor = some (value, next)) :
    ∃ moved, deserializer.get decoder target = some (value, moved) ∧ moved.At decoder next := by
  obtain ⟨taken, isNext⟩ := take_of_read isRead
  exact ⟨_, CborDeserializer.get_takes here.reached taken, here.advanced rejects taken isNext⟩

include breaks

/-- Reading bytes succeeds if the decoder can move to what comes after them. -/
theorem getBytes_at {deserializer : CborDeserializer Value} {third last : Cursor}
    (here : deserializer.At decoder third) {value : Bytes}
    (isRead : read .bytes third = some (.bytes value, last)) (t : Bytes) :
    ∃ moved, deserializer.get decoder (.bytes t) = some (.bytes value, moved) ∧
      (moved.err = .noError ↔ Allowed allowed last) := by
  obtain ⟨taken, next⟩ := take_of_read isRead
  have target : (Field.bytes t).kind.take third.element = some (.bytes value) := taken
  have moved := here.advanced rejects target next
  have usable := (Kind.fits_of_take taken).2.1
  have viewed : (decoder.view deserializer.it).next = some last := by
    rw [(here.reached.at usable).2]
    exact next
  refine ⟨_, CborDeserializer.get_takes here.reached target, ?_, ?_⟩
  · intro noError
    rcases moved.usable_or_unpaired noError with usable | unpaired
    · exact Or.inl usable
    · exact Or.inr ⟨unpaired, (breaks _ last viewed unpaired).mp noError⟩
  · rintro (usable | ⟨unpaired, isAllowed⟩)
    · exact (moved.reached.at usable).1
    · exact (breaks _ last viewed unpaired).mpr isAllowed

/-- Reflecting a message from a frame succeeds exactly where a container begins with two integers
and a byte string. The second integer is converted to the number of the resource. -/
theorem reflect_accepts_iff (fromCbor : CborDeserializer Value) (frame : Bytes)
    (target msg : MsgPublish) :
    (∃ after, target.reflect (reflectFromCbor decoder) (fromCbor.fromBytes frame) =
        some (msg, after) ∧ after.success = true) ↔
      ∃ last, (∃ zeroth number, BeginsWith (frame.take fromCbor.capacity) zeroth number msg.value
          last ∧ Int32.ofInt number = msg.id) ∧ Allowed allowed last := by
  constructor
  · rintro ⟨after, reflected, success⟩
    have noError : after.err = .noError := of_decide_eq_true success
    obtain ⟨zeroth, all⟩ := reflect_fromCbor_iff.mp reflected
    have begun := CborDeserializer.err_of_getAll all noError
    cases entered : enterSmall (frame.take fromCbor.capacity) with
    | none => exact absurd begun (CborDeserializer.begin_failed rejects entered)
    | some first =>
      have atFirst := CborDeserializer.begin_at rejects entered
      obtain ⟨_, afterType, _, gotType, others, same⟩ := CborDeserializer.of_getAll_cons all
      cases same
      obtain ⟨second, isType, atSecond⟩ :=
        atFirst.get_success rejects gotType (CborDeserializer.err_of_getAll others noError)
      obtain ⟨_, afterId, _, gotId, bytes, same⟩ := CborDeserializer.of_getAll_cons others
      cases same
      obtain ⟨third, isId, atThird⟩ :=
        atSecond.get_success rejects gotId (CborDeserializer.err_of_getAll bytes noError)
      obtain ⟨_, afterValue, _, gotValue, nothing, same⟩ := CborDeserializer.of_getAll_cons bytes
      cases same
      cases nothing
      obtain ⟨last, isValue, -⟩ := atThird.get_success rejects gotValue noError
      obtain ⟨moved, got, accepted⟩ := getBytes_at rejects breaks atThird isValue target.value
      cases gotValue.symm.trans got
      exact ⟨last, beginsWith_iff_read.mpr ⟨zeroth, first, second, third, entered, isType, isId,
        isValue⟩, accepted.mp noError⟩
  · rintro ⟨last, begins, isAllowed⟩
    obtain ⟨zeroth, first, second, third, entered, isType, isId, isValue⟩ :=
      beginsWith_iff_read.mp begins
    have isType : read (Field.kind (.int MsgPublish.type)) first = some (.int zeroth, second) :=
      isType
    have isId : read (Field.kind (.int target.id)) second = some (.int msg.id, third) := isId
    obtain ⟨afterType, gotType, atSecond⟩ :=
      get_at rejects (CborDeserializer.begin_at rejects entered) isType
    obtain ⟨afterId, gotId, atThird⟩ := get_at rejects atSecond isId
    obtain ⟨afterValue, gotValue, accepted⟩ :=
      getBytes_at rejects breaks atThird isValue target.value
    have nothing : afterValue.getAll decoder [] = some ([], afterValue) := rfl
    have all := CborDeserializer.getAll_cons gotType
      (CborDeserializer.getAll_cons gotId (CborDeserializer.getAll_cons gotValue nothing))
    exact ⟨afterValue, reflect_fromCbor_iff.mpr ⟨zeroth, all⟩,
      decide_eq_true (accepted.mpr isAllowed)⟩

end

/-! ### Publications -/

/-- The input starts with an array. -/
def IsArray (received : Bytes) : Prop := (Cbor.decodeHead received).map Cbor.Head.major = some 4

/-- The frame is an array whose first elements are the type of a publication, the number of the
resource and the value. -/
def IsPublish (frame : Bytes) (msg : MsgPublish) : Prop :=
  IsArray frame ∧
    ∃ last, BeginsWith frame MsgPublish.type.toInt msg.id.toInt msg.value last

/-- Where the container at the start of the input begins with two integers and a byte string, it is
an array, the first integer is the type of a publication, and the second is in the range of
`int`. -/
def PublishOnly (allowed : Bool) (received : Bytes) : Prop :=
  ∀ zeroth number value last, BeginsWith received zeroth number value last →
    Allowed allowed last →
      IsArray received ∧ zeroth = MsgPublish.type.toInt ∧ -2 ^ 31 ≤ number ∧ number < 2 ^ 31

/-- The bytes beyond the capacity do not change what a container begins with. -/
theorem enterSmall_extend {received : Bytes} {cursor : Cursor}
    (entered : enterSmall received = some cursor) (more : Bytes) :
    enterSmall (received ++ more) = some (cursor.extend more) := by
  obtain ⟨isEntered, small⟩ := of_enterSmall entered
  exact enterSmall_of_small (Cursor.enter_extend isEntered more) small

theorem BeginsWith.extend {received value : Bytes} {zeroth number : Int} {last : Cursor}
    (begins : BeginsWith received zeroth number value last) (more : Bytes) :
    BeginsWith (received ++ more) zeroth number value (last.extend more) := by
  obtain ⟨second, third, rest, later, isFirst, elementId, nextId, elementValue, nextValue⟩ := begins
  obtain ⟨first, before, entered, elementType, nextType⟩ := firstInteger_eq_some_iff.mp isFirst
  have element {cursor : Cursor} {here : Cbor.Element} (found : cursor.element = here)
      (complete : here.next ≠ none) : (cursor.extend more).element = here.append more := by
    subst found
    exact Cursor.element_extend complete more
  refine ⟨second.extend more, third.extend more, rest ++ more, later ++ more, ?_,
    element elementId nofun, Cursor.next_extend nextId more, element elementValue nofun,
    Cursor.next_extend nextValue more⟩
  exact firstInteger_eq_some_iff.mpr ⟨first.extend more, before ++ more,
    enterSmall_extend entered more, element elementType nofun, Cursor.next_extend nextType more⟩

/-- A container begins in one way. -/
theorem BeginsWith.unique {received value otherValue : Bytes}
    {zeroth number otherZeroth otherNumber : Int} {last otherLast : Cursor}
    (begins : BeginsWith received zeroth number value last)
    (others : BeginsWith received otherZeroth otherNumber otherValue otherLast) :
    zeroth = otherZeroth ∧ number = otherNumber ∧ value = otherValue := by
  obtain ⟨second, third, rest, later, isFirst, elementId, nextId, elementValue, -⟩ := begins
  obtain ⟨second', third', rest', later', isFirst', elementId', nextId', elementValue', -⟩ := others
  cases isFirst.symm.trans isFirst'
  cases elementId.symm.trans elementId'
  cases nextId.symm.trans nextId'
  cases elementValue.symm.trans elementValue'
  exact ⟨rfl, rfl, rfl⟩

theorem BeginsWith.isArray_iff {received value : Bytes} {zeroth number : Int} {last : Cursor}
    (begins : BeginsWith received zeroth number value last) (more : Bytes) :
    IsArray (received ++ more) ↔ IsArray received := by
  obtain ⟨second, third, rest, later, isFirst, -⟩ := begins
  obtain ⟨first, before, entered, -⟩ := firstInteger_eq_some_iff.mp isFirst
  have isEntered := (of_enterSmall entered).1
  unfold IsArray
  cases head : Cbor.decodeHead received with
  | none =>
    rw [Cursor.enter, head] at isEntered
    cases isEntered
  | some found =>
    rw [Cbor.decodeHead_append head]
    rfl

section

variable {width : Nat} {Value : Type} {decoder : TinyCborDecoder Value} {allowed : Bool}

/-- A message that fits is restored. -/
theorem reflect_returns (tiny : TinyCborEncoder width) (decoder : TinyCborDecoder Value)
    {toCbor : CborSerializer width} (sizeType : toCbor.buffer.capacity < 2 ^ 32)
    {fromCbor : CborDeserializer Value} {msg : MsgPublish}
    (fits : msg.encoding.length ≤ toCbor.buffer.capacity)
    (room : msg.encoding.length ≤ fromCbor.capacity) (target : MsgPublish) :
    ∃ written encoded after, msg.reflect (reflectToCbor tiny) toCbor = some (msg, written) ∧
      written.toBytes = some encoded ∧
      target.reflect (reflectFromCbor decoder) (fromCbor.fromBytes encoded) = some (msg, after) ∧
      after.success = true := by
  have small : msg.encoding.length < 2 ^ 64 := by omega
  have sameTypes : target.members.map Field.kind = msg.members.map Field.kind := rfl
  obtain ⟨after, got, success⟩ :=
    getAll_arrayEncoding decoder fromCbor small room sameTypes
  exact ⟨_, msg.encoding, after, reflect_toCbor tiny msg toCbor, toBytes_of_fits tiny fits,
    reflect_fromCbor_iff.mpr ⟨MsgPublish.type, got⟩, success⟩

/-- Only publications are taken for publications if the frame does not begin as another message of
the same shape does. -/
theorem reflect_exact_iff (rejects : decoder.Rejects) (breaks : decoder.AllowsBreak allowed)
    (tiny : TinyCborEncoder width) (toCbor : CborSerializer width)
    (sizeType : toCbor.buffer.capacity < 2 ^ 32) (fromCbor : CborDeserializer Value) :
    (∀ msg target : MsgPublish, msg.encoding.length ≤ toCbor.buffer.capacity →
      msg.encoding.length ≤ fromCbor.capacity →
        ∃ written encoded after, msg.reflect (reflectToCbor tiny) toCbor = some (msg, written) ∧
          written.toBytes = some encoded ∧
          target.reflect (reflectFromCbor decoder) (fromCbor.fromBytes encoded) =
            some (msg, after) ∧ after.success = true) ∧
    ∀ frame : Bytes,
      (∀ (target msg : MsgPublish) (after : CborDeserializer Value),
        target.reflect (reflectFromCbor decoder) (fromCbor.fromBytes frame) = some (msg, after) →
          after.success = true → IsPublish frame msg) ↔
        PublishOnly allowed (frame.take fromCbor.capacity) := by
  refine ⟨fun msg target fits room => reflect_returns tiny decoder sizeType fits room target,
    fun frame => ?_⟩
  have whole : frame.take fromCbor.capacity ++ frame.drop fromCbor.capacity = frame :=
    List.take_append_drop _ _
  constructor
  · intro publishes zeroth number value last begins isAllowed
    obtain ⟨after, reflected, success⟩ := (reflect_accepts_iff rejects breaks fromCbor frame
      ⟨0, []⟩ ⟨Int32.ofInt number, value⟩).mpr ⟨last, ⟨zeroth, number, begins, rfl⟩, isAllowed⟩
    obtain ⟨isArray, other, publishBegins⟩ := publishes _ _ after reflected success
    have extended := begins.extend (frame.drop fromCbor.capacity)
    rw [whole] at extended
    obtain ⟨sameType, sameId, -⟩ := extended.unique publishBegins
    have array := begins.isArray_iff (frame.drop fromCbor.capacity)
    rw [whole] at array
    refine ⟨array.mp isArray, sameType, ?_⟩
    rw [sameId]
    exact ⟨Int32.le_toInt _, Int32.toInt_lt _⟩
  · intro only target msg after reflected success
    obtain ⟨last, ⟨zeroth, number, begins, converted⟩, isAllowed⟩ :=
      (reflect_accepts_iff rejects breaks fromCbor frame target msg).mp
        ⟨after, reflected, success⟩
    obtain ⟨isArray, sameType, lower, upper⟩ := only zeroth number msg.value last begins isAllowed
    have sameId : msg.id.toInt = number := by
      rw [← converted, Int32.toInt_ofInt_of_le lower upper]
    have extended := begins.extend (frame.drop fromCbor.capacity)
    have array := (begins.isArray_iff (frame.drop fromCbor.capacity)).mpr isArray
    rw [whole] at extended array
    rw [sameType, ← sameId] at extended
    exact ⟨array, _, extended⟩

end

theorem reflect_exact_three_elements :
    ∃ after, (MsgPublish.mk 0 []).reflect (reflectFromCbor referenceDecoder)
        ((constructed 100).fromBytes [0x83, 0x00, 0x05, 0x41, 0x02]) = some (⟨5, [0x02]⟩, after) ∧
      after.success = true ∧ IsPublish [0x83, 0x00, 0x05, 0x41, 0x02] ⟨5, [0x02]⟩ := by
  have only : PublishOnly false [0x83, 0x00, 0x05, 0x41, 0x02] := by
    rintro zeroth number value last ⟨second, third, rest, later, isFirst, elementId, -⟩ -
    cases show some ((0 : Int), Cursor.mk [0x05, 0x41, 0x02] (some 2) none) = _ from isFirst
    cases show Cbor.Element.int 5 [0x41, 0x02] = _ from elementId
    exact ⟨rfl, rfl, by decide⟩
  have exactly := reflect_exact_iff referenceDecoder_rejects referenceDecoder_allowsBreak
    (referenceEncoder 64) (constructedAt (pageBlock 100 (by decide))) (by decide) (constructed 100)
  exact ⟨_, rfl, rfl, (exactly.2 [0x83, 0x00, 0x05, 0x41, 0x02]).mpr only ⟨0, []⟩ _ _ rfl rfl⟩

/-- A message of the type 1 that has the shape of a publication is taken for one. -/
theorem reflect_accepts_other_type :
    (∃ after, (MsgPublish.mk 0 []).reflect (reflectFromCbor referenceDecoder)
        ((constructed 100).fromBytes [0x83, 0x01, 0x05, 0x41, 0x02]) = some (⟨5, [0x02]⟩, after) ∧
      after.success = true) ∧
    ¬ IsPublish [0x83, 0x01, 0x05, 0x41, 0x02] ⟨5, [0x02]⟩ := by
  refine ⟨⟨_, rfl, rfl⟩, ?_⟩
  rintro ⟨-, last, second, third, rest, later, isFirst, -⟩
  cases show some ((1 : Int), Cursor.mk [0x05, 0x41, 0x02] (some 2) none) = _ from isFirst

end BrokerProxy.Protocol
