/-
This file reads back what a serializer has written: a list of values, each added with its
own `add` and read with the `get` of the same type. Every integer and every byte string
comes back. A string comes back up to its first NUL, since the deserializer makes it from a
C string, while the serializer has written it with its length.
-/

import BrokerProxy.Codec.Serializer
import BrokerProxy.Codec.Reader

namespace BrokerProxy.Codec

open Cbor (Cursor)

/-- The argument of `add` that writes a value. -/
def Field.argument : Field → Argument
  | .int t => .int t
  | .int64 t => .int64 t
  | .uint64 t => .uint64 t
  | .string t => .string t
  | .bytes t => .bytes t

/-- What is read back of a value. -/
def Field.received : Field → Field
  | .string t => .string (cString t)
  | value => value

/-- A string without a NUL byte, or another value. -/
def Field.NoNul : Field → Prop
  | .string t => 0 ∉ t
  | _ => True

/-! ### Values -/

/-- Exactly the strings with a NUL byte do not come back. -/
theorem Field.received_eq_iff (value : Field) : value.received = value ↔ value.NoNul := by
  cases value with
  | string t =>
    show Field.string (cString t) = .string t ↔ 0 ∉ t
    rw [Field.string.injEq, cString_eq_iff]
  | _ => exact ⟨fun _ => trivial, fun _ => rfl⟩

theorem received_eq_self_iff {values : List Field} :
    values.map Field.received = values ↔ ∀ value ∈ values, value.NoNul := by
  have each : values.map Field.received = values.map id ↔
      ∀ value ∈ values, value.received = value := List.map_inj_left
  rw [List.map_id] at each
  rw [each]
  exact forall₂_congr fun value _ => value.received_eq_iff

/-- The element that the encoding of a value starts with. -/
theorem Field.item_encoding (value : Field) (short : value.argument.encoding.length < 2 ^ 64)
    (rest : Bytes) :
    ∃ element, Cbor.item (value.argument.encoding ++ rest) = element ∧
      element.next = some rest ∧ value.kind.take element = some value.received := by
  cases value with
  | int t =>
    have lower := t.le_toInt
    have upper := t.toInt_lt
    refine ⟨_, Cbor.item_encodeInt (by omega) (by omega) rest, rfl, ?_⟩
    show some (Field.int (Int32.ofInt t.toInt)) = some (.int t)
    rw [Int32.ofInt_toInt]
  | int64 t =>
    have lower := t.le_toInt
    have upper := t.toInt_lt
    refine ⟨_, Cbor.item_encodeInt (by omega) (by omega) rest, rfl, ?_⟩
    show some (Field.int64 (Int64.ofInt t.toInt)) = some (.int64 t)
    rw [Int64.ofInt_toInt]
  | uint64 t =>
    have upper := t.toNat_lt
    have item : Cbor.item (Cbor.encodeInt t.toNat ++ rest) = .int t.toNat rest :=
      Cbor.item_encodeInt (by omega) (by omega) rest
    refine ⟨_, item, rfl, ?_⟩
    show some (Field.uint64 (UInt64.ofNat t.toNat)) = some (.uint64 t)
    rw [UInt64.ofNat_toNat]
  | string t =>
    have long : (Cbor.encodeText t).length < 2 ^ 64 := short
    rw [Cbor.length_encodeText] at long
    exact ⟨_, Cbor.item_encodeText ((Cbor.length_le_stringLength t).trans_lt long) rest, rfl, rfl⟩
  | bytes t =>
    have long : (Cbor.encodeBytes t).length < 2 ^ 64 := short
    rw [Cbor.length_encodeBytes] at long
    exact ⟨_, Cbor.item_encodeBytes ((Cbor.length_le_stringLength t).trans_lt long) rest, rfl, rfl⟩

/-- The encoding of a value is read in an array of indefinite length. -/
theorem Field.read_encoding (value : Field) (short : value.argument.encoding.length < 2 ^ 64)
    (rest : Bytes) :
    read value.kind { rest := value.argument.encoding ++ rest, remaining := none } =
      some (value.received, { rest := rest, remaining := none }) := by
  obtain ⟨element, item, complete, taken⟩ := value.item_encoding short rest
  obtain ⟨here, next⟩ := Cursor.element_next item complete
  exact read_of_take (by rw [here]; exact taken) next

/-! ### Lists -/

/-- The encodings of values are read one after the other. -/
theorem readAll_encodings (values : List Field)
    (short : ∀ value ∈ values, value.argument.encoding.length < 2 ^ 64) (rest : Bytes) :
    readAll (values.map Field.kind)
        { rest := ((values.map Field.argument).map Argument.encoding).flatten ++ rest,
          remaining := none } =
      some (values.map Field.received, { rest := rest, remaining := none }) := by
  induction values with
  | nil => rfl
  | cons value values inductionHypothesis =>
    obtain ⟨head, tail⟩ := List.forall_mem_cons.mp short
    rw [List.map_cons, List.map_cons, List.map_cons, List.flatten_cons, List.append_assoc]
    exact readAll_cons (value.read_encoding head _) (inductionHypothesis tail)

/-- An element of a small array is small. -/
theorem length_encoding_le {values : List Field} {value : Field} (member : value ∈ values) :
    value.argument.encoding.length ≤ (arrayEncoding (values.map Field.argument)).length := by
  rw [length_arrayEncoding, List.length_cons]
  have among : value.argument.encoding ∈ (values.map Field.argument).map Argument.encoding :=
    List.mem_map_of_mem (List.mem_map_of_mem member)
  have inside := (List.sublist_flatten_of_mem among).length_le
  omega

section

variable {width : Nat} {Value : Type} (tiny : TinyCborEncoder width)
  (decoder : TinyCborDecoder Value)

/-- Reading an array of values gives what is received of them. -/
theorem getAll_arrayEncoding (fromCbor : CborDeserializer Value) {values targets : List Field}
    (small : (arrayEncoding (values.map Field.argument)).length < 2 ^ 64)
    (room : (arrayEncoding (values.map Field.argument)).length ≤ fromCbor.capacity)
    (sameTypes : targets.map Field.kind = values.map Field.kind) :
    ∃ after,
      ((fromCbor.fromBytes (arrayEncoding (values.map Field.argument))).begin decoder).getAll
          decoder targets = some (values.map Field.received, after) ∧
        after.success = true := by
  have entered : Cursor.enter ((arrayEncoding (values.map Field.argument)).take
      fromCbor.capacity) = some
        { rest := ((values.map Field.argument).map Argument.encoding).flatten ++ [Cbor.breakByte]
          remaining := none } := by
    rw [List.take_of_length_le room]
    exact Cbor.enter_arrayStart _
  have reached : ((fromCbor.fromBytes (arrayEncoding (values.map Field.argument))).begin
      decoder).Reached decoder _ := CborDeserializer.begin_reached entered nofun
  obtain ⟨after, got, final⟩ := CborDeserializer.getAll_takes reached
    (by
      rw [sameTypes]
      exact readAll_encodings values
        (fun value member => (length_encoding_le member).trans_lt small) [Cbor.breakByte])
  exact ⟨after, got, decide_eq_true (final.at (by rw [Cbor.element_breakByte]; rfl)).1⟩

/-- The values of a list come back exactly if no string among them has a NUL byte. -/
theorem valueList_returns_iff (toCbor : CborSerializer width)
    (sizeType : toCbor.buffer.capacity < 2 ^ 32) (fromCbor : CborDeserializer Value)
    (values targets : List Field) (sameTypes : targets.map Field.kind = values.map Field.kind)
    (success : (toCbor.serialize tiny (values.map Field.argument)).success = true) :
    ∃ encoded, (toCbor.serialize tiny (values.map Field.argument)).toBytes = some encoded ∧
      (encoded.length ≤ fromCbor.capacity →
        ((∃ after, ((fromCbor.fromBytes encoded).begin decoder).getAll decoder targets =
            some (values, after) ∧ after.success = true) ↔
          ∀ value ∈ values, value.NoNul)) := by
  obtain ⟨fits, bytes⟩ := toBytes_of_success tiny toCbor _ success
  refine ⟨_, bytes, fun room => ?_⟩
  obtain ⟨after, got, succeeded⟩ :=
    getAll_arrayEncoding decoder fromCbor (by omega) room sameTypes
  rw [got, ← received_eq_self_iff]
  constructor
  · rintro ⟨final, same, -⟩
    exact congrArg Prod.fst (Option.some.inj same)
  · intro same
    rw [same]
    exact ⟨after, rfl, succeeded⟩

end

theorem valueList_returns_three :
    ∃ encoded after,
      ((constructedAt (pageBlock 100 (by decide))).serialize (referenceEncoder 64)
        [.int (-1), .string [0x61], .bytes [0x00]]).toBytes = some encoded ∧
      (((constructed 100).fromBytes encoded).begin referenceDecoder).getAll referenceDecoder
        [.int 0, .string [], .bytes []] = some ([.int (-1), .string [0x61], .bytes [0x00]], after) ∧
      after.success = true := by
  obtain ⟨encoded, bytes, returns⟩ := valueList_returns_iff (referenceEncoder 64) referenceDecoder
    (constructedAt (pageBlock 100 (by decide))) (by decide) (constructed 100)
    [.int (-1), .string [0x61], .bytes [0x00]] [.int 0, .string [], .bytes []] rfl
    (by decide +kernel)
  have array : ((constructedAt (pageBlock 100 (by decide))).serialize (referenceEncoder 64)
      [.int (-1), .string [0x61], .bytes [0x00]]).toBytes =
        some [0x9F, 0x20, 0x61, 0x61, 0x41, 0x00, 0xFF] := by decide +kernel
  have room : encoded.length ≤ (constructed 100).capacity := by
    rw [Option.some.inj (bytes.symm.trans array)]
    decide
  have noNul : ∀ value ∈ ([.int (-1), .string [0x61], .bytes [0x00]] : List Field),
      value.NoNul := by
    refine List.forall_mem_cons.mpr ⟨trivial, List.forall_mem_cons.mpr ⟨?_, ?_⟩⟩
    · show 0 ∉ [(0x61 : UInt8)]
      decide
    · exact List.forall_mem_singleton.mpr trivial
  obtain ⟨after, got, success⟩ := (returns room).mpr noNul
  exact ⟨encoded, after, bytes, got, success⟩

/-- A string with a NUL byte in the middle is written, and read back up to the NUL. -/
theorem string_returns_cut :
    ((constructedAt (pageBlock 100 (by decide))).serialize (referenceEncoder 64)
        [.string [0x61, 0x00, 0x62]]).success = true ∧
      ∃ encoded after,
        ((constructedAt (pageBlock 100 (by decide))).serialize (referenceEncoder 64)
          [.string [0x61, 0x00, 0x62]]).toBytes = some encoded ∧
        encoded.length ≤ (constructed 100).capacity ∧
        (((constructed 100).fromBytes encoded).begin referenceDecoder).getAll referenceDecoder
          [.string []] = some ([.string [0x61]], after) ∧
        after.success = true ∧ [Field.string [0x61]] ≠ [.string [0x61, 0x00, 0x62]] :=
  ⟨by decide +kernel, [0x9F, 0x63, 0x61, 0x00, 0x62, 0xFF], _, by decide +kernel, by decide, rfl,
    by decide, by decide⟩

end BrokerProxy.Codec
