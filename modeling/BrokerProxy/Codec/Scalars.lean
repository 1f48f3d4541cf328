/-
This file is about getters that are tried one after the other on the same bytes: for an
integer, for a floating-point number and for a string, each after a `fromBytes` and a
`begin` of its own, as the callbacks on a message do.

Whatever the bytes are and whatever the deserializer has done before, at most one of the
three succeeds, since a `CborValue` has one type. Which one succeeds and what it gives is
a function of the bytes, the scalar that they hold.
-/

import BrokerProxy.Codec.ValueList

namespace BrokerProxy.Codec

open Cbor (Cursor)

variable {Value Double : Type} {tiny : TinyCborDecoder Value}

/-- The functions of TinyCBOR for floating-point numbers. A value is of one type. -/
structure DoubleDecoder (tiny : TinyCborDecoder Value) (Double : Type) where
  isDouble : Value → Bool
  getDouble : Value → CborError × Double
  integer_excludes : ∀ value, tiny.isInteger value = true →
    isDouble value = false ∧ tiny.isTextString value = false
  double_excludes : ∀ value, isDouble value = true →
    tiny.isTextString value = false ∧ tiny.isByteString value = false

/-- `get(double)`. -/
def CborDeserializer.getDouble (doubles : DoubleDecoder tiny Double)
    (deserializer : CborDeserializer Value) (t : Double) : Double × CborDeserializer Value :=
  deserializer.getNumber doubles.isDouble doubles.getDouble tiny.advance t

/-- What one of the three getters gives. -/
inductive Scalar (Double : Type)
  | integer (n : Int64)
  | double (d : Double)
  | text (s : Bytes)

/-- The first element, if the bytes are a container that can be entered. -/
def TinyCborDecoder.firstElement (tiny : TinyCborDecoder Value) (bytes : Bytes) : Option Value :=
  let rootIt := (tiny.parserInit bytes).2
  if tiny.isContainer rootIt = true ∧ (tiny.enterContainer rootIt).1 = .noError then
    some (tiny.enterContainer rootIt).2
  else none

/-- What a getter takes: what was read, if the decoder moves on behind it. -/
def taken {Content : Type} (read : CborError × Content) (moved : CborError) : Option Content :=
  if read.1 = .noError ∧ moved = .noError then some read.2 else none

/-- The scalar that a value holds. -/
def scalarAt (doubles : DoubleDecoder tiny Double) (value : Value) : Option (Scalar Double) :=
  if tiny.isInteger value then
    (taken (tiny.getInt64 value) (tiny.advance value).1).map .integer
  else if doubles.isDouble value then
    (taken (doubles.getDouble value) (tiny.advance value).1).map .double
  else if tiny.isTextString value then
    (taken (tiny.dupTextString value) (tiny.advance value).1).join.map fun temp =>
      .text (cString temp)
  else none

/-- The scalar that bytes hold. -/
def scalar (doubles : DoubleDecoder tiny Double) (bytes : Bytes) : Option (Scalar Double) :=
  (tiny.firstElement bytes).bind (scalarAt doubles)

/-! ### The getters -/

theorem taken_eq_some_iff {Content : Type} {read : CborError × Content} {moved : CborError}
    {content : Content} :
    taken read moved = some content ↔
      read.1 = .noError ∧ moved = .noError ∧ read.2 = content := by
  unfold taken
  split
  · rename_i both
    rw [Option.some_inj]
    exact ⟨fun same => ⟨both.1, both.2, same⟩, fun all => all.2.2⟩
  · rename_i neither
    exact ⟨nofun, fun all => absurd ⟨all.1, all.2.1⟩ neither⟩

namespace CborDeserializer

variable {deserializer : CborDeserializer Value}

/-- A getter succeeds with a number exactly where it takes the number. -/
theorem getNumber_success_iff {Number : Type} {isNumber : Value → Bool}
    {read : Value → CborError × Number} {move : Value → CborError × Value} (t number : Number) :
    (deserializer.getNumber isNumber read move t).2.success = true ∧
        (deserializer.getNumber isNumber read move t).1 = number ↔
      deserializer.err = .noError ∧ isNumber deserializer.it = true ∧
        taken (read deserializer.it) (move deserializer.it).1 = some number := by
  by_cases found : deserializer.err = .noError ∧ isNumber deserializer.it = true
  · rw [taken_eq_some_iff, and_iff_right found.1, and_iff_right found.2, getNumber, if_pos found,
      success, decide_eq_true_iff]
    dsimp only
    by_cases noError : (read deserializer.it).1 = .noError
    · rw [if_pos noError, and_iff_right noError]
      rfl
    · rw [if_neg noError]
      exact ⟨fun both => absurd both.1 noError, fun all => absurd all.1 noError⟩
  · rw [getNumber_refused found]
    exact ⟨fun both => absurd both.1 Bool.false_ne_true, fun all => absurd ⟨all.1, all.2.1⟩ found⟩

/-- `get(std::string)` succeeds with a string exactly where it takes the string. -/
theorem getString_success_iff {t s : Bytes} {got : Bytes × CborDeserializer Value}
    (done : deserializer.getString tiny t = some got) :
    got.2.success = true ∧ got.1 = s ↔
      deserializer.err = .noError ∧ tiny.isTextString deserializer.it = true ∧
        (taken (tiny.dupTextString deserializer.it)
          (tiny.advance deserializer.it).1).join.map cString = some s := by
  by_cases found : deserializer.err = .noError ∧ tiny.isTextString deserializer.it = true
  · rw [getString, if_pos found] at done
    obtain ⟨temp, duplicated, rfl⟩ := Option.map_eq_some_iff.mp done
    rw [and_iff_right found.1, and_iff_right found.2, success, decide_eq_true_iff, taken,
      duplicated]
    by_cases noError : (tiny.dupTextString deserializer.it).1 = .noError
    · rw [if_pos noError]
      by_cases moved : (tiny.advance deserializer.it).1 = .noError
      · rw [if_pos ⟨noError, moved⟩]
        exact ⟨fun both => congrArg some both.2, fun same => ⟨moved, Option.some.inj same⟩⟩
      · rw [if_neg fun both => moved both.2]
        exact ⟨fun both => absurd both.1 moved, nofun⟩
    · rw [if_neg noError, if_neg fun both => noError both.1]
      exact ⟨fun both => absurd both.1 noError, nofun⟩
  · rw [getString_refused found] at done
    obtain rfl := Option.some.inj done
    exact ⟨fun both => absurd both.1 Bool.false_ne_true, fun all => absurd ⟨all.1, all.2.1⟩ found⟩

/-- `begin` stands at the first element of the bytes, or has an error. -/
theorem begin_at_first {bs : Bytes} {value : Value}
    (first : tiny.firstElement (bs.take deserializer.capacity) = some value) :
    ((deserializer.fromBytes bs).begin tiny).err = .noError ∧
      ((deserializer.fromBytes bs).begin tiny).it = value := by
  unfold TinyCborDecoder.firstElement at first
  dsimp only at first
  split at first
  · rename_i entered
    unfold begin
    rw [buffer_fromBytes]
    dsimp only
    rw [if_pos entered.1]
    exact ⟨entered.2, Option.some.inj first⟩
  · cases first

theorem begin_of_none {bs : Bytes}
    (nothing : tiny.firstElement (bs.take deserializer.capacity) = none) :
    ((deserializer.fromBytes bs).begin tiny).err ≠ .noError := by
  unfold TinyCborDecoder.firstElement at nothing
  dsimp only at nothing
  split at nothing
  · cases nothing
  · rename_i outside
    unfold begin
    rw [buffer_fromBytes]
    dsimp only
    split
    · rename_i container
      exact fun noError => outside ⟨container, noError⟩
    · nofun

/-- What a getter takes of bytes, in terms of the value that `begin` stands at. -/
theorem begin_takes_iff {bs : Bytes} {Content : Type} {isContent : Value → Bool}
    (read : Value → Option Content) {content : Content} :
    ((deserializer.fromBytes bs).begin tiny).err = .noError ∧
        isContent ((deserializer.fromBytes bs).begin tiny).it = true ∧
        read ((deserializer.fromBytes bs).begin tiny).it = some content ↔
      ∃ value, tiny.firstElement (bs.take deserializer.capacity) = some value ∧
        isContent value = true ∧ read value = some content := by
  cases first : tiny.firstElement (bs.take deserializer.capacity) with
  | none => exact ⟨fun all => absurd all.1 (begin_of_none first), nofun⟩
  | some value =>
    obtain ⟨noError, here⟩ := begin_at_first first
    rw [here, and_iff_right noError]
    exact ⟨fun both => ⟨value, rfl, both⟩, fun ⟨_, same, both⟩ => Option.some.inj same ▸ both⟩

/-- A getter gives what holds, or nothing of its type holds. -/
theorem success_or_failure {Content : Type} {succeeded : Bool} {content : Content}
    {holds : Content → Prop}
    (each : ∀ other, succeeded = true ∧ content = other ↔ holds other) :
    (succeeded = true ∧ holds content) ∨ (succeeded = false ∧ ∀ other, ¬ holds other) := by
  cases succeeded with
  | true => exact Or.inl ⟨rfl, (each content).mp ⟨rfl, rfl⟩⟩
  | false => exact Or.inr ⟨rfl, fun other found => absurd ((each other).mpr found).1 nofun⟩

/-- A getter fails if the scalar is none of its type. -/
theorem not_success {Content : Type} {succeeded : Bool} {content : Content}
    {held : Option (Scalar Double)} {kind : Content → Scalar Double}
    (either : (succeeded = true ∧ held = some (kind content)) ∨
      (succeeded = false ∧ ∀ other, ¬ held = some (kind other)))
    (another : ∀ other, held ≠ some (kind other)) : ¬ succeeded = true := by
  rcases either with ⟨-, found⟩ | ⟨failed, -⟩
  · exact absurd found (another content)
  · rw [failed]
    nofun

variable (doubles : DoubleDecoder tiny Double) (deserializer) (bs : Bytes)

/-- The getter of integers succeeds exactly where the scalar is an integer, and gives it. -/
theorem getInt64_success_iff (t n : Int64) :
    (((deserializer.fromBytes bs).begin tiny).getInt64 tiny t).2.success = true ∧
        (((deserializer.fromBytes bs).begin tiny).getInt64 tiny t).1 = n ↔
      scalar doubles (bs.take deserializer.capacity) = some (.integer n) := by
  refine (getNumber_success_iff t n).trans ((begin_takes_iff
    fun value => taken (tiny.getInt64 value) (tiny.advance value).1).trans ?_)
  rw [scalar, Option.bind_eq_some_iff]
  refine exists_congr fun value => and_congr_right fun _ => ?_
  unfold scalarAt
  split
  · rename_i isInteger
    rw [and_iff_right isInteger, Option.map_eq_some_iff]
    exact ⟨fun found => ⟨n, found, rfl⟩, fun ⟨_, found, same⟩ => by cases same; exact found⟩
  · rename_i other
    refine ⟨fun both => absurd both.1 other, fun found => ?_⟩
    split at found
    · obtain ⟨_, _, same⟩ := Option.map_eq_some_iff.mp found
      cases same
    · split at found
      · obtain ⟨_, _, same⟩ := Option.map_eq_some_iff.mp found
        cases same
      · cases found

/-- The getter of floating-point numbers. -/
theorem getDouble_success_iff (t d : Double) :
    (((deserializer.fromBytes bs).begin tiny).getDouble doubles t).2.success = true ∧
        (((deserializer.fromBytes bs).begin tiny).getDouble doubles t).1 = d ↔
      scalar doubles (bs.take deserializer.capacity) = some (.double d) := by
  refine (getNumber_success_iff t d).trans ((begin_takes_iff
    fun value => taken (doubles.getDouble value) (tiny.advance value).1).trans ?_)
  rw [scalar, Option.bind_eq_some_iff]
  refine exists_congr fun value => and_congr_right fun _ => ?_
  unfold scalarAt
  split
  · rename_i isInteger
    refine ⟨fun both => ?_, fun found => ?_⟩
    · cases both.1.symm.trans (doubles.integer_excludes value isInteger).1
    · obtain ⟨_, _, same⟩ := Option.map_eq_some_iff.mp found
      cases same
  · split
    · rename_i isDouble
      rw [and_iff_right isDouble, Option.map_eq_some_iff]
      exact ⟨fun found => ⟨d, found, rfl⟩, fun ⟨_, found, same⟩ => by cases same; exact found⟩
    · rename_i other
      refine ⟨fun both => absurd both.1 other, fun found => ?_⟩
      split at found
      · obtain ⟨_, _, same⟩ := Option.map_eq_some_iff.mp found
        cases same
      · cases found

/-- The getter of strings, where it has a result. -/
theorem getString_scalar_iff {t s : Bytes} {got : Bytes × CborDeserializer Value}
    (done : ((deserializer.fromBytes bs).begin tiny).getString tiny t = some got) :
    got.2.success = true ∧ got.1 = s ↔
      scalar doubles (bs.take deserializer.capacity) = some (.text s) := by
  refine (getString_success_iff done).trans ((begin_takes_iff fun value =>
    (taken (tiny.dupTextString value) (tiny.advance value).1).join.map cString).trans ?_)
  rw [scalar, Option.bind_eq_some_iff]
  refine exists_congr fun value => and_congr_right fun _ => ?_
  unfold scalarAt
  split
  · rename_i isInteger
    refine ⟨fun both => ?_, fun found => ?_⟩
    · cases both.1.symm.trans (doubles.integer_excludes value isInteger).2
    · obtain ⟨_, _, same⟩ := Option.map_eq_some_iff.mp found
      cases same
  · split
    · rename_i isDouble
      refine ⟨fun both => ?_, fun found => ?_⟩
      · cases both.1.symm.trans (doubles.double_excludes value isDouble).1
      · obtain ⟨_, _, same⟩ := Option.map_eq_some_iff.mp found
        cases same
    · split
      · rename_i isText
        rw [and_iff_right isText, Option.map_eq_some_iff, Option.map_eq_some_iff]
        refine exists_congr fun temp => and_congr_right fun _ => ?_
        rw [Scalar.text.injEq]
      · rename_i other
        exact ⟨fun both => absurd both.1 other, nofun⟩

theorem getNumber_capacity {Number : Type} (isNumber : Value → Bool)
    (read : Value → CborError × Number) (move : Value → CborError × Value)
    (deserializer : CborDeserializer Value) (t : Number) :
    (deserializer.getNumber isNumber read move t).2.capacity = deserializer.capacity := by
  unfold getNumber
  split
  · dsimp only
    split <;> rfl
  · rfl

end CborDeserializer

/-- A string that a getter gives has no NUL byte. -/
theorem noNul_of_scalar {doubles : DoubleDecoder tiny Double} {bytes s : Bytes}
    (found : scalar doubles bytes = some (.text s)) : 0 ∉ s := by
  obtain ⟨value, -, found⟩ := Option.bind_eq_some_iff.mp found
  unfold scalarAt at found
  split at found
  · obtain ⟨_, _, same⟩ := Option.map_eq_some_iff.mp found
    cases same
  · split at found
    · obtain ⟨_, _, same⟩ := Option.map_eq_some_iff.mp found
      cases same
    · split at found
      · obtain ⟨temp, -, same⟩ := Option.map_eq_some_iff.mp found
        cases same
        exact fun member => of_decide_eq_true (List.mem_takeWhile_imp (p := fun byte : UInt8 =>
          decide (byte ≠ 0)) member) rfl
      · cases found

/-! ### What a serializer has written -/

/-- The scalar that an array of one value holds. An integer is converted, and a string ends at its
first NUL. -/
def Argument.scalar : Argument → Option (Scalar Double)
  | .int t => some (.integer (Int64.ofInt t.toInt))
  | .uint32 t => some (.integer (Int64.ofInt t.toNat))
  | .int64 t => some (.integer t)
  | .uint64 t => some (.integer (Int64.ofInt t.toNat))
  | .string t => some (.text (cString t))
  | .bytes _ => none

section

variable (doubles : DoubleDecoder tiny Double)

/-- The scalar of an array of one element that is well formed. -/
theorem scalar_of_item {encoding : Bytes} {element : Cbor.Element}
    (item : Cbor.item (encoding ++ [Cbor.breakByte]) = element)
    (complete : element.next = some [Cbor.breakByte]) :
    ∃ value, scalar doubles (Cbor.arrayStart :: (encoding ++ [Cbor.breakByte])) =
        scalarAt doubles value ∧
      (tiny.view value).element = element ∧ element.usable = true ∧
        (tiny.advance value).1 = .noError := by
  have entered := Cbor.enter_arrayStart (encoding ++ [Cbor.breakByte])
  obtain ⟨here, next⟩ := Cursor.element_next item complete
  have usable : element.usable = true := by
    cases element with
    | broken | malformed | unpaired | stop => cases complete
    | int _ _ | bytes _ | text _ | other => rfl
  obtain ⟨noError, view⟩ := (tiny.enterContainer_root _ _ entered nofun).2
    (by rw [here]; exact usable)
  refine ⟨(tiny.enterContainer (tiny.parserInit
    (Cbor.arrayStart :: (encoding ++ [Cbor.breakByte]))).2).2, ?_, by rw [view]; exact here, usable,
    ?_⟩
  · unfold scalar TinyCborDecoder.firstElement
    dsimp only
    rw [if_pos ⟨tiny.isContainer_root _ _ entered, noError⟩, Option.bind_some]
  · exact ((tiny.advance_next _ _ (by rw [view]; exact next)).2
      (by rw [Cbor.element_breakByte]; rfl)).1

/-- An integer is converted to 64 bits. -/
theorem scalar_encodeInt (number : Int) (lower : -2 ^ 64 ≤ number) (upper : number < 2 ^ 64) :
    scalar doubles (Cbor.arrayStart :: (Cbor.encodeInt number ++ [Cbor.breakByte])) =
      some (.integer (Int64.ofInt number)) := by
  obtain ⟨value, holds, element, usable, moves⟩ :=
    scalar_of_item doubles (Cbor.item_encodeInt lower upper [Cbor.breakByte]) rfl
  have isInteger : tiny.isInteger value = true := by
    rw [tiny.isInteger_eq value (element ▸ usable), element]
    rfl
  have read := tiny.getInt64_eq value number [Cbor.breakByte] element
  rw [holds, scalarAt, if_pos isInteger, taken, if_pos ⟨congrArg Prod.fst read, moves⟩, read]
  rfl

theorem scalar_encodeText {t : Bytes} (short : t.length < 2 ^ 64) :
    scalar doubles (Cbor.arrayStart :: (Cbor.encodeText t ++ [Cbor.breakByte])) =
      some (.text (cString t)) := by
  obtain ⟨value, holds, element, usable, moves⟩ :=
    scalar_of_item doubles (Cbor.item_encodeText short [Cbor.breakByte]) rfl
  have isText : tiny.isTextString value = true := by
    rw [tiny.isTextString_eq value (element ▸ usable), element]
    rfl
  have notInteger : ¬ tiny.isInteger value = true := fun isInteger =>
    absurd (isText.symm.trans (doubles.integer_excludes value isInteger).2) nofun
  have notDouble : ¬ doubles.isDouble value = true := fun isDouble =>
    absurd (isText.symm.trans (doubles.double_excludes value isDouble).1) nofun
  have duplicated := tiny.dupTextString_eq value t [Cbor.breakByte] element
  rw [holds, scalarAt, if_neg notInteger, if_neg notDouble, if_pos isText, taken,
    if_pos ⟨congrArg Prod.fst duplicated, moves⟩, duplicated]
  rfl

/-- None of the getters takes bytes. -/
theorem scalar_encodeBytes {t : Bytes} (short : t.length < 2 ^ 64) :
    scalar doubles (Cbor.arrayStart :: (Cbor.encodeBytes t ++ [Cbor.breakByte])) = none := by
  obtain ⟨value, holds, element, usable, -⟩ :=
    scalar_of_item doubles (Cbor.item_encodeBytes short [Cbor.breakByte]) rfl
  have isBytes : tiny.isByteString value = true := by
    rw [tiny.isByteString_eq value (element ▸ usable), element]
    rfl
  have notInteger : ¬ tiny.isInteger value = true := by
    rw [tiny.isInteger_eq value (element ▸ usable), element]
    nofun
  have notText : ¬ tiny.isTextString value = true := by
    rw [tiny.isTextString_eq value (element ▸ usable), element]
    nofun
  have notDouble : ¬ doubles.isDouble value = true := fun isDouble =>
    absurd (isBytes.symm.trans (doubles.double_excludes value isDouble).2) nofun
  rw [holds, scalarAt, if_neg notInteger, if_neg notDouble, if_neg notText]

/-- An array of one value holds its scalar. -/
theorem scalar_arrayEncoding (argument : Argument)
    (short : (arrayEncoding [argument]).length < 2 ^ 64) :
    scalar doubles (arrayEncoding [argument]) = argument.scalar := by
  have single : arrayEncoding [argument] =
      Cbor.arrayStart :: (argument.encoding ++ [Cbor.breakByte]) := by
    rw [arrayEncoding, Cbor.encodeArray, List.map_singleton, List.flatten_singleton]
  have length : argument.encoding.length < 2 ^ 64 := by
    rw [single, List.length_cons, List.length_append] at short
    omega
  rw [single]
  cases argument with
  | int t =>
    have lower := t.le_toInt
    have upper := t.toInt_lt
    exact scalar_encodeInt doubles t.toInt (by omega) (by omega)
  | uint32 t =>
    have upper := t.toNat_lt
    exact scalar_encodeInt doubles t.toNat (by omega) (by omega)
  | int64 t =>
    have lower := t.le_toInt
    have upper := t.toInt_lt
    have converted := scalar_encodeInt doubles t.toInt (by omega) (by omega)
    rw [Int64.ofInt_toInt] at converted
    exact converted
  | uint64 t =>
    have upper := t.toNat_lt
    exact scalar_encodeInt doubles t.toNat (by omega) (by omega)
  | string t =>
    have long : (Cbor.encodeText t).length < 2 ^ 64 := length
    rw [Cbor.length_encodeText] at long
    exact scalar_encodeText doubles ((Cbor.length_le_stringLength t).trans_lt long)
  | bytes t =>
    have long : (Cbor.encodeBytes t).length < 2 ^ 64 := length
    rw [Cbor.length_encodeBytes] at long
    exact scalar_encodeBytes doubles ((Cbor.length_le_stringLength t).trans_lt long)

end

/-- A decoder without floating-point numbers. -/
def referenceDoubles : DoubleDecoder referenceDecoder Unit where
  isDouble _ := false
  getDouble _ := (.other 1, ())
  integer_excludes value isInteger := by
    have isInteger : value.view.element.isInt = true := isInteger
    refine ⟨rfl, ?_⟩
    show value.view.element.isText = false
    cases element : value.view.element with
    | int _ _ => rfl
    | bytes _ | text _ | other | stop | broken | malformed | unpaired =>
      rw [element] at isInteger
      cases isInteger
  double_excludes _ isDouble := absurd isDouble Bool.false_ne_true

end BrokerProxy.Codec
