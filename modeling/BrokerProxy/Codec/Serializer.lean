/-
This file models `CborSerializer` and says when it keeps its promise: that `success`
tells whether the whole array fits into the buffer, and that `toBytes` is safe in both
cases.

While values are added the serializer is in one of two states: what was added so far fits
and stands in the buffer, or it does not and every call fails. The promise is broken by
one length only. When everything but the closing break byte fits exactly, `end` copies the
encoder into the root before the break byte fails, and the size is computed from a count
of missing bytes instead of a pointer.
-/

import BrokerProxy.Codec.TinyCborEncoder

namespace BrokerProxy.Codec

/-- The buffer of a serializer: its address, which no allocation leaves at zero or one, and its
capacity, inside an address space of a given width. -/
structure Block (width : Nat) where
  address : Nat
  capacity : Nat
  one_lt_address : 1 < address
  within : address + capacity ≤ 2 ^ width

/-- The fields of `CborSerializer`, with the memory its buffer is in. -/
structure CborSerializer (width : Nat) where
  buffer : Block width
  size : Nat
  err : CborError
  encoderRoot : CborEncoder
  encoder : CborEncoder
  heap : Heap

namespace CborSerializer

variable {width : Nat} (tiny : TinyCborEncoder width)

/-- Take over what an encoding function of the element encoder leaves. -/
def take (serializer : CborSerializer width) (result : EncodeResult) : CborSerializer width :=
  { serializer with err := result.err, encoder := result.encoder, heap := result.heap }

/-- `begin`. -/
def begin (serializer : CborSerializer width) : CborSerializer width :=
  let root := tiny.encoderInit serializer.buffer.address serializer.buffer.capacity
  { serializer with encoderRoot := root }.take (tiny.createArray root serializer.heap)

/-- `add(int)`. -/
def addInt (serializer : CborSerializer width) (t : Int32) : CborSerializer width :=
  serializer.take (tiny.encodeInt serializer.encoder serializer.heap t.toInt64)

/-- `add(uint32_t)`. -/
def addUInt32 (serializer : CborSerializer width) (t : UInt32) : CborSerializer width :=
  serializer.take (tiny.encodeUint serializer.encoder serializer.heap t.toUInt64)

/-- `add(uint64_t)`. -/
def addUInt64 (serializer : CborSerializer width) (t : UInt64) : CborSerializer width :=
  serializer.take (tiny.encodeUint serializer.encoder serializer.heap t)

/-- `add(int64_t)`. -/
def addInt64 (serializer : CborSerializer width) (t : Int64) : CborSerializer width :=
  serializer.take (tiny.encodeInt serializer.encoder serializer.heap t)

/-- `add(std::string)`. -/
def addString (serializer : CborSerializer width) (t : Bytes) : CborSerializer width :=
  serializer.take (tiny.encodeTextString serializer.encoder serializer.heap t)

/-- `add(Bytes)`, which alone does nothing after an error. -/
def addBytes (serializer : CborSerializer width) (t : Bytes) : CborSerializer width :=
  if serializer.err = .noError then
    serializer.take (tiny.encodeByteString serializer.encoder serializer.heap t)
  else serializer

/-- `end`: the array is closed unless there is an error, and the size is computed from the root
encoder in any case. -/
def «end» (serializer : CborSerializer width) : CborSerializer width :=
  let closed :=
    if serializer.err = .noError then
      let result := tiny.closeContainer serializer.encoderRoot serializer.encoder serializer.heap
      { serializer with err := result.err, encoderRoot := result.encoder, heap := result.heap }
    else serializer
  { closed with size := tiny.getBufferSize closed.encoderRoot closed.buffer.address }

/-- `success`. -/
def success (serializer : CborSerializer width) : Bool := serializer.err = .noError

/-- `toBytes`. Reading past the end of the buffer has no result. -/
def toBytes (serializer : CborSerializer width) : Option Bytes :=
  if serializer.size ≤ serializer.buffer.capacity then
    some (serializer.heap.read serializer.buffer.address serializer.size)
  else none

end CborSerializer

/-- The argument of a call of `add`. -/
inductive Argument
  | int (t : Int32)
  | uint32 (t : UInt32)
  | int64 (t : Int64)
  | uint64 (t : UInt64)
  | string (t : Bytes)
  | bytes (t : Bytes)

/-- The RFC 8949 encoding of an argument. -/
def Argument.encoding : Argument → Bytes
  | .int t => Cbor.encodeInt t.toInt
  | .uint32 t => Cbor.encodeInt t.toNat
  | .int64 t => Cbor.encodeInt t.toInt
  | .uint64 t => Cbor.encodeInt t.toNat
  | .string t => Cbor.encodeText t
  | .bytes t => Cbor.encodeBytes t

namespace CborSerializer

variable {width : Nat} (tiny : TinyCborEncoder width)

/-- The call of `add` with an argument. -/
def add (serializer : CborSerializer width) : Argument → CborSerializer width
  | .int t => serializer.addInt tiny t
  | .uint32 t => serializer.addUInt32 tiny t
  | .int64 t => serializer.addInt64 tiny t
  | .uint64 t => serializer.addUInt64 tiny t
  | .string t => serializer.addString tiny t
  | .bytes t => serializer.addBytes tiny t

/-- `begin`, calls of `add` and `end`. -/
def serialize (serializer : CborSerializer width) (arguments : List Argument) :
    CborSerializer width :=
  (arguments.foldl (add tiny) (serializer.begin tiny)).end tiny

/-! ### Adding -/

/-- What has been added so far stands in the buffer, or it does not fit and the encoder has lost
its buffer. The root is as `begin` made it. -/
structure Adding (serializer : CborSerializer width) (written : Bytes) : Prop where
  root : serializer.encoderRoot =
    { data := serializer.buffer.address
      limit := some (serializer.buffer.address + serializer.buffer.capacity) }
  fits : written.length ≤ serializer.buffer.capacity →
    serializer.err = .noError ∧
    serializer.encoder =
      { data := serializer.buffer.address + written.length
        limit := some (serializer.buffer.address + serializer.buffer.capacity) } ∧
    serializer.heap.read serializer.buffer.address written.length = written
  overflows : serializer.buffer.capacity < written.length →
    serializer.err ≠ .noError ∧ serializer.encoder.limit = none ∧ 0 < serializer.encoder.data

/-- An append to the element encoder adds its bytes. -/
theorem Adding.take {serializer : CborSerializer width} {written : Bytes}
    (adding : serializer.Adding written) {bytes : Bytes} {result : EncodeResult}
    (appends : Appends serializer.encoder serializer.heap bytes result) :
    (serializer.take result).Adding (written ++ bytes) := by
  have length : (written ++ bytes).length = written.length + bytes.length := List.length_append
  refine { root := adding.root, fits := fun fits => ?_, overflows := fun overflows => ?_ }
  · have fits : (written ++ bytes).length ≤ serializer.buffer.capacity := fits
    obtain ⟨-, encoder, stored⟩ := adding.fits (by omega)
    rw [encoder] at appends
    simp only [Appends] at appends
    rw [if_pos (by omega)] at appends
    rw [appends]
    refine ⟨rfl, ?_, ?_⟩
    · show CborEncoder.mk _ _ = CborEncoder.mk _ _
      rw [length, Nat.add_assoc]
      rfl
    · show (serializer.heap.write (serializer.buffer.address + written.length) bytes).read
        serializer.buffer.address (written ++ bytes).length = written ++ bytes
      rw [length, Heap.read_write, stored]
  · have overflows : serializer.buffer.capacity < (written ++ bytes).length := overflows
    rcases Nat.lt_or_ge serializer.buffer.capacity written.length with before | room
    · obtain ⟨-, limit, missing⟩ := adding.overflows before
      simp only [Appends, limit] at appends
      obtain ⟨failed, encoder⟩ := appends missing
      refine ⟨failed, ?_, ?_⟩
      · show result.encoder.limit = none
        rw [encoder]
      · show 0 < result.encoder.data
        rw [encoder]
        exact Nat.add_pos_left missing _
    · obtain ⟨-, encoder, -⟩ := adding.fits room
      rw [encoder] at appends
      simp only [Appends] at appends
      rw [if_neg (by omega)] at appends
      obtain ⟨failed, encoder⟩ := appends
      refine ⟨failed, ?_, ?_⟩
      · show result.encoder.limit = none
        rw [encoder]
      · show 0 < result.encoder.data
        rw [encoder]
        show 0 < _ - _
        omega

/-- A new array holds its first byte. -/
theorem begin_adding (serializer : CborSerializer width) :
    (serializer.begin tiny).Adding [Cbor.arrayStart] := by
  have root := tiny.encoderInit_eq serializer.buffer.address serializer.buffer.capacity
  have empty : Adding
      { serializer with
        err := .noError
        encoderRoot := tiny.encoderInit serializer.buffer.address serializer.buffer.capacity
        encoder := tiny.encoderInit serializer.buffer.address serializer.buffer.capacity } [] :=
    { root := root
      fits := fun _ => ⟨rfl, root, rfl⟩
      overflows := fun wrong => absurd wrong (Nat.not_lt_zero _) }
  exact empty.take (tiny.createArray_appends _ serializer.heap)

/-- A call of `add` adds the encoding of its argument. -/
theorem Adding.add {serializer : CborSerializer width} {written : Bytes}
    (adding : serializer.Adding written) (argument : Argument) :
    (serializer.add tiny argument).Adding (written ++ argument.encoding) := by
  cases argument with
  | int t =>
    refine adding.take ?_
    rw [Argument.encoding, ← Int32.toInt_toInt64]
    exact tiny.encodeInt_appends _ _ _
  | uint32 t =>
    refine adding.take ?_
    rw [Argument.encoding, ← UInt32.toNat_toUInt64]
    exact tiny.encodeUint_appends _ _ _
  | int64 t => exact adding.take (tiny.encodeInt_appends _ _ _)
  | uint64 t => exact adding.take (tiny.encodeUint_appends _ _ _)
  | string t => exact adding.take (tiny.encodeTextString_appends _ _ _)
  | bytes t =>
    show (serializer.addBytes tiny t).Adding _
    unfold addBytes
    split
    · exact adding.take (tiny.encodeByteString_appends _ _ _)
    · -- After an error the bytes are skipped, but the array did not fit before them already.
      rename_i failed
      have overflown : serializer.buffer.capacity < written.length := by
        by_contra room
        exact failed (adding.fits (not_lt.mp room)).1
      have longer : written.length ≤ (written ++ Cbor.encodeBytes t).length := by
        rw [List.length_append]
        exact Nat.le_add_right _ _
      exact
        { root := adding.root
          fits := fun fits => absurd (overflown.trans_le (longer.trans fits)) (lt_irrefl _)
          overflows := fun _ => adding.overflows overflown }

theorem add_buffer (serializer : CborSerializer width) (argument : Argument) :
    (serializer.add tiny argument).buffer = serializer.buffer := by
  cases argument with
  | bytes t =>
    show (serializer.addBytes tiny t).buffer = _
    unfold addBytes
    split <;> rfl
  | _ => rfl

/-- The calls of `add` add the encodings of their arguments, in the buffer they were given. -/
theorem Adding.foldl (arguments : List Argument) {serializer : CborSerializer width}
    {written : Bytes} (adding : serializer.Adding written) :
    (arguments.foldl (CborSerializer.add tiny) serializer).Adding
        (written ++ (arguments.map Argument.encoding).flatten) ∧
      (arguments.foldl (CborSerializer.add tiny) serializer).buffer = serializer.buffer := by
  induction arguments generalizing serializer written with
  | nil =>
    refine ⟨?_, rfl⟩
    rw [List.map_nil, List.flatten_nil, List.append_nil]
    exact adding
  | cons argument rest inductionHypothesis =>
    obtain ⟨added, buffer⟩ := inductionHypothesis (adding.add tiny argument)
    rw [List.append_assoc] at added
    exact ⟨added, buffer.trans (serializer.add_buffer tiny argument)⟩

/-! ### The end -/

/-- While the encoder has its buffer, the size is what the pointer has moved. -/
theorem getBufferSize_of_pointer (buffer : Block width) {count : Nat} (limit : Option Nat)
    (inside : count ≤ buffer.capacity) :
    tiny.getBufferSize { data := buffer.address + count, limit := limit } buffer.address =
      count := by
  have positive := buffer.one_lt_address
  have within := buffer.within
  have small : (count : Int) < 2 ^ width := by
    have bound : count < 2 ^ width := by omega
    exact_mod_cast bound
  rw [tiny.getBufferSize_eq]
  have plain : ((buffer.address + count : Nat) : Int) - buffer.address = count := by omega
  rw [plain, Int.emod_eq_of_lt (Int.natCast_nonneg _) small, Int.toNat_natCast]

/-- The size computed from a single missing byte wraps around and exceeds the capacity. -/
theorem lt_getBufferSize_of_missing (buffer : Block width) (limit : Option Nat) :
    buffer.capacity < tiny.getBufferSize { data := 1, limit := limit } buffer.address := by
  have positive := buffer.one_lt_address
  have within : ((buffer.address : Int) + buffer.capacity) ≤ 2 ^ width := by
    exact_mod_cast buffer.within
  rw [tiny.getBufferSize_eq]
  have wrapped : (((1 : Nat) : Int) - buffer.address) % 2 ^ width =
      2 ^ width + 1 - buffer.address := by
    rw [← Int.add_emod_right, Int.emod_eq_of_lt] <;> omega
  rw [wrapped]
  omega

theorem toBytes_of_read {serializer : CborSerializer width} {bytes : Bytes}
    (size : serializer.size = bytes.length) (room : bytes.length ≤ serializer.buffer.capacity)
    (stored : serializer.heap.read serializer.buffer.address bytes.length = bytes) :
    serializer.toBytes = some bytes := by
  unfold toBytes
  rw [if_pos (size.trans_le room), size, stored]

/-- The array fits with its break byte. -/
theorem Adding.end_of_room {serializer : CborSerializer width} {written : Bytes}
    (adding : serializer.Adding written) (room : written.length < serializer.buffer.capacity) :
    (serializer.end tiny).success = true ∧
      (serializer.end tiny).toBytes = some (written ++ [Cbor.breakByte]) := by
  obtain ⟨noError, encoder, stored⟩ := adding.fits room.le
  have closed := tiny.closeContainer_appends serializer.encoderRoot serializer.encoder
    serializer.heap
  rw [encoder] at closed
  simp only [Appends, List.length_singleton] at closed
  rw [if_pos (by omega), ← encoder, Nat.add_assoc] at closed
  have size := getBufferSize_of_pointer tiny serializer.buffer
    (some (serializer.buffer.address + serializer.buffer.capacity)) room
  have length : (written ++ [Cbor.breakByte]).length = written.length + 1 := List.length_append
  unfold CborSerializer.end
  rw [if_pos noError, closed]
  refine ⟨decide_eq_true rfl, toBytes_of_read ?_ ?_ ?_⟩
  · exact size.trans length.symm
  · exact length.trans_le room
  · show Heap.read _ _ (written ++ [Cbor.breakByte]).length = _
    rw [List.length_append, Heap.read_write, stored]

/-- Only the break byte does not fit. -/
theorem Adding.end_of_full {serializer : CborSerializer width} {written : Bytes}
    (adding : serializer.Adding written) (full : written.length = serializer.buffer.capacity) :
    (serializer.end tiny).success = false ∧
      serializer.buffer.capacity < (serializer.end tiny).size := by
  obtain ⟨noError, encoder, -⟩ := adding.fits full.le
  have closed := tiny.closeContainer_appends serializer.encoderRoot serializer.encoder
    serializer.heap
  rw [encoder] at closed
  simp only [Appends, List.length_singleton] at closed
  rw [if_neg (by omega), ← encoder] at closed
  have missing : serializer.buffer.address + written.length + 1 -
      (serializer.buffer.address + serializer.buffer.capacity) = 1 := by omega
  rw [missing] at closed
  unfold CborSerializer.end
  rw [if_pos noError]
  refine ⟨decide_eq_false closed.1, ?_⟩
  show serializer.buffer.capacity < tiny.getBufferSize
    (tiny.closeContainer _ _ _).encoder serializer.buffer.address
  rw [closed.2]
  exact lt_getBufferSize_of_missing tiny serializer.buffer none

/-- The array did not fit before its break byte. -/
theorem Adding.end_of_overflow {serializer : CborSerializer width} {written : Bytes}
    (adding : serializer.Adding written)
    (overflow : serializer.buffer.capacity < written.length) :
    (serializer.end tiny).success = false ∧ (serializer.end tiny).size = 0 := by
  obtain ⟨failed, -⟩ := adding.overflows overflow
  unfold CborSerializer.end
  rw [if_neg failed]
  refine ⟨decide_eq_false failed, ?_⟩
  show tiny.getBufferSize serializer.encoderRoot serializer.buffer.address = 0
  rw [adding.root]
  exact getBufferSize_of_pointer tiny serializer.buffer _ (Nat.zero_le _)

theorem end_buffer (serializer : CborSerializer width) :
    (serializer.end tiny).buffer = serializer.buffer := by
  unfold CborSerializer.end
  dsimp only
  split <;> rfl

end CborSerializer

/-! ### The promise -/

/-- What a serializer promises after `end` of an array: `success` tells whether the array fits,
`toBytes` is the array if it does, and stays inside the buffer if it does not. -/
structure CborSerializer.Promise {width : Nat} (serializer : CborSerializer width)
    (encoding : Bytes) : Prop where
  success : serializer.success = true ↔ encoding.length ≤ serializer.buffer.capacity
  bytes : encoding.length ≤ serializer.buffer.capacity → serializer.toBytes = some encoding
  safe : serializer.buffer.capacity < encoding.length →
    serializer.size ≤ serializer.buffer.capacity

/-- The whole array that a list of arguments asks for. -/
def arrayEncoding (arguments : List Argument) : Bytes :=
  Cbor.encodeArray (arguments.map Argument.encoding)

section

variable {width : Nat} (tiny : TinyCborEncoder width) (serializer : CborSerializer width)
  (arguments : List Argument)

theorem serialize_adding :
    (arguments.foldl (CborSerializer.add tiny) (serializer.begin tiny)).Adding
        (Cbor.arrayStart :: (arguments.map Argument.encoding).flatten) ∧
      (arguments.foldl (CborSerializer.add tiny) (serializer.begin tiny)).buffer =
        serializer.buffer :=
  CborSerializer.Adding.foldl tiny arguments (serializer.begin_adding tiny)

theorem serialize_buffer : (serializer.serialize tiny arguments).buffer = serializer.buffer :=
  (CborSerializer.end_buffer tiny _).trans (serialize_adding tiny serializer arguments).2

theorem length_arrayEncoding :
    (arrayEncoding arguments).length =
      (Cbor.arrayStart :: (arguments.map Argument.encoding).flatten).length + 1 := by
  rw [arrayEncoding, Cbor.encodeArray, ← List.cons_append, List.length_append]
  rfl

/-- A serializer that reports success gives the whole array, which fits. -/
theorem toBytes_of_success (success : (serializer.serialize tiny arguments).success = true) :
    (arrayEncoding arguments).length ≤ serializer.buffer.capacity ∧
      (serializer.serialize tiny arguments).toBytes = some (arrayEncoding arguments) := by
  obtain ⟨adding, buffer⟩ := serialize_adding tiny serializer arguments
  have length := length_arrayEncoding arguments
  unfold CborSerializer.serialize at success ⊢
  rw [← buffer]
  rcases Nat.lt_trichotomy (Cbor.arrayStart :: (arguments.map Argument.encoding).flatten).length
    (arguments.foldl (CborSerializer.add tiny) (serializer.begin tiny)).buffer.capacity with
    room | full | overflow
  · exact ⟨length.trans_le room, (adding.end_of_room tiny room).2⟩
  · rw [(adding.end_of_full tiny full).1] at success
    cases success
  · rw [(adding.end_of_overflow tiny overflow).1] at success
    cases success

/-- A serializer whose buffer has room for the whole array reports success. -/
theorem success_of_fits (fits : (arrayEncoding arguments).length ≤ serializer.buffer.capacity) :
    (serializer.serialize tiny arguments).success = true := by
  obtain ⟨adding, buffer⟩ := serialize_adding tiny serializer arguments
  rw [length_arrayEncoding, ← buffer] at fits
  exact (adding.end_of_room tiny fits).1

/-- What `toBytes` gives is the whole array if it fits, and nothing if it does not. -/
theorem toBytes_cases {bytes : Bytes}
    (given : (serializer.serialize tiny arguments).toBytes = some bytes) :
    ((arrayEncoding arguments).length ≤ serializer.buffer.capacity ∧
        bytes = arrayEncoding arguments) ∨
      (serializer.buffer.capacity < (arrayEncoding arguments).length ∧ bytes = []) := by
  obtain ⟨adding, buffer⟩ := serialize_adding tiny serializer arguments
  have length := length_arrayEncoding arguments
  have same := serialize_buffer tiny serializer arguments
  rcases Nat.lt_or_ge serializer.buffer.capacity (arrayEncoding arguments).length with
    overflow | fits
  · refine Or.inr ⟨overflow, ?_⟩
    unfold CborSerializer.toBytes at given
    rw [same] at given
    split at given
    · rename_i inside
      rcases Nat.lt_or_ge serializer.buffer.capacity
        (Cbor.arrayStart :: (arguments.map Argument.encoding).flatten).length with long | short
      · have empty := (adding.end_of_overflow tiny (by rw [buffer]; exact long)).2
        cases given
        rw [CborSerializer.serialize, empty]
        rfl
      · have wrapped := (adding.end_of_full tiny (by rw [buffer]; omega)).2
        rw [buffer] at wrapped
        exact absurd inside (not_le.mpr wrapped)
    · cases given
  · refine Or.inl ⟨fits, ?_⟩
    have whole := (adding.end_of_room tiny (by rw [buffer]; omega)).2
    rw [CborSerializer.serialize, whole] at given
    exact (Option.some.inj given).symm

/-- A serializer keeps its promise except for the arrays that are one byte too long. -/
theorem serialize_promise_iff :
    (serializer.serialize tiny arguments).Promise (arrayEncoding arguments) ↔
      (arrayEncoding arguments).length ≠ serializer.buffer.capacity + 1 := by
  obtain ⟨adding, buffer⟩ := serialize_adding tiny serializer arguments
  have length := length_arrayEncoding arguments
  have same := serialize_buffer tiny serializer arguments
  constructor
  · intro promise exact
    have full : (Cbor.arrayStart :: (arguments.map Argument.encoding).flatten).length =
        (arguments.foldl (CborSerializer.add tiny) (serializer.begin tiny)).buffer.capacity := by
      rw [buffer]
      omega
    have wrapped := (adding.end_of_full tiny full).2
    have safe := promise.safe (by rw [same]; omega)
    rw [same] at safe
    rw [buffer] at wrapped
    exact absurd wrapped (not_lt.mpr safe)
  · intro different
    rcases Nat.lt_or_ge serializer.buffer.capacity (arrayEncoding arguments).length with
      overflow | fits
    · obtain ⟨failed, empty⟩ := adding.end_of_overflow tiny (by rw [buffer]; omega)
      exact
        { success := by
            rw [same]
            exact ⟨fun success => absurd (success.symm.trans failed) (by decide),
              fun fits => absurd fits (not_le.mpr overflow)⟩
          bytes := fun fits => absurd (same ▸ fits) (not_le.mpr overflow)
          safe := fun _ => empty.trans_le (Nat.zero_le _) }
    · obtain ⟨success, bytes⟩ := adding.end_of_room tiny (by rw [buffer]; omega)
      exact
        { success := by
            rw [same]
            exact ⟨fun _ => fits, fun _ => success⟩
          bytes := fun _ => bytes
          safe := fun overflow => absurd fits (not_le.mpr (same ▸ overflow)) }

end

/-- A serializer that the constructor has made, in a 64-bit address space. -/
def constructedAt (buffer : Block 64) : CborSerializer 64 where
  buffer := buffer
  size := 0
  err := .noError
  encoderRoot := { data := 0, limit := none }
  encoder := { data := 0, limit := none }
  heap := fun _ => 0

/-- A buffer on a page of its own. -/
def pageBlock (capacity : Nat) (small : capacity ≤ 4096) : Block 64 where
  address := 4096
  capacity := capacity
  one_lt_address := by decide
  within := by omega

/-- A large buffer. -/
def largeBlock (capacity : Nat) (small : capacity ≤ 2 ^ 32) : Block 64 where
  address := 4096
  capacity := capacity
  one_lt_address := by decide
  within := by omega

theorem serialize_promise_three_bytes :
    ((constructedAt (pageBlock 3 (by decide))).serialize (referenceEncoder 64) [.int 1]).Promise
      [0x9F, 0x01, 0xFF] :=
  (serialize_promise_iff (referenceEncoder 64) (constructedAt (pageBlock 3 (by decide)))
    [.int 1]).mpr (by decide +kernel)

/-- One integer in two bytes: the array without its break byte fits exactly, and the size wraps
around. -/
theorem serialize_wrapped_size :
    ((constructedAt (pageBlock 2 (by decide))).serialize (referenceEncoder 64) [.int 1]).success =
        false ∧
      ((constructedAt (pageBlock 2 (by decide))).serialize (referenceEncoder 64) [.int 1]).size =
        2 ^ 64 - 4095 ∧
      ((constructedAt (pageBlock 2 (by decide))).serialize (referenceEncoder 64)
        [.int 1]).toBytes = none ∧
      ¬ ((constructedAt (pageBlock 2 (by decide))).serialize (referenceEncoder 64)
        [.int 1]).Promise (arrayEncoding [.int 1]) := by
  refine ⟨by decide +kernel, by decide +kernel, by decide +kernel, fun promise => ?_⟩
  have safe := promise.safe (by decide +kernel)
  exact absurd safe (by decide +kernel)

end BrokerProxy.Codec
