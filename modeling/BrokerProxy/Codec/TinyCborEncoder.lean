/-
This file states what the serializer relies on in the encoder of TinyCBOR, which is not
part of the repository. The encoder is a parameter: its functions, with the documented
behaviour of each as a field. Every encoding function appends the RFC 8949 encoding of
its value to the buffer; an append that does not fit makes the encoder lose its buffer
and count the missing bytes from then on.
-/

import BrokerProxy.Library.Cbor
import BrokerProxy.Messages
import Mathlib.Data.List.GetD

namespace BrokerProxy.Codec

/-- `CborError`, with the values that the source names. -/
inductive CborError
  | noError
  | illegalType
  | other (code : Nat)
deriving DecidableEq

/-! ### Memory -/

/-- The bytes at the addresses. -/
abbrev Heap := Nat → UInt8

namespace Heap

/-- Store bytes from an address on. -/
def write (heap : Heap) (address : Nat) (bytes : Bytes) : Heap :=
  fun place =>
    if address ≤ place ∧ place < address + bytes.length then bytes.getD (place - address) 0
    else heap place

/-- The bytes from an address on. -/
def read (heap : Heap) (address count : Nat) : Bytes :=
  (List.range count).map fun place => heap (address + place)

/-- What is stored after bytes is read after them. -/
theorem read_write (heap : Heap) (address count : Nat) (bytes : Bytes) :
    (heap.write (address + count) bytes).read address (count + bytes.length) =
      heap.read address count ++ bytes := by
  unfold read
  rw [List.range_add, List.map_append, List.map_map]
  congr 1
  · refine List.map_congr_left fun place member => ?_
    have before := List.mem_range.mp member
    rw [write, if_neg (by omega)]
  · refine List.ext_getElem (by rw [List.length_map, List.length_range]) fun place early late => ?_
    rw [List.getElem_map, List.getElem_range]
    show write heap (address + count) bytes (address + (count + place)) = bytes[place]
    have offset : address + (count + place) - (address + count) = place := by omega
    rw [write, if_pos (by omega), offset,
      List.getD_eq_getElem _ _ late]

end Heap

/-! ### The encoder -/

/-- `CborEncoder`: the union of the write pointer and the count of missing bytes, and the end of
the buffer, which is null once an append did not fit. -/
structure CborEncoder where
  data : Nat
  limit : Option Nat
deriving DecidableEq

/-- What an encoding function leaves: its error, the encoder and the memory. -/
structure EncodeResult where
  err : CborError
  encoder : CborEncoder
  heap : Heap

/-- An append of bytes: where they fit they are stored and the write pointer moves on; where they
do not fit the encoder has no buffer any more and counts the missing bytes, and every later append
fails too. -/
def Appends (encoder : CborEncoder) (heap : Heap) (bytes : Bytes) (result : EncodeResult) : Prop :=
  match encoder.limit with
  | some limit =>
      if encoder.data + bytes.length ≤ limit then
        result =
          { err := .noError
            encoder := { data := encoder.data + bytes.length, limit := some limit }
            heap := heap.write encoder.data bytes }
      else
        result.err ≠ .noError ∧
          result.encoder = { data := encoder.data + bytes.length - limit, limit := none }
  | none =>
      0 < encoder.data →
        result.err ≠ .noError ∧
          result.encoder = { data := encoder.data + bytes.length, limit := none }

/-- The encoder functions of TinyCBOR that the serializer calls, and their behaviour, for a width
of `size_t`. `createArray` opens an array of indefinite length and gives the encoder of its
elements. `closeContainer` takes the state of that encoder over into the outer one and appends the
break byte. -/
structure TinyCborEncoder (width : Nat) where
  encoderInit : Nat → Nat → CborEncoder
  createArray : CborEncoder → Heap → EncodeResult
  encodeInt : CborEncoder → Heap → Int64 → EncodeResult
  encodeUint : CborEncoder → Heap → UInt64 → EncodeResult
  encodeTextString : CborEncoder → Heap → Bytes → EncodeResult
  encodeByteString : CborEncoder → Heap → Bytes → EncodeResult
  closeContainer : CborEncoder → CborEncoder → Heap → EncodeResult
  getBufferSize : CborEncoder → Nat → Nat
  encoderInit_eq : ∀ buffer size,
    encoderInit buffer size = { data := buffer, limit := some (buffer + size) }
  createArray_appends : ∀ encoder heap,
    Appends encoder heap [Cbor.arrayStart] (createArray encoder heap)
  encodeInt_appends : ∀ encoder heap (value : Int64),
    Appends encoder heap (Cbor.encodeInt value.toInt) (encodeInt encoder heap value)
  encodeUint_appends : ∀ encoder heap (value : UInt64),
    Appends encoder heap (Cbor.encodeInt value.toNat) (encodeUint encoder heap value)
  encodeTextString_appends : ∀ encoder heap text,
    Appends encoder heap (Cbor.encodeText text) (encodeTextString encoder heap text)
  encodeByteString_appends : ∀ encoder heap bytes,
    Appends encoder heap (Cbor.encodeBytes bytes) (encodeByteString encoder heap bytes)
  closeContainer_appends : ∀ outer container heap,
    Appends container heap [Cbor.breakByte] (closeContainer outer container heap)
  getBufferSize_eq : ∀ encoder buffer,
    getBufferSize encoder buffer = (((encoder.data : Int) - buffer) % 2 ^ width).toNat

/-! ### A reference encoder -/

/-- Append bytes as TinyCBOR does. -/
def append (encoder : CborEncoder) (heap : Heap) (bytes : Bytes) : EncodeResult :=
  match encoder.limit with
  | some limit =>
      if encoder.data + bytes.length ≤ limit then
        { err := .noError
          encoder := { data := encoder.data + bytes.length, limit := some limit }
          heap := heap.write encoder.data bytes }
      else
        { err := .other 1
          encoder := { data := encoder.data + bytes.length - limit, limit := none }
          heap := heap }
  | none =>
      { err := .other 1
        encoder := { data := encoder.data + bytes.length, limit := none }
        heap := heap }

theorem append_appends (encoder : CborEncoder) (heap : Heap) (bytes : Bytes) :
    Appends encoder heap bytes (append encoder heap bytes) := by
  unfold Appends append
  cases encoder.limit with
  | some limit =>
    dsimp only
    split
    · rfl
    · exact ⟨nofun, rfl⟩
  | none => exact fun _ => ⟨nofun, rfl⟩

/-- An encoder with the documented behaviour. -/
def referenceEncoder (width : Nat) : TinyCborEncoder width where
  encoderInit buffer size := { data := buffer, limit := some (buffer + size) }
  createArray encoder heap := append encoder heap [Cbor.arrayStart]
  encodeInt encoder heap value := append encoder heap (Cbor.encodeInt value.toInt)
  encodeUint encoder heap value := append encoder heap (Cbor.encodeInt value.toNat)
  encodeTextString encoder heap text := append encoder heap (Cbor.encodeText text)
  encodeByteString encoder heap bytes := append encoder heap (Cbor.encodeBytes bytes)
  closeContainer _ container heap := append container heap [Cbor.breakByte]
  getBufferSize encoder buffer := (((encoder.data : Int) - buffer) % 2 ^ width).toNat
  encoderInit_eq _ _ := rfl
  createArray_appends _ _ := append_appends _ _ _
  encodeInt_appends _ _ _ := append_appends _ _ _
  encodeUint_appends _ _ _ := append_appends _ _ _
  encodeTextString_appends _ _ _ := append_appends _ _ _
  encodeByteString_appends _ _ _ := append_appends _ _ _
  closeContainer_appends _ _ _ := append_appends _ _ _
  getBufferSize_eq _ _ := rfl

end BrokerProxy.Codec
