/-
This file states what the dump of a message relies on in the iterators of TinyCBOR, which
is not part of the repository. They are a parameter: the functions that the dump calls,
with the documented behaviour of those that integers, arrays and maps need, told by the
position in the input that a `CborValue` stands at.
-/

import BrokerProxy.Codec.TinyCborDecoder
import BrokerProxy.Library.CborItems

namespace BrokerProxy.Codec

open Cbor (Cursor Element ContainerKind)

/-- `CborType`. -/
inductive CborType
  | integer
  | byteString
  | textString
  | array
  | map
  | tag
  | simple
  | boolean
  | null
  | undefined
  | halfFloat
  | float
  | double
  | invalid
deriving DecidableEq

/-- `CborErrorUnknownType`. -/
def CborError.unknownType : CborError := .other 259

/-- The type of a container. -/
def containerType : ContainerKind → CborType
  | .array => .array
  | .map => .map

/-- The argument in the head of an integer: of a negative one, the magnitude less one. -/
def rawInteger : Int → UInt64
  | .ofNat value => UInt64.ofNat value
  | .negSucc value => UInt64.ofNat value

/-- The iterator functions of TinyCBOR that the dump calls, and their behaviour. `dupByteString` and
`dupTextString` give the bytes of the string and the value behind it, and floating-point numbers
are given by their bits. -/
structure TinyCborIterator (Value : Type) where
  parserInit : Bytes → CborError × Value
  atEnd : Value → Bool
  getType : Value → CborType
  enterContainer : Value → CborError × Value
  leaveContainer : Value → Value → CborError × Value
  getRawInteger : Value → CborError × UInt64
  isUnsignedInteger : Value → Bool
  dupByteString : Value → CborError × Bytes × Value
  dupTextString : Value → CborError × Bytes × Value
  getTag : Value → CborError × UInt64
  getSimpleType : Value → CborError × UInt8
  getBoolean : Value → CborError × Bool
  getHalfFloat : Value → CborError × UInt16
  getFloat : Value → CborError × UInt32
  getDouble : Value → CborError × UInt64
  advanceFixed : Value → CborError × Value
  view : Value → Cursor
  parserInit_view : ∀ bytes, MovesTo view { rest := bytes, remaining := some 1 }
    (parserInit bytes).1 (parserInit bytes).2
  atEnd_eq : ∀ value, (view value).element.usable = true →
    atEnd value = decide ((view value).element = .stop)
  getType_int : ∀ value number rest, (view value).element = .int number rest →
    getType value = .integer
  getType_container : ∀ value kind argument rest, (view value).element = .other →
    Cbor.decodeHead (view value).rest =
      some { major := ContainerKind.major kind, argument := argument, rest := rest } →
        getType value = containerType kind
  enterContainer_enter : ∀ value cursor, (view value).element = .other →
    Cursor.enter (view value).rest = some cursor →
      (∀ count, cursor.remaining = some count → count < 2 ^ 32 - 1) →
        MovesTo view cursor (enterContainer value).1 (enterContainer value).2
  leaveContainer_leave : ∀ value recursed cursor, (view value).element = .other →
    Cursor.enter (view value).rest = some cursor → (view recursed).element = .stop →
      (view recursed).remaining.isSome = cursor.remaining.isSome →
        MovesTo view ((view value).leave (view recursed)) (leaveContainer value recursed).1
          (leaveContainer value recursed).2
  getRawInteger_eq : ∀ value number rest, (view value).element = .int number rest →
    getRawInteger value = (.noError, rawInteger number)
  isUnsignedInteger_eq : ∀ value number rest, (view value).element = .int number rest →
    isUnsignedInteger value = decide (0 ≤ number)
  advanceFixed_next : ∀ value number rest cursor, (view value).element = .int number rest →
    (view value).next = some cursor →
      MovesTo view cursor (advanceFixed value).1 (advanceFixed value).2

/-! ### Reference iterators -/

/-- Move to a position. -/
def moveCursor (cursor : Cursor) : CborError × Cursor :=
  (if cursor.element.usable then .noError else .other 1, cursor)

theorem moveCursor_moves (cursor : Cursor) :
    MovesTo id cursor (moveCursor cursor).1 (moveCursor cursor).2 := by
  refine ⟨fun broken => ?_, fun usable => ⟨if_pos usable, rfl⟩⟩
  show (if cursor.element.usable = true then CborError.noError else .other 1) ≠ .noError
  rw [broken]
  nofun

/-- The type of the element at a position. -/
def cursorType (cursor : Cursor) : CborType :=
  match cursor.element with
  | .int _ _ => .integer
  | .bytes _ => .byteString
  | .text _ => .textString
  | .other =>
      match (Cbor.decodeHead cursor.rest).map Cbor.Head.major with
      | some 4 => .array
      | some 5 => .map
      | some 6 => .tag
      | _ => .simple
  | _ => .invalid

/-- Iterators with the documented behaviour for integers, arrays and maps. -/
def referenceIterator : TinyCborIterator Cursor where
  parserInit bytes := moveCursor { rest := bytes, remaining := some 1 }
  atEnd cursor := decide (cursor.element = .stop)
  getType := cursorType
  enterContainer cursor :=
    match Cursor.enter cursor.rest with
    | some inner => moveCursor inner
    | none => (.other 1, cursor)
  leaveContainer outer inner := moveCursor (outer.leave inner)
  getRawInteger cursor :=
    match cursor.element with
    | .int number _ => (.noError, rawInteger number)
    | _ => (.other 1, 0)
  isUnsignedInteger cursor := cursor.element.isUnsigned
  dupByteString cursor := (.other 1, [], cursor)
  dupTextString cursor := (.other 1, [], cursor)
  getTag _ := (.other 1, 0)
  getSimpleType _ := (.other 1, 0)
  getBoolean _ := (.other 1, false)
  getHalfFloat _ := (.other 1, 0)
  getFloat _ := (.other 1, 0)
  getDouble _ := (.other 1, 0)
  advanceFixed cursor :=
    match cursor.next with
    | some after => moveCursor after
    | none => (.other 1, cursor)
  view := id
  parserInit_view _ := moveCursor_moves _
  atEnd_eq _ _ := rfl
  getType_int cursor number rest found := by
    have found : cursor.element = .int number rest := found
    rw [cursorType, found]
  getType_container cursor kind argument rest found head := by
    have found : cursor.element = .other := found
    have head : Cbor.decodeHead cursor.rest =
        some { major := kind.major, argument := argument, rest := rest } := head
    rw [cursorType, found, head]
    cases kind with
    | array => rfl
    | map => rfl
  enterContainer_enter cursor inner _ entered _ := by
    have entered : Cursor.enter cursor.rest = some inner := entered
    rw [entered]
    exact moveCursor_moves inner
  leaveContainer_leave _ _ _ _ _ _ _ := moveCursor_moves _
  getRawInteger_eq cursor number rest found := by
    have found : cursor.element = .int number rest := found
    rw [found]
  isUnsignedInteger_eq cursor number rest found := by
    have found : cursor.element = .int number rest := found
    rw [found]
    rfl
  advanceFixed_next cursor number rest after _ next := by
    have next : cursor.next = some after := next
    rw [next]
    exact moveCursor_moves after

end BrokerProxy.Codec
