/-
This file states what the deserializer relies on in the decoder of TinyCBOR, which is not
part of the repository. The decoder is a parameter: its functions, with the documented
behaviour of each as a field, told by the position in the input that a `CborValue` stands
at. Nothing is assumed of a `CborValue` after an error. What the decoder refuses is stated
apart, for the results that need it.
-/

import BrokerProxy.Codec.TinyCborEncoder

namespace BrokerProxy.Codec

open Cbor (Cursor Element)

variable {Value : Type}

/-- What is left by a function that moves to a position: it reads the head there, and fails if
there is none. -/
def MovesTo (view : Value → Cursor) (cursor : Cursor) (err : CborError) (value : Value) : Prop :=
  (cursor.element = .broken → err ≠ .noError) ∧
    (cursor.element.usable = true → err = .noError ∧ view value = cursor)

/-- The decoder functions of TinyCBOR that the deserializer calls, and their behaviour.
`parserInit` is given the bytes of the buffer. A pointer that `dupTextString` or `dupByteString`
does not set is `none`; otherwise it is given by the bytes it points at. Integers are converted
without a range check. A container of a definite length is entered if its count fits into 32
bits. -/
structure TinyCborDecoder (Value : Type) where
  parserInit : Bytes → CborError × Value
  isContainer : Value → Bool
  enterContainer : Value → CborError × Value
  isInteger : Value → Bool
  isUnsignedInteger : Value → Bool
  isByteString : Value → Bool
  isTextString : Value → Bool
  getInt : Value → CborError × Int32
  getInt64 : Value → CborError × Int64
  getUint64 : Value → CborError × UInt64
  calculateStringLength : Value → CborError × Nat
  dupTextString : Value → CborError × Option Bytes
  dupByteString : Value → CborError × Option Bytes
  advance : Value → CborError × Value
  advanceFixed : Value → CborError × Value
  view : Value → Cursor
  isContainer_root : ∀ bytes cursor, Cursor.enter bytes = some cursor →
    isContainer (parserInit bytes).2 = true
  enterContainer_root : ∀ bytes cursor, Cursor.enter bytes = some cursor →
    (∀ count, cursor.remaining = some count → count < 2 ^ 32 - 1) →
      MovesTo view cursor (enterContainer (parserInit bytes).2).1
        (enterContainer (parserInit bytes).2).2
  enter_other : ∀ bytes, Cursor.enter bytes = none →
    isContainer (parserInit bytes).2 = false ∨
      (enterContainer (parserInit bytes).2).1 ≠ .noError
  isInteger_eq : ∀ value, (view value).element.usable = true →
    isInteger value = (view value).element.isInt
  isUnsignedInteger_eq : ∀ value, (view value).element.usable = true →
    isUnsignedInteger value = (view value).element.isUnsigned
  isByteString_eq : ∀ value, (view value).element.usable = true →
    isByteString value = (view value).element.isBytes
  isTextString_eq : ∀ value, (view value).element.usable = true →
    isTextString value = (view value).element.isText
  getInt_eq : ∀ value number rest, (view value).element = .int number rest →
    getInt value = (.noError, Int32.ofInt number)
  getInt64_eq : ∀ value number rest, (view value).element = .int number rest →
    getInt64 value = (.noError, Int64.ofInt number)
  getUint64_eq : ∀ value (number : Nat) rest, (view value).element = .int number rest →
    getUint64 value = (.noError, UInt64.ofNat number)
  calculateStringLength_bytes : ∀ value content, (view value).element = .bytes content →
    ((calculateStringLength value).1 = .noError ↔ content ≠ none)
  dupByteString_eq : ∀ value body rest, (view value).element = .bytes (some (body, rest)) →
    dupByteString value = (.noError, some body)
  dupTextString_eq : ∀ value body rest, (view value).element = .text (some (body, rest)) →
    dupTextString value = (.noError, some body)
  dupTextString_cut : ∀ value, (view value).element = .text none →
    (dupTextString value).1 ≠ .noError ∧ (dupTextString value).2 = none
  advance_next : ∀ value cursor, (view value).next = some cursor →
    MovesTo view cursor (advance value).1 (advance value).2
  advanceFixed_next : ∀ value number rest cursor, (view value).element = .int number rest →
    (view value).next = some cursor →
      MovesTo view cursor (advanceFixed value).1 (advanceFixed value).2

/-! ### What is refused -/

section

variable (tiny : TinyCborDecoder Value)

/-- A move to an element that is not well formed. The reserved heads are refused. Whether a map
of indefinite length may end where a value is due depends on the release; what is there is then
of no type. -/
def TinyCborDecoder.Refuses (cursor : Cursor) (err : CborError) (value : Value) : Prop :=
  (cursor.element = .malformed → err ≠ .noError) ∧
    (cursor.element = .unpaired → err ≠ .noError ∨
      (tiny.isInteger value = false ∧ tiny.isUnsignedInteger value = false ∧
        tiny.isTextString value = false ∧ tiny.isByteString value = false))

/-- The documented behaviour where the input is not well formed, and for containers that are too
large. -/
structure TinyCborDecoder.Rejects : Prop where
  enter : ∀ bytes cursor, Cursor.enter bytes = some cursor →
    (∀ count, cursor.remaining = some count → count < 2 ^ 32 - 1) →
      tiny.Refuses cursor (tiny.enterContainer (tiny.parserInit bytes).2).1
        (tiny.enterContainer (tiny.parserInit bytes).2).2
  enterLarge : ∀ bytes cursor count, Cursor.enter bytes = some cursor →
    cursor.remaining = some count → 2 ^ 32 - 1 ≤ count →
      (tiny.enterContainer (tiny.parserInit bytes).2).1 ≠ .noError
  advance : ∀ value cursor, (tiny.view value).next = some cursor →
    tiny.Refuses cursor (tiny.advance value).1 (tiny.advance value).2
  advanceFixed : ∀ value number rest cursor, (tiny.view value).element = .int number rest →
    (tiny.view value).next = some cursor →
      tiny.Refuses cursor (tiny.advanceFixed value).1 (tiny.advanceFixed value).2

/-- Whether a map of indefinite length may end where a value is due. All moves of a release
agree on it. -/
def TinyCborDecoder.AllowsBreak (allowed : Bool) : Prop :=
  ∀ value cursor, (tiny.view value).next = some cursor → cursor.element = .unpaired →
    ((tiny.advance value).1 = .noError ↔ allowed = true)

end

/-! ### A reference decoder -/

/-- A value of the reference decoder: the whole input, or a position in a container. -/
inductive ReferenceValue
  | root (bytes : Bytes)
  | inside (cursor : Cursor)

/-- The position of a value. -/
def ReferenceValue.view : ReferenceValue → Cursor
  | .root _ => { rest := [], remaining := none }
  | .inside cursor => cursor

/-- Move to a position. -/
def moveTo : Option Cursor → CborError × ReferenceValue
  | some cursor =>
      (if cursor.element.usable then .noError else .other 1, .inside cursor)
  | none => (.other 1, .inside { rest := [], remaining := none })

theorem moveTo_moves (cursor : Cursor) :
    MovesTo ReferenceValue.view cursor (moveTo (some cursor)).1 (moveTo (some cursor)).2 := by
  refine ⟨fun broken => ?_, fun usable => ⟨if_pos usable, rfl⟩⟩
  show (if cursor.element.usable = true then CborError.noError else .other 1) ≠ .noError
  rw [broken]
  nofun

/-- The first element of a container that is not too large. -/
def enterSmall (bytes : Bytes) : Option Cursor :=
  (Cursor.enter bytes).filter fun cursor => cursor.remaining.all (· < 2 ^ 32 - 1)

/-- A string that is there completely. -/
def stringOf (content : Option (Bytes × Bytes)) : CborError × Option Bytes :=
  match content with
  | some (body, _) => (.noError, some body)
  | none => (.other 1, none)

theorem enterSmall_of_small {bytes : Bytes} {cursor : Cursor}
    (entered : Cursor.enter bytes = some cursor)
    (small : ∀ count, cursor.remaining = some count → count < 2 ^ 32 - 1) :
    enterSmall bytes = some cursor := by
  have fits : cursor.remaining.all (· < 2 ^ 32 - 1) = true := by
    cases remaining : cursor.remaining with
    | none => rfl
    | some count => exact decide_eq_true (small count remaining)
  rw [enterSmall, entered, Option.filter_some, if_pos fits]

/-- A decoder with the documented behaviour. -/
def referenceDecoder : TinyCborDecoder ReferenceValue where
  parserInit bytes := (.noError, .root bytes)
  isContainer
    | .root bytes => (Cursor.enter bytes).isSome
    | .inside _ => false
  enterContainer
    | .root bytes => moveTo (enterSmall bytes)
    | .inside _ => moveTo none
  isInteger value := value.view.element.isInt
  isUnsignedInteger value := value.view.element.isUnsigned
  isByteString value := value.view.element.isBytes
  isTextString value := value.view.element.isText
  getInt value :=
    match value.view.element with
    | .int number _ => (.noError, Int32.ofInt number)
    | _ => (.other 1, 0)
  getInt64 value :=
    match value.view.element with
    | .int number _ => (.noError, Int64.ofInt number)
    | _ => (.other 1, 0)
  getUint64 value :=
    match value.view.element with
    | .int number _ => (.noError, UInt64.ofNat number.toNat)
    | _ => (.other 1, 0)
  calculateStringLength value :=
    match value.view.element with
    | .bytes (some (body, _)) | .text (some (body, _)) => (.noError, body.length)
    | _ => (.other 1, 0)
  dupTextString value :=
    match value.view.element with
    | .text content => stringOf content
    | _ => (.other 1, none)
  dupByteString value :=
    match value.view.element with
    | .bytes content => stringOf content
    | _ => (.other 1, none)
  advance value := moveTo value.view.next
  advanceFixed value := moveTo value.view.next
  view := ReferenceValue.view
  isContainer_root bytes cursor entered := Option.isSome_iff_exists.mpr ⟨cursor, entered⟩
  enterContainer_root bytes cursor entered small := by
    show MovesTo _ cursor (moveTo (enterSmall bytes)).1 (moveTo (enterSmall bytes)).2
    rw [enterSmall_of_small entered small]
    exact moveTo_moves cursor
  enter_other bytes outside := Or.inl (Option.isSome_eq_false_iff.mpr
    (Option.isNone_iff_eq_none.mpr outside))
  isInteger_eq _ _ := rfl
  isUnsignedInteger_eq _ _ := rfl
  isByteString_eq _ _ := rfl
  isTextString_eq _ _ := rfl
  getInt_eq value number rest found := by rw [found]
  getInt64_eq value number rest found := by rw [found]
  getUint64_eq value number rest found := by
    rw [found]
    rfl
  calculateStringLength_bytes value content found := by
    rw [found]
    cases content with
    | none => exact ⟨nofun, fun wrong => absurd rfl wrong⟩
    | some content => exact ⟨nofun, fun _ => rfl⟩
  dupByteString_eq value body rest found := by
    rw [found]
    rfl
  dupTextString_eq value body rest found := by
    rw [found]
    rfl
  dupTextString_cut value found := by
    rw [found]
    exact ⟨nofun, rfl⟩
  advance_next value cursor next := by
    rw [next]
    exact moveTo_moves cursor
  advanceFixed_next value number rest cursor found next := by
    rw [next]
    exact moveTo_moves cursor

/-- The reference decoder refuses every element that is not well formed. -/
theorem moveTo_refused {cursor : Cursor} (unusable : cursor.element.usable = false) :
    (moveTo (some cursor)).1 ≠ .noError := by
  rw [moveTo, if_neg (by rw [unusable]; exact Bool.false_ne_true)]
  nofun

theorem moveTo_refuses (cursor : Cursor) :
    referenceDecoder.Refuses cursor (moveTo (some cursor)).1 (moveTo (some cursor)).2 :=
  ⟨fun malformed => moveTo_refused (by rw [malformed]; rfl),
    fun unpaired => Or.inl (moveTo_refused (by rw [unpaired]; rfl))⟩

theorem referenceDecoder_rejects : referenceDecoder.Rejects where
  enter bytes cursor entered small := by
    show referenceDecoder.Refuses cursor (moveTo (enterSmall bytes)).1 (moveTo (enterSmall bytes)).2
    rw [enterSmall_of_small entered small]
    exact moveTo_refuses cursor
  enterLarge bytes cursor count entered remaining large := by
    have refused : enterSmall bytes = none := by
      rw [enterSmall, entered, Option.filter_some, if_neg]
      rw [remaining, Option.all_some, decide_eq_true_eq]
      exact Nat.not_lt.mpr large
    show (moveTo (enterSmall bytes)).1 ≠ .noError
    rw [refused]
    nofun
  advance value cursor next := by
    show referenceDecoder.Refuses cursor (moveTo value.view.next).1 (moveTo value.view.next).2
    have next : value.view.next = some cursor := next
    rw [next]
    exact moveTo_refuses cursor
  advanceFixed value number rest cursor _ next := by
    show referenceDecoder.Refuses cursor (moveTo value.view.next).1 (moveTo value.view.next).2
    have next : value.view.next = some cursor := next
    rw [next]
    exact moveTo_refuses cursor

theorem referenceDecoder_allowsBreak : referenceDecoder.AllowsBreak false := by
  intro value cursor next unpaired
  have next : value.view.next = some cursor := next
  have refused : (moveTo value.view.next).1 ≠ .noError := by
    rw [next]
    exact moveTo_refused (by rw [unpaired]; rfl)
  exact ⟨fun moved => absurd moved refused, nofun⟩

end BrokerProxy.Codec
