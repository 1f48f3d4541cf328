/-
This file models `CborDeserializer` and says what each of its calls does at a position in
the received array. A call that fails leaves an error that every later call keeps, until
the next `begin`. A string whose characters are not all there has no result: the code
reads a pointer that was never set.
-/

import BrokerProxy.Codec.TinyCborDecoder

namespace BrokerProxy.Codec

open Cbor (Cursor Element)

/-- The fields of `CborDeserializer`. -/
structure CborDeserializer (Value : Type) where
  capacity : Nat
  buffer : Bytes
  size : Nat
  err : CborError
  rootIt : Value
  it : Value

namespace CborDeserializer

variable {Value : Type} (tiny : TinyCborDecoder Value)

/-- `fromBytes`: bytes beyond the capacity are cut off. -/
def fromBytes (deserializer : CborDeserializer Value) (bs : Bytes) : CborDeserializer Value :=
  let size := if bs.length < deserializer.capacity then bs.length else deserializer.capacity
  { deserializer with
    size := size
    buffer := bs.take size ++ deserializer.buffer.drop size }

/-- `begin`. -/
def begin (deserializer : CborDeserializer Value) : CborDeserializer Value :=
  let rootIt := (tiny.parserInit (deserializer.buffer.take deserializer.size)).2
  if tiny.isContainer rootIt then
    let entered := tiny.enterContainer rootIt
    { deserializer with rootIt := rootIt, err := entered.1, it := entered.2 }
  else { deserializer with rootIt := rootIt, err := .illegalType }

/-- `end`, which does nothing. -/
def «end» (deserializer : CborDeserializer Value) : CborDeserializer Value := deserializer

/-- `success`. -/
def success (deserializer : CborDeserializer Value) : Bool := deserializer.err = .noError

/-- Move on after a value was taken. -/
def advanced (deserializer : CborDeserializer Value) (moved : CborError × Value) :
    CborDeserializer Value :=
  { deserializer with err := moved.1, it := moved.2 }

/-- The error of a call at a value of another type, or after an error. -/
def illegal (deserializer : CborDeserializer Value) : CborDeserializer Value :=
  { deserializer with err := .illegalType }

/-- `get(int)`. -/
def getInt (deserializer : CborDeserializer Value) (t : Int32) :
    Int32 × CborDeserializer Value :=
  if deserializer.err = .noError ∧ tiny.isInteger deserializer.it = true then
    let got := tiny.getInt deserializer.it
    let after := { deserializer with err := got.1 }
    (got.2, if got.1 = .noError then after.advanced (tiny.advanceFixed after.it) else after)
  else (t, deserializer.illegal)

/-- `get(const int)`: the integer is read into a variable of its own, and the argument is not
looked at. -/
def getConstInt (deserializer : CborDeserializer Value) (_t : Int32) : CborDeserializer Value :=
  if deserializer.err = .noError ∧ tiny.isInteger deserializer.it = true then
    let x := tiny.getInt deserializer.it
    let after := { deserializer with err := x.1 }
    if x.1 = .noError then after.advanced (tiny.advanceFixed after.it) else after
  else deserializer.illegal

/-- A getter of a number: its test, the function that reads, and the function that moves on. -/
def getNumber {Number : Type} (isNumber : Value → Bool) (read : Value → CborError × Number)
    (move : Value → CborError × Value) (deserializer : CborDeserializer Value) (t : Number) :
    Number × CborDeserializer Value :=
  if deserializer.err = .noError ∧ isNumber deserializer.it = true then
    let got := read deserializer.it
    let after := { deserializer with err := got.1 }
    (got.2, if got.1 = .noError then after.advanced (move after.it) else after)
  else (t, deserializer.illegal)

/-- `get(int64_t)`. -/
def getInt64 (deserializer : CborDeserializer Value) (t : Int64) :
    Int64 × CborDeserializer Value :=
  deserializer.getNumber tiny.isInteger tiny.getInt64 tiny.advance t

/-- `get(uint64_t)`. -/
def getUInt64 (deserializer : CborDeserializer Value) (t : UInt64) :
    UInt64 × CborDeserializer Value :=
  deserializer.getNumber tiny.isUnsignedInteger tiny.getUint64 tiny.advanceFixed t

/-- `get(Bytes)`. Without a pointer to read there is no result. -/
def getBytes (deserializer : CborDeserializer Value) (t : Bytes) :
    Option (Bytes × CborDeserializer Value) :=
  if deserializer.err = .noError ∧ tiny.isByteString deserializer.it = true ∧
      (tiny.calculateStringLength deserializer.it).1 = .noError then
    let duplicated := tiny.dupByteString deserializer.it
    let after := { deserializer with err := duplicated.1 }
    duplicated.2.map fun temp =>
      (temp, if duplicated.1 = .noError then after.advanced (tiny.advance after.it) else after)
  else some (t, deserializer.illegal)

/-- `get(std::string)`, which makes the string from a C string. Without a pointer to read there is
no result. -/
def getString (deserializer : CborDeserializer Value) (t : Bytes) :
    Option (Bytes × CborDeserializer Value) :=
  if deserializer.err = .noError ∧ tiny.isTextString deserializer.it = true then
    let duplicated := tiny.dupTextString deserializer.it
    let after := { deserializer with err := duplicated.1 }
    duplicated.2.map fun temp =>
      (cString temp,
        if duplicated.1 = .noError then after.advanced (tiny.advance after.it) else after)
  else some (t, deserializer.illegal)

/-! ### What a call takes -/

theorem getInt_eq_getNumber (deserializer : CborDeserializer Value) (t : Int32) :
    deserializer.getInt tiny t =
      deserializer.getNumber tiny.isInteger tiny.getInt tiny.advanceFixed t := rfl

/-- A constant is read as a variable is, and the value forgotten. -/
theorem getConstInt_eq_getInt (deserializer : CborDeserializer Value) (constant t : Int32) :
    deserializer.getConstInt tiny constant = (deserializer.getInt tiny t).2 := by
  unfold getConstInt getInt
  split <;> rfl

/-- A getter that finds its number takes it and moves on. -/
theorem getNumber_takes {Number : Type} {isNumber : Value → Bool}
    {read : Value → CborError × Number} {move : Value → CborError × Value}
    {deserializer : CborDeserializer Value} {number : Number}
    (noError : deserializer.err = .noError) (test : isNumber deserializer.it = true)
    (got : read deserializer.it = (.noError, number)) (t : Number) :
    deserializer.getNumber isNumber read move t =
      (number, deserializer.advanced (move deserializer.it)) := by
  unfold getNumber
  rw [if_pos ⟨noError, test⟩, got]
  rfl

/-- A getter that finds no number leaves its target alone. -/
theorem getNumber_refused {Number : Type} {isNumber : Value → Bool}
    {read : Value → CborError × Number} {move : Value → CborError × Value}
    {deserializer : CborDeserializer Value}
    (refused : ¬ (deserializer.err = .noError ∧ isNumber deserializer.it = true)) (t : Number) :
    deserializer.getNumber isNumber read move t = (t, deserializer.illegal) := by
  unfold getNumber
  rw [if_neg refused]

variable {tiny} in
theorem getString_takes {deserializer : CborDeserializer Value} {body : Bytes}
    (noError : deserializer.err = .noError)
    (test : tiny.isTextString deserializer.it = true)
    (duplicated : tiny.dupTextString deserializer.it = (.noError, some body)) (t : Bytes) :
    deserializer.getString tiny t =
      some (cString body, deserializer.advanced (tiny.advance deserializer.it)) := by
  unfold getString
  rw [if_pos ⟨noError, test⟩, duplicated]
  rfl

variable {tiny} in
theorem getString_refused {deserializer : CborDeserializer Value}
    (refused : ¬ (deserializer.err = .noError ∧ tiny.isTextString deserializer.it = true))
    (t : Bytes) : deserializer.getString tiny t = some (t, deserializer.illegal) := by
  unfold getString
  rw [if_neg refused]

variable {tiny} in
theorem getBytes_takes {deserializer : CborDeserializer Value} {body : Bytes}
    (noError : deserializer.err = .noError)
    (test : tiny.isByteString deserializer.it = true)
    (length : (tiny.calculateStringLength deserializer.it).1 = .noError)
    (duplicated : tiny.dupByteString deserializer.it = (.noError, some body)) (t : Bytes) :
    deserializer.getBytes tiny t =
      some (body, deserializer.advanced (tiny.advance deserializer.it)) := by
  unfold getBytes
  rw [if_pos ⟨noError, test, length⟩, duplicated]
  rfl

variable {tiny} in
theorem getBytes_refused {deserializer : CborDeserializer Value}
    (refused : ¬ (deserializer.err = .noError ∧ tiny.isByteString deserializer.it = true ∧
      (tiny.calculateStringLength deserializer.it).1 = .noError))
    (t : Bytes) : deserializer.getBytes tiny t = some (t, deserializer.illegal) := by
  unfold getBytes
  rw [if_neg refused]

/-! ### The capacity -/

theorem getInt_capacity (deserializer : CborDeserializer Value) (t : Int32) :
    (deserializer.getInt tiny t).2.capacity = deserializer.capacity := by
  unfold getInt
  split
  · dsimp only
    split <;> rfl
  · rfl

theorem begin_capacity (deserializer : CborDeserializer Value) :
    (deserializer.begin tiny).capacity = deserializer.capacity := by
  unfold begin
  dsimp only
  split <;> rfl

variable {tiny} in
theorem getBytes_capacity {deserializer : CborDeserializer Value} {t : Bytes}
    {got : Bytes × CborDeserializer Value} (done : deserializer.getBytes tiny t = some got) :
    got.2.capacity = deserializer.capacity := by
  unfold getBytes at done
  split at done
  · obtain ⟨temp, -, rfl⟩ := Option.map_eq_some_iff.mp done
    dsimp only
    split <;> rfl
  · cases done
    rfl

variable {tiny} in
theorem getString_capacity {deserializer : CborDeserializer Value} {t : Bytes}
    {got : Bytes × CborDeserializer Value} (done : deserializer.getString tiny t = some got) :
    got.2.capacity = deserializer.capacity := by
  unfold getString at done
  split at done
  · obtain ⟨temp, -, rfl⟩ := Option.map_eq_some_iff.mp done
    dsimp only
    split <;> rfl
  · cases done
    rfl

/-! ### Positions -/

/-- The deserializer has moved to a position, and has an error if there is nothing to read. -/
def Reached (deserializer : CborDeserializer Value) (cursor : Cursor) : Prop :=
  MovesTo tiny.view cursor deserializer.err deserializer.it

variable {tiny} {deserializer : CborDeserializer Value} {cursor : Cursor}

theorem Reached.at (reached : deserializer.Reached tiny cursor)
    (usable : cursor.element.usable = true) :
    deserializer.err = .noError ∧ tiny.view deserializer.it = cursor := reached.2 usable

theorem buffer_fromBytes (deserializer : CborDeserializer Value) (bs : Bytes) :
    (deserializer.fromBytes bs).buffer.take (deserializer.fromBytes bs).size =
      bs.take deserializer.capacity := by
  unfold fromBytes
  dsimp only
  split
  · rename_i short
    rw [List.take_left' (List.length_take_of_le le_rfl), List.take_of_length_le le_rfl,
      List.take_of_length_le short.le]
  · rename_i long
    exact List.take_left' (List.length_take_of_le (not_lt.mp long))

/-- `begin` moves to the first element of an array. -/
theorem begin_reached {bs : Bytes} (entered : Cursor.enter (bs.take deserializer.capacity) =
      some cursor) (small : ∀ count, cursor.remaining = some count → count < 2 ^ 32 - 1) :
    ((deserializer.fromBytes bs).begin tiny).Reached tiny cursor := by
  unfold begin
  rw [buffer_fromBytes]
  dsimp only
  rw [if_pos (tiny.isContainer_root _ _ entered)]
  exact tiny.enterContainer_root _ _ entered small

/-- `get(int)` at an integer takes it and moves on. -/
theorem getInt_of_int {number : Int} {rest : Bytes} {after : Cursor}
    (reached : deserializer.Reached tiny cursor) (found : cursor.element = .int number rest)
    (next : cursor.next = some after) (t : Int32) :
    (deserializer.getInt tiny t).1 = Int32.ofInt number ∧
      (deserializer.getInt tiny t).2.Reached tiny after := by
  have usable : cursor.element.usable = true := by rw [found]; rfl
  obtain ⟨noError, view⟩ := reached.at usable
  have isInteger : tiny.isInteger deserializer.it = true := by
    rw [tiny.isInteger_eq _ (by rw [view]; exact usable), view, found]
    rfl
  have got := tiny.getInt_eq deserializer.it number rest (by rw [view]; exact found)
  rw [getInt_eq_getNumber, getNumber_takes noError isInteger got]
  exact ⟨rfl, tiny.advanceFixed_next deserializer.it number rest after (by rw [view]; exact found)
    (by rw [view]; exact next)⟩

/-- `get(std::string)` at a text string takes it and moves on. -/
theorem getString_of_text {body rest : Bytes} {after : Cursor}
    (reached : deserializer.Reached tiny cursor)
    (found : cursor.element = .text (some (body, rest))) (next : cursor.next = some after)
    (t : Bytes) :
    ∃ moved, deserializer.getString tiny t = some (cString body, moved) ∧
      moved.Reached tiny after := by
  have usable : cursor.element.usable = true := by rw [found]; rfl
  obtain ⟨noError, view⟩ := reached.at usable
  have isTextString : tiny.isTextString deserializer.it = true := by
    rw [tiny.isTextString_eq _ (by rw [view]; exact usable), view, found]
    rfl
  have duplicated := tiny.dupTextString_eq deserializer.it body rest (by rw [view]; exact found)
  exact ⟨_, getString_takes noError isTextString duplicated t,
    tiny.advance_next deserializer.it after (by rw [view]; exact next)⟩

/-- `get(Bytes)` at a byte string takes it and moves on. -/
theorem getBytes_of_bytes {body rest : Bytes} {after : Cursor}
    (reached : deserializer.Reached tiny cursor)
    (found : cursor.element = .bytes (some (body, rest))) (next : cursor.next = some after)
    (t : Bytes) :
    ∃ moved, deserializer.getBytes tiny t = some (body, moved) ∧ moved.Reached tiny after := by
  have usable : cursor.element.usable = true := by rw [found]; rfl
  obtain ⟨noError, view⟩ := reached.at usable
  have isByteString : tiny.isByteString deserializer.it = true := by
    rw [tiny.isByteString_eq _ (by rw [view]; exact usable), view, found]
    rfl
  have length : (tiny.calculateStringLength deserializer.it).1 = .noError :=
    (tiny.calculateStringLength_bytes deserializer.it (some (body, rest))
      (by rw [view]; exact found)).mpr (Option.some_ne_none _)
  have duplicated := tiny.dupByteString_eq deserializer.it body rest (by rw [view]; exact found)
  exact ⟨_, getBytes_takes noError isByteString length duplicated t,
    tiny.advance_next deserializer.it after (by rw [view]; exact next)⟩

/-! ### Failures -/

/-- A call that takes no value leaves an error. -/
theorem illegal_err (deserializer : CborDeserializer Value) :
    deserializer.illegal.err ≠ .noError := nofun

/-- `begin` fails without a byte. -/
theorem begin_of_nil (tiny : TinyCborDecoder Value) (deserializer : CborDeserializer Value) :
    ((deserializer.fromBytes []).begin tiny).err ≠ .noError := by
  have nothing : (deserializer.fromBytes []).buffer.take (deserializer.fromBytes []).size = [] := by
    rw [buffer_fromBytes, List.take_nil]
  unfold begin
  rw [nothing]
  dsimp only
  split
  · rename_i container
    rcases tiny.enter_other [] rfl with noContainer | failed
    · rw [noContainer] at container
      cases container
    · exact failed
  · nofun

/-- `get(int)` fails after an error. -/
theorem getInt_of_err (failed : deserializer.err ≠ .noError) (t : Int32) :
    (deserializer.getInt tiny t).2.err ≠ .noError := by
  rw [getInt_eq_getNumber, getNumber_refused fun ok => failed ok.1]
  exact deserializer.illegal_err

theorem getString_of_err (failed : deserializer.err ≠ .noError) (t : Bytes) :
    deserializer.getString tiny t = some (t, deserializer.illegal) :=
  getString_refused (fun ok => failed ok.1) t

theorem getBytes_of_err (failed : deserializer.err ≠ .noError) (t : Bytes) :
    deserializer.getBytes tiny t = some (t, deserializer.illegal) :=
  getBytes_refused (fun ok => failed ok.1) t

/-- A call that succeeds was made without an error. -/
theorem err_of_getString {t : Bytes} {got : Bytes × CborDeserializer Value}
    (done : deserializer.getString tiny t = some got) (noError : got.2.err = .noError) :
    deserializer.err = .noError := by
  by_contra failed
  rw [getString_of_err failed] at done
  cases done
  exact deserializer.illegal_err noError

theorem err_of_getBytes {t : Bytes} {got : Bytes × CborDeserializer Value}
    (done : deserializer.getBytes tiny t = some got) (noError : got.2.err = .noError) :
    deserializer.err = .noError := by
  by_contra failed
  rw [getBytes_of_err failed] at done
  cases done
  exact deserializer.illegal_err noError

/-- `get(int)` fails at another element and at the end. -/
theorem getInt_of_other (reached : deserializer.Reached tiny cursor)
    (usable : cursor.element.usable = true) (other : cursor.element.isInt = false) (t : Int32) :
    (deserializer.getInt tiny t).2.err ≠ .noError := by
  obtain ⟨-, view⟩ := reached.at usable
  rw [getInt_eq_getNumber, getNumber_refused]
  · exact deserializer.illegal_err
  · rintro ⟨-, isInteger⟩
    rw [tiny.isInteger_eq _ (by rw [view]; exact usable), view, other] at isInteger
    cases isInteger

theorem getString_of_other (reached : deserializer.Reached tiny cursor)
    (usable : cursor.element.usable = true) (other : cursor.element.isText = false) (t : Bytes) :
    deserializer.getString tiny t = some (t, deserializer.illegal) := by
  obtain ⟨-, view⟩ := reached.at usable
  refine getString_refused ?_ t
  rintro ⟨-, isTextString⟩
  rw [tiny.isTextString_eq _ (by rw [view]; exact usable), view, other] at isTextString
  cases isTextString

theorem getBytes_of_other (reached : deserializer.Reached tiny cursor)
    (usable : cursor.element.usable = true) (other : cursor.element.isBytes = false) (t : Bytes) :
    deserializer.getBytes tiny t = some (t, deserializer.illegal) := by
  obtain ⟨-, view⟩ := reached.at usable
  refine getBytes_refused ?_ t
  rintro ⟨-, isByteString, -⟩
  rw [tiny.isByteString_eq _ (by rw [view]; exact usable), view, other] at isByteString
  cases isByteString

/-- `get(std::string)` at a text string that is cut has no result. -/
theorem getString_of_cut (reached : deserializer.Reached tiny cursor)
    (cut : cursor.element = .text none) (t : Bytes) : deserializer.getString tiny t = none := by
  have usable : cursor.element.usable = true := by rw [cut]; rfl
  obtain ⟨noError, view⟩ := reached.at usable
  have isTextString : tiny.isTextString deserializer.it = true := by
    rw [tiny.isTextString_eq _ (by rw [view]; exact usable), view, cut]
    rfl
  have duplicated := tiny.dupTextString_cut deserializer.it (by rw [view]; exact cut)
  unfold getString
  rw [if_pos ⟨noError, isTextString⟩]
  dsimp only
  rw [duplicated.2]
  rfl

/-- `get(Bytes)` at a byte string that is cut leaves the target alone. -/
theorem getBytes_of_cut (reached : deserializer.Reached tiny cursor)
    (cut : cursor.element = .bytes none) (t : Bytes) :
    deserializer.getBytes tiny t = some (t, deserializer.illegal) := by
  obtain ⟨-, view⟩ := reached.at (by rw [cut]; rfl)
  refine getBytes_refused ?_ t
  rintro ⟨-, -, length⟩
  exact (tiny.calculateStringLength_bytes deserializer.it none (by rw [view]; exact cut)).mp
    length rfl

/-- An element of which the end is missing. -/
def Cut (element : Element) : Prop :=
  element = .broken ∨ element = .bytes none ∨ element = .text none

/-- No call succeeds at an element that is cut. -/
theorem getInt_fails (reached : deserializer.Reached tiny cursor) (cut : Cut cursor.element)
    (t : Int32) : (deserializer.getInt tiny t).2.err ≠ .noError := by
  rcases cut with broken | bytes | text
  · exact getInt_of_err (reached.1 broken) t
  · exact getInt_of_other reached (by rw [bytes]; rfl) (by rw [bytes]; rfl) t
  · exact getInt_of_other reached (by rw [text]; rfl) (by rw [text]; rfl) t

theorem getString_fails (reached : deserializer.Reached tiny cursor) (cut : Cut cursor.element)
    {t : Bytes} {got : Bytes × CborDeserializer Value}
    (done : deserializer.getString tiny t = some got) : got.2.err ≠ .noError := by
  rcases cut with broken | bytes | text
  · rw [getString_of_err (reached.1 broken)] at done
    exact Option.some.inj done ▸ deserializer.illegal_err
  · rw [getString_of_other reached (by rw [bytes]; rfl) (by rw [bytes]; rfl)] at done
    exact Option.some.inj done ▸ deserializer.illegal_err
  · rw [getString_of_cut reached text] at done
    cases done

theorem getBytes_fails (reached : deserializer.Reached tiny cursor) (cut : Cut cursor.element)
    {t : Bytes} {got : Bytes × CborDeserializer Value}
    (done : deserializer.getBytes tiny t = some got) : got.2.err ≠ .noError := by
  rcases cut with broken | bytes | text
  · rw [getBytes_of_err (reached.1 broken)] at done
    exact Option.some.inj done ▸ deserializer.illegal_err
  · rw [getBytes_of_cut reached bytes] at done
    exact Option.some.inj done ▸ deserializer.illegal_err
  · rw [getBytes_of_other reached (by rw [text]; rfl) (by rw [text]; rfl)] at done
    exact Option.some.inj done ▸ deserializer.illegal_err

/-! ### Input of which the end is missing -/

section

variable {kept lost rest : Bytes}
  (reached : deserializer.Reached tiny { rest := kept, remaining := none })

include reached

/-- Where `get(int)` succeeds, the integer is kept as a whole, and it moves to what is kept after
it. -/
theorem getInt_kept {number : Int} (found : Cbor.item (kept ++ lost) = .int number rest) (t : Int32)
    (noError : (deserializer.getInt tiny t).2.err = .noError) :
    ∃ before, before ++ lost = rest ∧
      (deserializer.getInt tiny t).2.Reached tiny { rest := before, remaining := none } := by
  rcases Cursor.element_of_append found rfl with cut | ⟨before, next, split, element⟩
  · exact absurd noError (getInt_fails reached cut t)
  · obtain ⟨_, here⟩ := Cbor.Element.int_of_append element
    exact ⟨before, split, (getInt_of_int reached here next t).2⟩

theorem getString_kept {body t : Bytes} {got : Bytes × CborDeserializer Value}
    (found : Cbor.item (kept ++ lost) = .text (some (body, rest)))
    (done : deserializer.getString tiny t = some got) (noError : got.2.err = .noError) :
    ∃ before, before ++ lost = rest ∧
      got.2.Reached tiny { rest := before, remaining := none } := by
  rcases Cursor.element_of_append found rfl with cut | ⟨before, next, split, element⟩
  · exact absurd noError (getString_fails reached cut done)
  · obtain ⟨_, here⟩ := Cbor.Element.text_of_append element
    obtain ⟨moved, same, after⟩ := getString_of_text reached here next t
    rw [same] at done
    cases done
    exact ⟨before, split, after⟩

theorem getBytes_kept {body t : Bytes} {got : Bytes × CborDeserializer Value}
    (found : Cbor.item (kept ++ lost) = .bytes (some (body, rest)))
    (done : deserializer.getBytes tiny t = some got) (noError : got.2.err = .noError) :
    ∃ before, before ++ lost = rest ∧
      got.2.Reached tiny { rest := before, remaining := none } := by
  rcases Cursor.element_of_append found rfl with cut | ⟨before, next, split, element⟩
  · exact absurd noError (getBytes_fails reached cut done)
  · obtain ⟨_, here⟩ := Cbor.Element.bytes_of_append element
    obtain ⟨moved, same, after⟩ := getBytes_of_bytes reached here next t
    rw [same] at done
    cases done
    exact ⟨before, split, after⟩

end

end CborDeserializer

/-- A deserializer that the constructor has made, for the reference decoder. -/
def constructed (capacity : Nat) : CborDeserializer ReferenceValue where
  capacity := capacity
  buffer := List.replicate capacity 0
  size := 0
  err := .noError
  rootIt := .root []
  it := .root []

end BrokerProxy.Codec
