/-
This file follows a deserializer through any list of calls of `get`. What each call does is
told by a reader of the received bytes alone: it takes the value if the element there is of
the kind that is asked for, and otherwise fails and leaves the target alone. The one
exception is a text string that is not there completely. The call then reads and frees a
pointer that was never set, which `get(Bytes)` prevents by asking for the length first.
-/

import BrokerProxy.Codec.Deserializer

namespace BrokerProxy.Codec

open Cbor (Cursor Element)

/-! ### Values of the calls -/

/-- The types that `get` is called with. -/
inductive Kind
  | int
  | int64
  | uint64
  | string
  | bytes
deriving DecidableEq

/-- A value of one of these types: the target of a call, and what it is set to. -/
inductive Field
  | int (t : Int32)
  | int64 (t : Int64)
  | uint64 (t : UInt64)
  | string (t : Bytes)
  | bytes (t : Bytes)
deriving DecidableEq

/-- The type of a value. -/
def Field.kind : Field → Kind
  | .int _ => .int
  | .int64 _ => .int64
  | .uint64 _ => .uint64
  | .string _ => .string
  | .bytes _ => .bytes

namespace CborDeserializer

variable {Value : Type} (tiny : TinyCborDecoder Value)

/-- The call of `get` with a target. -/
def get (deserializer : CborDeserializer Value) :
    Field → Option (Field × CborDeserializer Value)
  | .int t => some ((deserializer.getInt tiny t).map .int id)
  | .int64 t => some ((deserializer.getInt64 tiny t).map .int64 id)
  | .uint64 t => some ((deserializer.getUInt64 tiny t).map .uint64 id)
  | .string t => (deserializer.getString tiny t).map (Prod.map .string id)
  | .bytes t => (deserializer.getBytes tiny t).map (Prod.map .bytes id)

/-- What the call of `cbor_value_dup_text_string` or `cbor_value_dup_byte_string` gives that a call
of `get` makes, if it makes one. -/
def duplicate (deserializer : CborDeserializer Value) :
    Field → Option (CborError × Option Bytes)
  | .string _ =>
      if deserializer.err = .noError ∧ tiny.isTextString deserializer.it = true then
        some (tiny.dupTextString deserializer.it)
      else none
  | .bytes _ =>
      if deserializer.err = .noError ∧ tiny.isByteString deserializer.it = true ∧
          (tiny.calculateStringLength deserializer.it).1 = .noError then
        some (tiny.dupByteString deserializer.it)
      else none
  | _ => none

/-- Calls of `get` one after the other. -/
def getAll (deserializer : CborDeserializer Value) :
    List Field → Option (List Field × CborDeserializer Value)
  | [] => some ([], deserializer)
  | target :: targets =>
      (deserializer.get tiny target).bind fun got =>
        (getAll got.2 targets).map fun rest => (got.1 :: rest.1, rest.2)

variable {tiny}

theorem getAll_cons {deserializer between after : CborDeserializer Value} {target value : Field}
    {targets later : List Field} (first : deserializer.get tiny target = some (value, between))
    (rest : between.getAll tiny targets = some (later, after)) :
    deserializer.getAll tiny (target :: targets) = some (value :: later, after) := by
  rw [getAll, first, Option.bind_some, rest, Option.map_some]

theorem of_getAll_cons {deserializer after : CborDeserializer Value} {target : Field}
    {targets values : List Field}
    (got : deserializer.getAll tiny (target :: targets) = some (values, after)) :
    ∃ value between later, deserializer.get tiny target = some (value, between) ∧
      between.getAll tiny targets = some (later, after) ∧ values = value :: later := by
  obtain ⟨⟨value, between⟩, first, rest⟩ := Option.bind_eq_some_iff.mp got
  obtain ⟨⟨later, final⟩, others, same⟩ := Option.map_eq_some_iff.mp rest
  cases same
  exact ⟨value, between, later, first, others, rfl⟩

theorem getAll_int (deserializer : CborDeserializer Value) (t : Int32) (targets : List Field) :
    deserializer.getAll tiny (.int t :: targets) =
      ((deserializer.getInt tiny t).2.getAll tiny targets).map fun rest =>
        (.int (deserializer.getInt tiny t).1 :: rest.1, rest.2) := rfl

theorem getAll_string (deserializer : CborDeserializer Value) (t : Bytes)
    (targets : List Field) :
    deserializer.getAll tiny (.string t :: targets) =
      (deserializer.getString tiny t).bind fun got =>
        (got.2.getAll tiny targets).map fun rest => (.string got.1 :: rest.1, rest.2) := by
  rw [getAll, get, Option.bind_map]
  rfl

theorem getAll_bytes (deserializer : CborDeserializer Value) (t : Bytes) (targets : List Field) :
    deserializer.getAll tiny (.bytes t :: targets) =
      (deserializer.getBytes tiny t).bind fun got =>
        (got.2.getAll tiny targets).map fun rest => (.bytes got.1 :: rest.1, rest.2) := by
  rw [getAll, get, Option.bind_map]
  rfl

end CborDeserializer

/-! ### Reading the bytes -/

/-- An element of a kind. -/
def Kind.fits : Kind → Element → Bool
  | .int, element | .int64, element => element.isInt
  | .uint64, element => element.isUnsigned
  | .string, element => element.isText
  | .bytes, element => element.isBytes

/-- The value of a kind that an element holds. An integer is converted, and a text string ends at
its first NUL. -/
def Kind.take : Kind → Element → Option Field
  | .int, .int number _ => some (.int (Int32.ofInt number))
  | .int64, .int number _ => some (.int64 (Int64.ofInt number))
  | .uint64, .int (.ofNat number) _ => some (.uint64 (UInt64.ofNat number))
  | .string, .text (some (body, _)) => some (.string (cString body))
  | .bytes, .bytes (some (body, _)) => some (.bytes body)
  | _, _ => none

/-- Read a value of a kind, and move on. -/
def read (kind : Kind) (cursor : Cursor) : Option (Field × Cursor) :=
  (kind.take cursor.element).bind fun value => cursor.next.map fun after => (value, after)

/-- Read values of a list of kinds. -/
def readAll : List Kind → Cursor → Option (List Field × Cursor)
  | [], cursor => some ([], cursor)
  | kind :: kinds, cursor =>
      (read kind cursor).bind fun first =>
        (readAll kinds first.2).map fun rest => (first.1 :: rest.1, rest.2)

theorem readAll_cons {kind : Kind} {kinds : List Kind} {cursor between last : Cursor}
    {value : Field} {later : List Field} (first : read kind cursor = some (value, between))
    (rest : readAll kinds between = some (later, last)) :
    readAll (kind :: kinds) cursor = some (value :: later, last) := by
  rw [readAll, first, Option.bind_some, rest, Option.map_some]

theorem of_readAll_cons {kind : Kind} {kinds : List Kind} {cursor last : Cursor}
    {values : List Field} (found : readAll (kind :: kinds) cursor = some (values, last)) :
    ∃ value between later, read kind cursor = some (value, between) ∧
      readAll kinds between = some (later, last) ∧ values = value :: later := by
  obtain ⟨⟨value, between⟩, first, rest⟩ := Option.bind_eq_some_iff.mp found
  obtain ⟨⟨later, final⟩, others, same⟩ := Option.map_eq_some_iff.mp rest
  cases same
  exact ⟨value, between, later, first, others, rfl⟩

/-- An integer is taken from an integer. -/
theorem Kind.take_int {element : Element} {value : Field}
    (taken : Kind.int.take element = some value) :
    ∃ number rest, element = .int number rest ∧ value = .int (Int32.ofInt number) := by
  cases element with
  | int number rest => exact ⟨number, rest, rfl, (Option.some.inj taken).symm⟩
  | _ => cases taken

theorem Kind.take_int64 {element : Element} {value : Field}
    (taken : Kind.int64.take element = some value) :
    ∃ number rest, element = .int number rest ∧ value = .int64 (Int64.ofInt number) := by
  cases element with
  | int number rest => exact ⟨number, rest, rfl, (Option.some.inj taken).symm⟩
  | _ => cases taken

/-- An unsigned integer is taken from an integer that is not negative. -/
theorem Kind.take_uint64 {element : Element} {value : Field}
    (taken : Kind.uint64.take element = some value) :
    ∃ (number : Nat) (rest : Bytes),
      element = .int number rest ∧ value = .uint64 (UInt64.ofNat number) := by
  cases element with
  | int number rest =>
    cases number with
    | ofNat number => exact ⟨number, rest, rfl, (Option.some.inj taken).symm⟩
    | negSucc number => cases taken
  | _ => cases taken

/-- A string is taken from a text string that is there completely. -/
theorem Kind.take_string {element : Element} {value : Field}
    (taken : Kind.string.take element = some value) :
    ∃ body rest, element = .text (some (body, rest)) ∧ value = .string (cString body) := by
  cases element with
  | text content =>
    cases content with
    | none => cases taken
    | some content => exact ⟨content.1, content.2, rfl, (Option.some.inj taken).symm⟩
  | _ => cases taken

theorem Kind.take_bytes {element : Element} {value : Field}
    (taken : Kind.bytes.take element = some value) :
    ∃ body rest, element = .bytes (some (body, rest)) ∧ value = .bytes body := by
  cases element with
  | bytes content =>
    cases content with
    | none => cases taken
    | some content => exact ⟨content.1, content.2, rfl, (Option.some.inj taken).symm⟩
  | _ => cases taken

/-- A value that is taken comes from an element of its kind, after which the reader can move
on. -/
theorem Kind.fits_of_take {kind : Kind} {element : Element} {value : Field}
    (taken : kind.take element = some value) :
    kind.fits element = true ∧ element.usable = true ∧ element.next ≠ none := by
  cases kind with
  | int =>
    obtain ⟨number, rest, rfl, -⟩ := Kind.take_int taken
    exact ⟨rfl, rfl, nofun⟩
  | int64 =>
    obtain ⟨number, rest, rfl, -⟩ := Kind.take_int64 taken
    exact ⟨rfl, rfl, nofun⟩
  | uint64 =>
    obtain ⟨number, rest, rfl, -⟩ := Kind.take_uint64 taken
    exact ⟨decide_eq_true (Int.natCast_nonneg number), rfl, nofun⟩
  | string =>
    obtain ⟨body, rest, rfl, -⟩ := Kind.take_string taken
    exact ⟨rfl, rfl, nofun⟩
  | bytes =>
    obtain ⟨body, rest, rfl, -⟩ := Kind.take_bytes taken
    exact ⟨rfl, rfl, nofun⟩

/-- Nothing is taken from an element of the kind only if it is a string that is not there
completely. -/
theorem Kind.cut_of_fits {kind : Kind} {element : Element} (fits : kind.fits element = true)
    (untaken : kind.take element = none) :
    (kind = .string ∧ element = .text none) ∨ (kind = .bytes ∧ element = .bytes none) := by
  cases kind with
  | int | int64 =>
    cases element with
    | int number rest => cases untaken
    | _ => cases fits
  | uint64 =>
    cases element with
    | int number rest =>
      cases number with
      | ofNat number => cases untaken
      | negSucc number =>
        have positive : 0 ≤ Int.negSucc number := of_decide_eq_true fits
        omega
    | _ => cases fits
  | string =>
    cases element with
    | text content =>
      cases content with
      | none => exact Or.inl ⟨rfl, rfl⟩
      | some content => cases untaken
    | _ => cases fits
  | bytes =>
    cases element with
    | bytes content =>
      cases content with
      | none => exact Or.inr ⟨rfl, rfl⟩
      | some content => cases untaken
    | _ => cases fits

/-- What is read at an element is what is taken from it. -/
theorem take_of_read {kind : Kind} {cursor after : Cursor} {value : Field}
    (found : read kind cursor = some (value, after)) :
    kind.take cursor.element = some value ∧ cursor.next = some after := by
  obtain ⟨taken, isTaken, rest⟩ := Option.bind_eq_some_iff.mp found
  obtain ⟨moved, isNext, same⟩ := Option.map_eq_some_iff.mp rest
  cases same
  exact ⟨isTaken, isNext⟩

theorem read_of_take {kind : Kind} {cursor after : Cursor} {value : Field}
    (taken : kind.take cursor.element = some value) (next : cursor.next = some after) :
    read kind cursor = some (value, after) := by
  rw [read, taken, Option.bind_some, next, Option.map_some]

theorem next_of_complete {cursor : Cursor} (complete : cursor.element.next ≠ none) :
    ∃ after, cursor.next = some after := by
  obtain ⟨rest, isNext⟩ := Option.ne_none_iff_exists'.mp complete
  exact ⟨_, by rw [Cursor.next, isNext, Option.map_some]⟩

theorem read_eq_none_iff {kind : Kind} {cursor : Cursor} :
    read kind cursor = none ↔ kind.take cursor.element = none := by
  constructor
  · intro unread
    by_contra there
    obtain ⟨value, taken⟩ := Option.ne_none_iff_exists'.mp there
    obtain ⟨-, -, complete⟩ := Kind.fits_of_take taken
    obtain ⟨after, next⟩ := next_of_complete complete
    rw [read_of_take taken next] at unread
    cases unread
  · intro untaken
    rw [read, untaken, Option.bind_none]

/-- The reader comes to a text string that is not there completely when the next value it is asked
for is a string. -/
def MeetsCutText (cursor : Cursor) (kinds : List Kind) : Prop :=
  ∃ before after values here, kinds = before ++ Kind.string :: after ∧
    readAll before cursor = some (values, here) ∧ here.element = .text none

theorem meetsCutText_nil {cursor : Cursor} : ¬ MeetsCutText cursor [] := by
  rintro ⟨before, after, -, -, split, -, -⟩
  exact absurd split.symm (List.append_ne_nil_of_right_ne_nil before (List.cons_ne_nil _ after))

theorem meetsCutText_cons {cursor : Cursor} {kind : Kind} {kinds : List Kind} :
    MeetsCutText cursor (kind :: kinds) ↔
      (kind = .string ∧ cursor.element = .text none) ∨
        ∃ value after, read kind cursor = some (value, after) ∧ MeetsCutText after kinds := by
  constructor
  · rintro ⟨before, after, values, here, split, areRead, cut⟩
    cases before with
    | nil =>
      cases areRead
      exact Or.inl ⟨(List.cons.inj split).1, cut⟩
    | cons first before =>
      obtain ⟨rfl, rfl⟩ := List.cons.inj split
      obtain ⟨value, between, later, isRead, laterRead, -⟩ := of_readAll_cons areRead
      exact Or.inr ⟨value, between, isRead, before, after, later, here, rfl, laterRead, cut⟩
  · rintro (⟨rfl, cut⟩ | ⟨value, between, isRead, before, after, values, here, rfl, areRead, cut⟩)
    · exact ⟨[], kinds, [], cursor, rfl, rfl, cut⟩
    · exact ⟨kind :: before, after, value :: values, here, rfl, readAll_cons isRead areRead, cut⟩

/-- What a container that is not too large is. -/
theorem of_enterSmall {bytes : Bytes} {cursor : Cursor}
    (entered : enterSmall bytes = some cursor) :
    Cursor.enter bytes = some cursor ∧
      ∀ count, cursor.remaining = some count → count < 2 ^ 32 - 1 := by
  obtain ⟨isEntered, fits⟩ := Option.filter_eq_some_iff.mp entered
  refine ⟨isEntered, fun count remaining => ?_⟩
  rw [remaining, Option.all_some] at fits
  exact of_decide_eq_true fits

theorem large_of_enterSmall {bytes : Bytes} {cursor : Cursor}
    (entered : Cursor.enter bytes = some cursor) (outside : enterSmall bytes = none) :
    ∃ count, cursor.remaining = some count ∧ 2 ^ 32 - 1 ≤ count := by
  by_contra none
  rw [enterSmall_of_small entered] at outside
  · cases outside
  · intro count remaining
    by_contra large
    exact none ⟨count, remaining, not_lt.mp large⟩

/-! ### What a call does -/

section

variable {Value : Type} {tiny : TinyCborDecoder Value}
  {deserializer : CborDeserializer Value} {cursor : Cursor}

/-- The test of the type that a call makes. -/
def Kind.test (tiny : TinyCborDecoder Value) : Kind → Value → Bool
  | .int | .int64 => tiny.isInteger
  | .uint64 => tiny.isUnsignedInteger
  | .string => tiny.isTextString
  | .bytes => tiny.isByteString

/-- The function that a call moves on with. -/
def Kind.move (tiny : TinyCborDecoder Value) : Kind → Value → CborError × Value
  | .int | .uint64 => tiny.advanceFixed
  | .int64 | .string | .bytes => tiny.advance

variable (tiny) in
theorem Kind.test_eq (kind : Kind) {value : Value}
    (usable : (tiny.view value).element.usable = true) :
    kind.test tiny value = kind.fits (tiny.view value).element := by
  cases kind with
  | int | int64 => exact tiny.isInteger_eq value usable
  | uint64 => exact tiny.isUnsignedInteger_eq value usable
  | string => exact tiny.isTextString_eq value usable
  | bytes => exact tiny.isByteString_eq value usable

/-- What a kind moves on with moves to the next element. -/
theorem Kind.move_reached {kind : Kind} {after : Cursor} {value : Field} {it : Value}
    (taken : kind.take (tiny.view it).element = some value)
    (next : (tiny.view it).next = some after) :
    MovesTo tiny.view after (kind.move tiny it).1 (kind.move tiny it).2 := by
  cases kind with
  | int64 | string | bytes => exact tiny.advance_next it after next
  | int =>
    obtain ⟨number, rest, element, -⟩ := Kind.take_int taken
    exact tiny.advanceFixed_next it number rest after element next
  | uint64 =>
    obtain ⟨number, rest, element, -⟩ := Kind.take_uint64 taken
    exact tiny.advanceFixed_next it number rest after element next

theorem Kind.move_refuses (rejects : tiny.Rejects) {kind : Kind} {after : Cursor}
    {value : Field} {it : Value} (taken : kind.take (tiny.view it).element = some value)
    (next : (tiny.view it).next = some after) :
    tiny.Refuses after (kind.move tiny it).1 (kind.move tiny it).2 := by
  cases kind with
  | int64 | string | bytes => exact rejects.advance it after next
  | int =>
    obtain ⟨number, rest, element, -⟩ := Kind.take_int taken
    exact rejects.advanceFixed it number rest after element next
  | uint64 =>
    obtain ⟨number, rest, element, -⟩ := Kind.take_uint64 taken
    exact rejects.advanceFixed it number rest after element next

namespace CborDeserializer

/-- At an element that is well formed the test of a call tells whether the element is of its
kind. -/
theorem Reached.test (reached : deserializer.Reached tiny cursor)
    (usable : cursor.element.usable = true) (kind : Kind) :
    kind.test tiny deserializer.it = kind.fits cursor.element := by
  obtain ⟨-, view⟩ := reached.at usable
  have test := kind.test_eq tiny (view.symm ▸ usable)
  rwa [view] at test

/-- A call at an element of its kind takes the value and moves on. -/
theorem get_takes (reached : deserializer.Reached tiny cursor) {target value : Field}
    (taken : target.kind.take cursor.element = some value) :
    deserializer.get tiny target =
      some (value, deserializer.advanced (target.kind.move tiny deserializer.it)) := by
  obtain ⟨fits, usable, -⟩ := Kind.fits_of_take taken
  obtain ⟨noError, view⟩ := reached.at usable
  have test := (reached.test usable target.kind).trans fits
  rw [← view] at taken
  cases target with
  | int t =>
    obtain ⟨number, rest, element, rfl⟩ := Kind.take_int taken
    have got := tiny.getInt_eq deserializer.it number rest element
    have test : tiny.isInteger deserializer.it = true := test
    rw [get, getInt_eq_getNumber, getNumber_takes noError test got]
    rfl
  | int64 t =>
    obtain ⟨number, rest, element, rfl⟩ := Kind.take_int64 taken
    have got := tiny.getInt64_eq deserializer.it number rest element
    have test : tiny.isInteger deserializer.it = true := test
    rw [get, getInt64, getNumber_takes noError test got]
    rfl
  | uint64 t =>
    obtain ⟨number, rest, element, rfl⟩ := Kind.take_uint64 taken
    have got := tiny.getUint64_eq deserializer.it number rest element
    have test : tiny.isUnsignedInteger deserializer.it = true := test
    rw [get, getUInt64, getNumber_takes noError test got]
    rfl
  | string t =>
    obtain ⟨body, rest, element, rfl⟩ := Kind.take_string taken
    have duplicated := tiny.dupTextString_eq deserializer.it body rest element
    rw [get, getString_takes noError test duplicated]
    rfl
  | bytes t =>
    obtain ⟨body, rest, element, rfl⟩ := Kind.take_bytes taken
    have duplicated := tiny.dupByteString_eq deserializer.it body rest element
    have length := (tiny.calculateStringLength_bytes deserializer.it (some (body, rest))
      element).mpr (Option.some_ne_none _)
    rw [get, getBytes_takes noError test length duplicated]
    rfl

/-- A call whose test fails leaves its target alone, and duplicates no string. -/
theorem get_refused {target : Field}
    (refused : ¬ (deserializer.err = .noError ∧
      target.kind.test tiny deserializer.it = true)) :
    deserializer.get tiny target = some (target, deserializer.illegal) ∧
      deserializer.duplicate tiny target = none := by
  cases target with
  | int t =>
    have refused : ¬ (deserializer.err = .noError ∧ tiny.isInteger deserializer.it = true) :=
      refused
    rw [get, getInt_eq_getNumber, getNumber_refused refused]
    exact ⟨rfl, rfl⟩
  | int64 t =>
    have refused : ¬ (deserializer.err = .noError ∧ tiny.isInteger deserializer.it = true) :=
      refused
    rw [get, getInt64, getNumber_refused refused]
    exact ⟨rfl, rfl⟩
  | uint64 t =>
    have refused : ¬ (deserializer.err = .noError ∧
        tiny.isUnsignedInteger deserializer.it = true) := refused
    rw [get, getUInt64, getNumber_refused refused]
    exact ⟨rfl, rfl⟩
  | string t =>
    rw [get, getString_refused refused]
    exact ⟨rfl, if_neg refused⟩
  | bytes t =>
    rw [get, getBytes_refused fun both => refused ⟨both.1, both.2.1⟩]
    exact ⟨rfl, if_neg fun both => refused ⟨both.1, both.2.1⟩⟩

/-- A call that takes a value moves to the next element. -/
theorem Reached.advanced (reached : deserializer.Reached tiny cursor) {kind : Kind}
    {value : Field} {after : Cursor} (taken : kind.take cursor.element = some value)
    (next : cursor.next = some after) :
    (deserializer.advanced (kind.move tiny deserializer.it)).Reached tiny after := by
  obtain ⟨-, usable, -⟩ := Kind.fits_of_take taken
  obtain ⟨-, view⟩ := reached.at usable
  rw [← view] at taken next
  exact Kind.move_reached taken next

/-- Calls at elements of their kinds take the values. -/
theorem getAll_takes {targets values : List Field} {after : Cursor}
    (reached : deserializer.Reached tiny cursor)
    (found : readAll (targets.map Field.kind) cursor = some (values, after)) :
    ∃ moved, deserializer.getAll tiny targets = some (values, moved) ∧
      moved.Reached tiny after := by
  induction targets generalizing deserializer cursor values with
  | nil =>
    cases found
    exact ⟨deserializer, rfl, reached⟩
  | cons target targets inductionHypothesis =>
    obtain ⟨value, between, later, isRead, areRead, rfl⟩ := of_readAll_cons found
    obtain ⟨taken, next⟩ := take_of_read isRead
    obtain ⟨moved, got, final⟩ := inductionHypothesis (reached.advanced taken next) areRead
    exact ⟨moved, getAll_cons (get_takes reached taken) got, final⟩

/-! ### Malformed input -/

/-- A call is safe if it has a result, so that no pointer was read that is not set, and if it
leaves its target alone and reports failure where a string could not be duplicated. -/
def CallSafe (tiny : TinyCborDecoder Value) (deserializer : CborDeserializer Value)
    (target : Field) : Prop :=
  ∃ got after, deserializer.get tiny target = some (got, after) ∧
    ∀ duplicated, deserializer.duplicate tiny target = some duplicated →
      duplicated.1 ≠ .noError → got = target ∧ after.success = false

/-- A sequence of calls is safe if each of them is. -/
def RunSafe (tiny : TinyCborDecoder Value) : CborDeserializer Value → List Field → Prop
  | _, [] => True
  | deserializer, target :: targets =>
      CallSafe tiny deserializer target ∧
        ∀ got after, deserializer.get tiny target = some (got, after) →
          RunSafe tiny after targets

/-- The deserializer is at an element, and has an error if the element is not well formed. -/
structure At (tiny : TinyCborDecoder Value) (deserializer : CborDeserializer Value)
    (cursor : Cursor) : Prop where
  reached : deserializer.Reached tiny cursor
  refuses : tiny.Refuses cursor deserializer.err deserializer.it

theorem At.advanced (rejects : tiny.Rejects) (here : deserializer.At tiny cursor) {kind : Kind}
    {value : Field} {after : Cursor} (taken : kind.take cursor.element = some value)
    (next : cursor.next = some after) :
    (deserializer.advanced (kind.move tiny deserializer.it)).At tiny after := by
  obtain ⟨-, usable, -⟩ := Kind.fits_of_take taken
  obtain ⟨-, view⟩ := here.reached.at usable
  refine ⟨here.reached.advanced taken next, ?_⟩
  exact Kind.move_refuses rejects (by rw [view]; exact taken) (by rw [view]; exact next)

/-- At an element that is not of its kind the test of a call fails, unless there is an error
already. -/
theorem At.refused (here : deserializer.At tiny cursor) {kind : Kind}
    (other : kind.fits cursor.element = false) :
    ¬ (deserializer.err = .noError ∧ kind.test tiny deserializer.it = true) := by
  rintro ⟨noError, test⟩
  cases usable : cursor.element.usable with
  | true =>
    rw [here.reached.test usable kind, other] at test
    cases test
  | false =>
    cases element : cursor.element with
    | broken => exact here.reached.1 element noError
    | malformed => exact here.refuses.1 element noError
    | unpaired =>
      rcases here.refuses.2 element with failed | ⟨noInteger, noUnsigned, noText, noBytes⟩
      · exact failed noError
      · cases kind with
        | int | int64 => exact absurd (noInteger.symm.trans test) Bool.false_ne_true
        | uint64 => exact absurd (noUnsigned.symm.trans test) Bool.false_ne_true
        | string => exact absurd (noText.symm.trans test) Bool.false_ne_true
        | bytes => exact absurd (noBytes.symm.trans test) Bool.false_ne_true
    | int _ _ | bytes _ | text _ | other | stop =>
      rw [element] at usable
      cases usable

/-- A call that takes a value is safe: a string that is there completely is duplicated. -/
theorem callSafe_of_take (reached : deserializer.Reached tiny cursor) {target value : Field}
    (taken : target.kind.take cursor.element = some value) : CallSafe tiny deserializer target := by
  refine ⟨value, _, get_takes reached taken, fun duplicated isDuplicated failed => ?_⟩
  obtain ⟨-, usable, -⟩ := Kind.fits_of_take taken
  obtain ⟨-, view⟩ := reached.at usable
  rw [← view] at taken
  cases target with
  | int t | int64 t | uint64 t => cases isDuplicated
  | string t =>
    obtain ⟨body, rest, element, -⟩ := Kind.take_string taken
    rw [duplicate] at isDuplicated
    split at isDuplicated
    · cases isDuplicated
      rw [tiny.dupTextString_eq deserializer.it body rest element] at failed
      exact absurd rfl failed
    · cases isDuplicated
  | bytes t =>
    obtain ⟨body, rest, element, -⟩ := Kind.take_bytes taken
    rw [duplicate] at isDuplicated
    split at isDuplicated
    · cases isDuplicated
      rw [tiny.dupByteString_eq deserializer.it body rest element] at failed
      exact absurd rfl failed
    · cases isDuplicated

/-- A call that takes no value leaves its target alone and duplicates no string, unless it is at a
text string that is not there completely. -/
theorem At.untaken (here : deserializer.At tiny cursor) {target : Field}
    (untaken : target.kind.take cursor.element = none)
    (notCut : ¬ (target.kind = .string ∧ cursor.element = .text none)) :
    deserializer.get tiny target = some (target, deserializer.illegal) ∧
      deserializer.duplicate tiny target = none := by
  cases fits : target.kind.fits cursor.element with
  | false => exact get_refused (here.refused fits)
  | true =>
    rcases Kind.cut_of_fits fits untaken with text | ⟨kind, element⟩
    · exact absurd text notCut
    · obtain ⟨-, view⟩ := here.reached.at (by rw [element]; rfl)
      have noLength : (tiny.calculateStringLength deserializer.it).1 ≠ .noError := by
        intro length
        exact (tiny.calculateStringLength_bytes deserializer.it none (by rw [view, element])).mp
          length rfl
      cases target with
      | bytes t =>
        rw [get, getBytes_of_cut here.reached element]
        exact ⟨rfl, if_neg fun all => noLength all.2.2⟩
      | _ => cases kind

/-- After an error every call is safe. -/
theorem runSafe_of_err (failed : deserializer.err ≠ .noError) (targets : List Field) :
    RunSafe tiny deserializer targets := by
  induction targets generalizing deserializer with
  | nil => exact trivial
  | cons target targets inductionHypothesis =>
    have refused : ¬ (deserializer.err = .noError ∧
        target.kind.test tiny deserializer.it = true) := fun both => failed both.1
    obtain ⟨got, noDuplicate⟩ := get_refused refused
    refine ⟨⟨target, _, got, fun duplicated isDuplicated => ?_⟩, fun value after gotAfter => ?_⟩
    · rw [noDuplicate] at isDuplicated
      cases isDuplicated
    · rw [got] at gotAfter
      cases gotAfter
      exact inductionHypothesis deserializer.illegal_err

/-- Calls are safe unless one of them comes to a text string that is not there completely. -/
theorem At.runSafe_iff (rejects : tiny.Rejects) (here : deserializer.At tiny cursor)
    (targets : List Field) :
    RunSafe tiny deserializer targets ↔ ¬ MeetsCutText cursor (targets.map Field.kind) := by
  induction targets generalizing deserializer cursor with
  | nil => exact ⟨fun _ meets => meetsCutText_nil meets, fun _ => trivial⟩
  | cons target targets inductionHypothesis =>
    rw [List.map_cons, meetsCutText_cons, not_or]
    cases taken : target.kind.take cursor.element with
    | some value =>
      obtain ⟨-, -, complete⟩ := Kind.fits_of_take taken
      obtain ⟨after, next⟩ := next_of_complete complete
      have moved := here.advanced rejects taken next
      have isRead := read_of_take taken next
      have got := get_takes here.reached taken
      constructor
      · rintro ⟨-, later⟩
        refine ⟨?_, ?_⟩
        · rintro ⟨kind, cut⟩
          rw [kind, cut] at taken
          cases taken
        · rintro ⟨other, next, otherRead, meets⟩
          rw [isRead] at otherRead
          cases otherRead
          exact (inductionHypothesis moved).mp (later _ _ got) meets
      · rintro ⟨-, unmet⟩
        refine ⟨callSafe_of_take here.reached taken, fun other next otherGot => ?_⟩
        rw [got] at otherGot
        cases otherGot
        exact (inductionHypothesis moved).mpr fun meets => unmet ⟨value, after, isRead, meets⟩
    | none =>
      have unread := read_eq_none_iff.mpr taken
      have nothing : ¬ ∃ value after, read target.kind cursor = some (value, after) ∧
          MeetsCutText after (targets.map Field.kind) := by
        rintro ⟨value, after, isRead, -⟩
        rw [unread] at isRead
        cases isRead
      constructor
      · rintro ⟨⟨got, after, result, -⟩, -⟩
        refine ⟨?_, nothing⟩
        rintro ⟨kind, cut⟩
        cases target with
        | string t =>
          rw [get, getString_of_cut here.reached cut] at result
          cases result
        | _ => cases kind
      · rintro ⟨notCut, -⟩
        obtain ⟨got, noDuplicate⟩ := here.untaken taken notCut
        refine ⟨⟨target, _, got, fun duplicated isDuplicated => ?_⟩, fun value after gotAfter => ?_⟩
        · rw [noDuplicate] at isDuplicated
          cases isDuplicated
        · rw [got] at gotAfter
          cases gotAfter
          exact runSafe_of_err deserializer.illegal_err targets

/-! ### Calls that succeed -/

/-- A call that succeeds was made without an error. -/
theorem err_of_get {target value : Field} {after : CborDeserializer Value}
    (got : deserializer.get tiny target = some (value, after)) (noError : after.err = .noError) :
    deserializer.err = .noError := by
  by_contra failed
  have refused : ¬ (deserializer.err = .noError ∧
      target.kind.test tiny deserializer.it = true) := fun both => failed both.1
  rw [(get_refused refused).1] at got
  cases got
  exact deserializer.illegal_err noError

theorem err_of_getAll {targets values : List Field} {after : CborDeserializer Value}
    (got : deserializer.getAll tiny targets = some (values, after))
    (noError : after.err = .noError) : deserializer.err = .noError := by
  induction targets generalizing deserializer values with
  | nil =>
    cases got
    exact noError
  | cons target targets inductionHypothesis =>
    obtain ⟨value, between, later, gotFirst, gotRest, -⟩ := of_getAll_cons got
    exact err_of_get gotFirst (inductionHypothesis gotRest)

/-- A call that succeeds has read a value of its type. -/
theorem At.get_success (rejects : tiny.Rejects) (here : deserializer.At tiny cursor)
    {target value : Field} {after : CborDeserializer Value}
    (got : deserializer.get tiny target = some (value, after)) (noError : after.err = .noError) :
    ∃ next, read target.kind cursor = some (value, next) ∧ after.At tiny next := by
  cases taken : target.kind.take cursor.element with
  | some found =>
    obtain ⟨-, -, complete⟩ := Kind.fits_of_take taken
    obtain ⟨next, isNext⟩ := next_of_complete complete
    rw [get_takes here.reached taken] at got
    cases got
    exact ⟨next, read_of_take taken isNext, here.advanced rejects taken isNext⟩
  | none =>
    by_cases cut : target.kind = .string ∧ cursor.element = .text none
    · obtain ⟨kind, element⟩ := cut
      cases target with
      | string t =>
        rw [get, getString_of_cut here.reached element] at got
        cases got
      | _ => cases kind
    · rw [(here.untaken taken cut).1] at got
      cases got
      exact absurd noError deserializer.illegal_err

/-- Calls that succeed have read values of their types. -/
theorem At.getAll_success (rejects : tiny.Rejects) (here : deserializer.At tiny cursor)
    {targets values : List Field} {after : CborDeserializer Value}
    (got : deserializer.getAll tiny targets = some (values, after))
    (noError : after.err = .noError) :
    ∃ last, readAll (targets.map Field.kind) cursor = some (values, last) ∧
      after.At tiny last := by
  induction targets generalizing deserializer cursor values with
  | nil =>
    cases got
    exact ⟨cursor, rfl, here⟩
  | cons target targets inductionHypothesis =>
    obtain ⟨value, between, later, gotFirst, gotRest, rfl⟩ := of_getAll_cons got
    obtain ⟨next, isRead, there⟩ :=
      here.get_success rejects gotFirst (err_of_getAll gotRest noError)
    obtain ⟨last, areRead, ends⟩ := inductionHypothesis there gotRest
    exact ⟨last, readAll_cons isRead areRead, ends⟩

/-- Without an error the element is well formed, or the end of a map where a value is due. -/
theorem At.usable_or_unpaired (here : deserializer.At tiny cursor)
    (noError : deserializer.err = .noError) :
    cursor.element.usable = true ∨ cursor.element = .unpaired := by
  cases element : cursor.element with
  | broken => exact absurd noError (here.reached.1 element)
  | malformed => exact absurd noError (here.refuses.1 element)
  | unpaired => exact Or.inr rfl
  | int _ _ | bytes _ | text _ | other | stop => exact Or.inl rfl

/-! ### From the beginning -/

/-- `begin` moves to the first element of a container that is not too large. -/
theorem begin_reached_of_small {bs : Bytes}
    (entered : enterSmall (bs.take deserializer.capacity) = some cursor) :
    ((deserializer.fromBytes bs).begin tiny).Reached tiny cursor := by
  obtain ⟨isEntered, small⟩ := of_enterSmall entered
  exact begin_reached isEntered small

theorem begin_at (rejects : tiny.Rejects) {bs : Bytes}
    (entered : enterSmall (bs.take deserializer.capacity) = some cursor) :
    ((deserializer.fromBytes bs).begin tiny).At tiny cursor := by
  refine ⟨begin_reached_of_small entered, ?_⟩
  obtain ⟨isEntered, small⟩ := of_enterSmall entered
  unfold begin
  rw [buffer_fromBytes]
  dsimp only
  rw [if_pos (tiny.isContainer_root _ _ isEntered)]
  exact rejects.enter _ _ isEntered small

/-- `begin` fails on anything else. -/
theorem begin_failed (rejects : tiny.Rejects) {bs : Bytes}
    (outside : enterSmall (bs.take deserializer.capacity) = none) :
    ((deserializer.fromBytes bs).begin tiny).err ≠ .noError := by
  unfold begin
  rw [buffer_fromBytes]
  dsimp only
  split
  · rename_i container
    cases entered : Cursor.enter (bs.take deserializer.capacity) with
    | none =>
      rcases tiny.enter_other _ entered with noContainer | failed
      · rw [noContainer] at container
        cases container
      · exact failed
    | some cursor =>
      obtain ⟨count, remaining, large⟩ := large_of_enterSmall entered outside
      exact rejects.enterLarge _ cursor count entered remaining large
  · nofun

end CborDeserializer

/-- Every sequence of calls on any bytes is safe, unless one of the calls comes to a text string
that is not there completely. -/
theorem get_safe_iff (rejects : tiny.Rejects) (deserializer : CborDeserializer Value)
    (bs : Bytes) (targets : List Field) :
    CborDeserializer.RunSafe tiny ((deserializer.fromBytes bs).begin tiny) targets ↔
      ¬ ∃ first, enterSmall (bs.take deserializer.capacity) = some first ∧
        MeetsCutText first (targets.map Field.kind) := by
  cases entered : enterSmall (bs.take deserializer.capacity) with
  | none =>
    refine ⟨?_, fun _ => ?_⟩
    · rintro - ⟨first, isEntered, -⟩
      cases isEntered
    · exact CborDeserializer.runSafe_of_err (CborDeserializer.begin_failed rejects entered) targets
  | some first =>
    rw [(CborDeserializer.begin_at rejects entered).runSafe_iff rejects targets]
    refine not_congr ⟨fun meets => ⟨first, rfl, meets⟩, ?_⟩
    rintro ⟨other, same, meets⟩
    cases same
    exact meets

end

/-- A byte string that is not there completely is refused. -/
theorem get_safe_cut_bytes :
    CborDeserializer.RunSafe referenceDecoder
      (((constructed 1024).fromBytes [0x9F, 0x42, 0x61]).begin referenceDecoder) [.bytes []] := by
  refine (get_safe_iff referenceDecoder_rejects (constructed 1024) [0x9F, 0x42, 0x61]
    [.bytes []]).mpr ?_
  rintro ⟨first, -, meets⟩
  rcases meetsCutText_cons.mp meets with ⟨kind, -⟩ | ⟨value, after, -, meets⟩
  · cases kind
  · exact meetsCutText_nil meets

/-- The first bytes of a publication whose topic has two characters, of which one is missing: the
second call reads a pointer that was never set. -/
theorem get_unsafe_cut_text :
    ¬ CborDeserializer.RunSafe referenceDecoder
      (((constructed 1024).fromBytes [0x9F, 0x00, 0x62, 0x61]).begin referenceDecoder)
      [.int 0, .string []] := by
  rintro ⟨-, later⟩
  obtain ⟨⟨got, after, result, -⟩, -⟩ := later (.int 0) _ rfl
  cases result

end BrokerProxy.Codec
