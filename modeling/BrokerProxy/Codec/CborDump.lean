/-
This file models `cborDump` and `dumpCborRecursive`, which write a message as text into a
string stream that all calls share, and compares what they write for an integer with its
decimal notation.

A negative integer is read as its magnitude less one; the code adds the one and writes the
sum as a signed number, without a sign of its own. So the text of a negative integer is
that of its magnitude, or of something else where the magnitude does not fit. And a dump
of a half-precision number leaves the stream writing hexadecimal for good.
-/

import BrokerProxy.Codec.StringStream
import BrokerProxy.Codec.TinyCborIterator
import BrokerProxy.Redis.ReplyStream

namespace BrokerProxy.Codec

open Cbor (Cursor DifferIn Items ContainerKind Reads)
open Numerals
open Redis (ascii)

variable {Value Stream : Type} (tiny : TinyCborIterator Value) (etl : StringStream Stream)

/-! ### The code -/

/-- `hexDump`, whose spacer is a blank here. -/
def hexDump (bs : Bytes) : Bytes :=
  let hexDigit : Nat → UInt8 := fun digit =>
    UInt8.ofNat (if digit < 10 then 0x30 + digit else 0x37 + digit)
  bs.flatMap fun b => [hexDigit (b.toNat / 16), hexDigit (b.toNat % 16), 0x20]

/-- `indent`. -/
def indent (ss : Stream) : Nat → Stream
  | 0 => ss
  | nestingLevel + 1 => indent (etl.put ss (ascii " ")) nestingLevel

/-- What a branch does with the result of a function: `CBOR_CHECK`, and what it writes. -/
def check {Result : Type} (got : CborError × Result) (ss : Stream) (write : Result → Stream) :
    CborError × Stream :=
  if got.1 = .noError then (.noError, write got.2) else (got.1, ss)

/-- The branch of an integer. -/
def dumpInteger (ss : Stream) (it : Value) : CborError × Stream :=
  check (tiny.getRawInteger it) ss fun val =>
    if tiny.isUnsignedInteger it then etl.putUint64 ss val
    else if val + 1 ≠ 0 then etl.putInt64 ss (val + 1).toInt64
    else etl.putInt64 ss (-1234567890123456)

/-- The branches whose value is of a fixed size. -/
def dumpFixed (type : CborType) (ss : Stream) (it : Value) : CborError × Stream :=
  match type with
  | .integer => dumpInteger tiny etl ss it
  | .tag =>
      check (tiny.getTag it) ss fun tag =>
        etl.put (etl.putInt64 (etl.put ss (ascii "Tag(")) tag.toInt64) (ascii ")")
  | .simple =>
      check (tiny.getSimpleType it) ss fun type =>
        etl.put (etl.putUint8 (etl.put ss (ascii "simple(")) type) (ascii ")")
  | .null => (.noError, etl.put ss (ascii "null"))
  | .undefined => (.noError, etl.put ss (ascii "undefined"))
  | .boolean =>
      check (tiny.getBoolean it) ss fun val =>
        etl.put ss (if val then ascii "true" else ascii "false")
  | .halfFloat =>
      check (tiny.getHalfFloat it) ss fun val =>
        etl.put (etl.putUint16 (etl.hex (etl.put ss (ascii "__f16("))) val) (ascii ")")
  | .float => check (tiny.getFloat it) ss (etl.putFloat ss)
  | .double => check (tiny.getDouble it) ss fun val => etl.put (etl.putDouble ss val) (ascii ",")
  | _ => (.unknownType, ss)

/-- How a call ends, or a turn of its loop: the error, the iterator and the stream. -/
abbrev Dumped (Value Stream : Type) := CborError × Value × Stream

/-- The branch of a container, given the call for its content. -/
def dumpContainer (opening closing : Bytes)
    (recurse : Stream → Value → Option (Dumped Value Stream)) (ss : Stream) (it : Value)
    (nestingLevel : Nat) : Option (Dumped Value Stream) :=
  let opened := etl.put ss opening
  let entered := tiny.enterContainer it
  if entered.1 ≠ .noError then some (entered.1, it, opened)
  else
    (recurse opened entered.2).map fun dumped =>
      if dumped.1 ≠ .noError then (dumped.1, it, dumped.2.2)
      else
        let left := tiny.leaveContainer it dumped.2.1
        if left.1 ≠ .noError then (left.1, left.2, dumped.2.2)
        else (.noError, left.2, etl.put (indent etl dumped.2.2 nestingLevel) closing)

/-- The branch of a string, given what is written in front of its content and after it. -/
def dumpString (opening : Bytes) (content : Bytes → Bytes) (got : CborError × Bytes × Value)
    (ss : Stream) (it : Value) : Dumped Value Stream :=
  if got.1 ≠ .noError then (got.1, it, ss)
  else (.noError, got.2.2, etl.put (etl.put (etl.put ss opening) (content got.2.1)) (ascii "'"))

/-- One element, from its type on. -/
def dumpElement (recurse : Stream → Value → Option (Dumped Value Stream)) (ss : Stream)
    (it : Value) (nestingLevel : Nat) : Option (Dumped Value Stream) :=
  match tiny.getType it with
  | .array => dumpContainer tiny etl (ascii "Array[") (ascii "]") recurse ss it nestingLevel
  | .map => dumpContainer tiny etl (ascii "Map\x7b") (ascii "\x7d") recurse ss it nestingLevel
  | .byteString => some (dumpString etl (ascii "h'") hexDump (tiny.dupByteString it) ss it)
  | .textString => some (dumpString etl (ascii "'") cString (tiny.dupTextString it) ss it)
  | type =>
      let printed := dumpFixed tiny etl type ss it
      if printed.1 ≠ .noError then some (printed.1, it, printed.2)
      else
        let advanced := tiny.advanceFixed it
        some (advanced.1, advanced.2, printed.2)

/-- The loop of `dumpCborRecursive`, with a bound on its turns and on the depth of the calls:
nothing if it has not ended by then. -/
def dumpLoop : Nat → Bool → Stream → Value → Nat → Option (Dumped Value Stream)
  | 0, _, _, _, _ => none
  | fuel + 1, first, ss, it, nestingLevel =>
      if tiny.atEnd it then some (.noError, it, ss)
      else
        let indented := indent etl ss nestingLevel
        let separated := if first then indented else etl.put indented (ascii ",")
        (dumpElement tiny etl (fun ss recursed => dumpLoop fuel true ss recursed (nestingLevel + 1))
            separated it nestingLevel).bind fun dumped =>
          if dumped.1 ≠ .noError then some dumped
          else dumpLoop fuel false dumped.2.2 dumped.2.1 nestingLevel

/-- `dumpCborRecursive`. -/
def dumpCborRecursive (fuel : Nat) (ss : Stream) (it : Value) (nestingLevel : Nat) :
    Option (Dumped Value Stream) :=
  dumpLoop tiny etl fuel true ss it nestingLevel

/-- `cborDump`, given the stream that the calls share: its result and the stream afterwards. -/
def cborDump (fuel : Nat) (ss : Stream) (bs : Bytes) : Option (Bytes × Stream) :=
  (dumpCborRecursive tiny etl fuel (etl.clear ss) (tiny.parserInit bs).2 0).map fun dumped =>
    (cString (etl.text dumped.2.2), dumped.2.2)

/-! ### The text of integers, arrays and maps -/

/-- What is written in front of the content of a container. -/
def opening : ContainerKind → Bytes
  | .array => ascii "Array["
  | .map => ascii "Map\x7b"

/-- What is written after it. -/
def closing : ContainerKind → Bytes
  | .array => ascii "]"
  | .map => ascii "\x7d"

/-- What is written in front of an element. -/
def lead (nestingLevel : Nat) (first : Bool) : Bytes :=
  List.replicate nestingLevel 0x20 ++ if first then [] else ascii ","

/-- The text of a sequence of items, given the text of an integer. -/
def dumpText (number : Int → Bytes) : Nat → Bool → Items → Bytes
  | _, _, .done => []
  | nestingLevel, first, .int value after =>
      lead nestingLevel first ++ (number value ++ dumpText number nestingLevel false after)
  | nestingLevel, first, .container kind content after =>
      lead nestingLevel first ++ (opening kind ++
        (dumpText number (nestingLevel + 1) true content ++
          (List.replicate nestingLevel 0x20 ++ (closing kind ++
            dumpText number nestingLevel false after))))

/-- The number that the code puts into the stream for an integer: its two's complement sum for
a negative one. -/
def streamed (value : Int) : Int :=
  if 0 ≤ value then value
  else if value = -2 ^ 64 then -1234567890123456
  else if -2 ^ 63 < value then -value
  else -value - 2 ^ 64

/-- The text that the code writes for an integer. -/
def dumpedNumber (base : Base) (value : Int) : Bytes :=
  numberText base etl.hexSigns (streamed value)

/-- The turns and calls that a sequence of items takes. -/
def turns : Items → Nat
  | .done => 1
  | .int _ after => turns after + 1
  | .container _ content after => max (turns content) (turns after) + 1

/-! ### Appending -/

/-- A stream has appended a text and kept its base. -/
structure Appended (ss : Stream) (added : Bytes) (after : Stream) : Prop where
  text : etl.text after = etl.text ss ++ added
  base : etl.base after = etl.base ss

variable {tiny etl}

/-- There is room for a text in the string. -/
def Fits (etl : StringStream Stream) (ss : Stream) (added : Bytes) : Prop :=
  (etl.text ss ++ added).length ≤ 1024

theorem Appended.put {ss : Stream} {added : Bytes} (fits : Fits etl ss added) :
    Appended etl ss added (etl.put ss added) where
  text := etl.text_put ss added fits
  base := etl.base_put ss added

theorem Appended.refl (ss : Stream) : Appended etl ss [] ss where
  text := (List.append_nil _).symm
  base := rfl

theorem Appended.trans {ss middle after : Stream} {first second : Bytes}
    (one : Appended etl ss first middle) (two : Appended etl middle second after) :
    Appended etl ss (first ++ second) after where
  text := by rw [two.text, one.text, List.append_assoc]
  base := two.base.trans one.base

theorem Fits.of_append {ss : Stream} {first second : Bytes} (fits : Fits etl ss (first ++ second)) :
    Fits etl ss first := by
  unfold Fits at fits ⊢
  rw [List.length_append, List.length_append] at fits
  rw [List.length_append]
  omega

theorem Fits.after {ss middle : Stream} {first second : Bytes}
    (fits : Fits etl ss (first ++ second)) (appended : Appended etl ss first middle) :
    Fits etl middle second := by
  unfold Fits at fits ⊢
  rwa [appended.text, List.append_assoc]

theorem Appended.indent : ∀ (nestingLevel : Nat) {ss : Stream},
    Fits etl ss (List.replicate nestingLevel 0x20) →
      Appended etl ss (List.replicate nestingLevel 0x20) (indent etl ss nestingLevel) := by
  intro nestingLevel
  induction nestingLevel with
  | zero => exact fun {ss} _ => .refl ss
  | succ nestingLevel inductionHypothesis =>
    intro ss fits
    rw [List.replicate_succ, ← List.singleton_append] at fits ⊢
    have blank : Appended etl ss [0x20] (etl.put ss (ascii " ")) := .put fits.of_append
    exact blank.trans (inductionHypothesis (fits.after blank))

/-- The blanks and the comma in front of an element. -/
theorem Appended.lead {nestingLevel : Nat} {first : Bool} {ss : Stream}
    (fits : Fits etl ss (lead nestingLevel first)) :
    Appended etl ss (lead nestingLevel first)
      (if first then Codec.indent etl ss nestingLevel
        else etl.put (Codec.indent etl ss nestingLevel) (ascii ",")) := by
  have blanks := Appended.indent nestingLevel (fits.of_append)
  cases first with
  | true => exact blanks.trans (.refl _)
  | false => exact blanks.trans (.put (fits.after blanks))

/-! ### An integer -/

theorem ofNat_succ_ne_zero_iff {value : Nat} (small : value < 2 ^ 64) :
    UInt64.ofNat value + 1 ≠ 0 ↔ value + 1 ≠ 2 ^ 64 := by
  have sum : (UInt64.ofNat value + 1).toNat = (value + 1) % 2 ^ 64 := by
    rw [UInt64.toNat_add, UInt64.toNat_ofNat_of_lt' small]
    rfl
  rw [ne_eq, ne_eq, ← UInt64.toNat_inj, sum]
  show ¬ (value + 1) % 2 ^ 64 = 0 ↔ _
  omega

theorem toInt_ofNat_succ (value : Nat) :
    (UInt64.ofNat value + 1).toInt64.toInt = ((value + 1 : Nat) : Int).bmod (2 ^ 64) := by
  rw [show UInt64.ofNat value + 1 = UInt64.ofNat (value + 1) from (UInt64.ofNat_add value 1).symm,
    UInt64.toInt64_ofNat', Int64.toInt_ofNat']
  rfl

theorem streamed_negSucc {value : Nat} (small : value < 2 ^ 64) (fewer : value + 1 ≠ 2 ^ 64) :
    streamed (.negSucc value) = (UInt64.ofNat value + 1).toInt64.toInt := by
  unfold streamed
  rw [if_neg (by omega), if_neg (by omega), toInt_ofNat_succ, Int.bmod_def]
  split
  · split
    · omega
    · omega
  · split
    · omega
    · omega

/-- The branch of an integer appends the text of the number that it puts into the stream. -/
theorem dumpInteger_eq {ss : Stream} {it : Value} {value : Int} {rest : Bytes}
    (element : (tiny.view it).element = .int value rest) (lower : -2 ^ 64 ≤ value)
    (upper : value < 2 ^ 64) (fits : Fits etl ss (dumpedNumber etl (etl.base ss) value)) :
    ∃ printed, dumpInteger tiny etl ss it = (.noError, printed) ∧
      Appended etl ss (dumpedNumber etl (etl.base ss) value) printed := by
  unfold dumpInteger check
  rw [tiny.getRawInteger_eq it value rest element, if_pos rfl,
    tiny.isUnsignedInteger_eq it value rest element]
  cases value with
  | ofNat value =>
    have positive : 0 ≤ Int.ofNat value := Int.natCast_nonneg value
    have small : value < 2 ^ 64 := Int.ofNat_lt.mp upper
    have raw : ((UInt64.ofNat value).toNat : Int) = streamed (.ofNat value) := by
      rw [UInt64.toNat_ofNat_of_lt' small, streamed, if_pos positive]
      rfl
    unfold dumpedNumber at fits ⊢
    rw [← raw] at fits ⊢
    rw [decide_eq_true positive]
    exact ⟨_, rfl, etl.text_putUint64 ss _ fits, etl.base_putUint64 ss _⟩
  | negSucc value =>
    have small : value < 2 ^ 64 := by omega
    rw [decide_eq_false (by omega)]
    dsimp only [rawInteger]
    rw [if_neg Bool.false_ne_true]
    unfold dumpedNumber at fits ⊢
    by_cases whole : value + 1 = 2 ^ 64
    · have put : streamed (.negSucc value) = -1234567890123456 := by
        rw [streamed, if_neg (by omega), if_pos (by omega)]
      rw [if_neg ((ofNat_succ_ne_zero_iff small).not.mpr (not_not.mpr whole))]
      rw [put] at fits ⊢
      exact ⟨_, rfl, etl.text_putInt64 ss (-1234567890123456) fits, etl.base_putInt64 ss _⟩
    · rw [if_pos ((ofNat_succ_ne_zero_iff small).mpr whole)]
      rw [streamed_negSucc small whole] at fits ⊢
      exact ⟨_, rfl, etl.text_putInt64 ss _ fits, etl.base_putInt64 ss _⟩

/-! ### Whole items -/

/-- Every item takes at least a character. -/
theorem length_le_length_dumpText {number : Int → Bytes} (some : ∀ value, number value ≠ [])
    (items : Items) : ∀ (nestingLevel : Nat) (first : Bool),
      items.length ≤ (dumpText number nestingLevel first items).length := by
  induction items with
  | done => exact fun _ _ => Nat.zero_le _
  | int value after inductionHypothesis =>
    intro nestingLevel first
    have others := inductionHypothesis nestingLevel false
    have character := List.length_pos_iff.mpr (some value)
    simp only [Items.length, dumpText, List.length_append]
    omega
  | container kind content after _ inductionHypothesis =>
    intro nestingLevel first
    have others := inductionHypothesis nestingLevel false
    have character : 0 < (opening kind).length := by
      cases kind with
      | array => decide
      | map => decide
    simp only [Items.length, dumpText, List.length_append]
    omega

/-- A call in front of items that fit ends after their turns without an error, behind the last of
them, and has appended their text. -/
def Dumps (tiny : TinyCborIterator Value) (etl : StringStream Stream) (items : Items) : Prop :=
  ∀ (rest : Bytes) (first : Bool) (ss : Stream) (it : Value) (nestingLevel : Nat),
    (tiny.view it).Before items rest →
      Fits etl ss (dumpText (dumpedNumber etl (etl.base ss)) nestingLevel first items) →
        ∃ last printed,
          (∀ fuel, dumpLoop tiny etl fuel first ss it nestingLevel =
            if turns items ≤ fuel then some (.noError, last, printed) else none) ∧
            (tiny.view last).Before .done rest ∧
            (tiny.view last).remaining.isSome = (tiny.view it).remaining.isSome ∧
            Appended etl ss (dumpText (dumpedNumber etl (etl.base ss)) nestingLevel first items)
              printed

theorem dumps_done : Dumps tiny etl .done := by
  intro rest first ss it nestingLevel before fits
  refine ⟨it, ss, fun fuel => ?_, before, rfl, .refl ss⟩
  cases fuel with
  | zero => rfl
  | succ fuel =>
    have ended : tiny.atEnd it = true := by
      rw [tiny.atEnd_eq it before.usable, before.element_done]
      rfl
    have enough : turns .done ≤ fuel + 1 := Nat.succ_le_succ (Nat.zero_le fuel)
    rw [dumpLoop, if_pos ended, if_pos enough]

/-- In front of an item the loop goes on. -/
theorem atEnd_of_element {it : Value} {element : Cbor.Element}
    (here : (tiny.view it).element = element) (usable : element.usable = true)
    (item : element ≠ .stop) : tiny.atEnd it = false := by
  rw [tiny.atEnd_eq it (here.symm ▸ usable), here]
  exact decide_eq_false item

/-- A turn and those after it, given how much of the bound the calls inside of the turn need. -/
theorem dumpLoop_turn {first : Bool} {ss : Stream} {it : Value} {nestingLevel inner outer : Nat}
    {next last : Value} {printed final : Stream} (item : tiny.atEnd it = false)
    (turn : ∀ fuel, dumpElement tiny etl
        (fun ss recursed => dumpLoop tiny etl fuel true ss recursed (nestingLevel + 1))
        (if first then indent etl ss nestingLevel
          else etl.put (indent etl ss nestingLevel) (ascii ",")) it nestingLevel =
      if inner ≤ fuel then some (.noError, next, printed) else none)
    (others : ∀ fuel, dumpLoop tiny etl fuel false printed next nestingLevel =
      if outer ≤ fuel then some (.noError, last, final) else none) (fuel : Nat) :
    dumpLoop tiny etl fuel first ss it nestingLevel =
      if max inner outer + 1 ≤ fuel then some (.noError, last, final) else none := by
  cases fuel with
  | zero => rfl
  | succ fuel =>
    rw [dumpLoop, if_neg (by rw [item]; exact Bool.false_ne_true)]
    dsimp only
    rw [turn fuel]
    by_cases enough : inner ≤ fuel
    · rw [if_pos enough, Option.bind_some, if_neg (not_not.mpr rfl), others fuel]
      exact if_congr (by omega) rfl rfl
    · rw [if_neg enough, Option.bind_none, if_neg (by omega)]

/-- The turn of an integer. -/
theorem dumpElement_int {ss : Stream} {it : Value} {value : Int} {after : Items} {rest : Bytes}
    (before : (tiny.view it).Before (.int value after) rest)
    (fits : Fits etl ss (dumpedNumber etl (etl.base ss) value)) :
    ∃ next printed,
      (∀ recurse nestingLevel,
        dumpElement tiny etl recurse ss it nestingLevel = some (.noError, next, printed)) ∧
        (tiny.view next).Before after rest ∧
        (tiny.view next).remaining.isSome = (tiny.view it).remaining.isSome ∧
        Appended etl ss (dumpedNumber etl (etl.base ss) value) printed := by
  obtain ⟨middle, element, next, behind⟩ := before.int
  have bounds := before.reads.integer_bounds value List.mem_cons_self
  obtain ⟨printed, dumped, appended⟩ := dumpInteger_eq element bounds.1 bounds.2 fits
  obtain ⟨moved, view⟩ := (tiny.advanceFixed_next it value middle _ element next).2 behind.usable
  refine ⟨(tiny.advanceFixed it).2, printed, fun recurse nestingLevel => ?_, view ▸ behind, ?_,
    appended⟩
  · unfold dumpElement
    rw [tiny.getType_int it value middle element]
    dsimp only [dumpFixed]
    rw [dumped, if_neg (not_not.mpr rfl), moved]
  · rw [view]
    exact Option.isSome_map

theorem dumps_int {value : Int} {after : Items} (others : Dumps tiny etl after) :
    Dumps tiny etl (.int value after) := by
  intro rest first ss it nestingLevel before fits
  rw [dumpText] at fits ⊢
  have separated := Appended.lead fits.of_append
  have room := fits.after separated
  obtain ⟨middle, element, -⟩ := before.int
  obtain ⟨next, printed, turn, behind, sameKind, number⟩ :=
    dumpElement_int before (separated.base ▸ room.of_append)
  rw [separated.base] at number
  have base : etl.base printed = etl.base ss := number.base.trans separated.base
  obtain ⟨last, final, loop, ended, lastKind, text⟩ := others rest false printed next nestingLevel
    behind (base ▸ room.after number)
  rw [base] at text
  refine ⟨last, final, fun fuel => ?_, ended, lastKind.trans sameKind,
    separated.trans (number.trans text)⟩
  rw [dumpLoop_turn (atEnd_of_element element rfl nofun)
    (fun fuel => (turn _ nestingLevel).trans (if_pos (Nat.zero_le fuel)).symm) loop]
  rw [Nat.zero_max]
  rfl

theorem dumpElement_container {recurse : Stream → Value → Option (Dumped Value Stream)}
    {ss : Stream} {it : Value} {nestingLevel : Nat} {kind : ContainerKind} {argument : Option Nat}
    {start : Bytes} (element : (tiny.view it).element = .other)
    (head : Cbor.decodeHead (tiny.view it).rest =
      some { major := kind.major, argument := argument, rest := start }) :
    dumpElement tiny etl recurse ss it nestingLevel =
      dumpContainer tiny etl (opening kind) (closing kind) recurse ss it nestingLevel := by
  unfold dumpElement
  rw [tiny.getType_container it kind argument start element head]
  cases kind with
  | array => rfl
  | map => rfl

/-- The turn of a container, given the call for its content. -/
theorem dumpContainer_eq {opening closing : Bytes}
    {recurse : Stream → Value → Option (Dumped Value Stream)} {ss printed : Stream}
    {it last : Value} {nestingLevel inner fuel : Nat}
    (entering : (tiny.enterContainer it).1 = .noError)
    (call : recurse (etl.put ss opening) (tiny.enterContainer it).2 =
      if inner ≤ fuel then some (.noError, last, printed) else none)
    (leaving : (tiny.leaveContainer it last).1 = .noError) :
    dumpContainer tiny etl opening closing recurse ss it nestingLevel =
      if inner ≤ fuel then
        some (.noError, (tiny.leaveContainer it last).2,
          etl.put (indent etl printed nestingLevel) closing)
      else none := by
  unfold dumpContainer
  dsimp only
  rw [if_neg (not_not.mpr entering), call]
  by_cases enough : inner ≤ fuel
  · rw [if_pos enough, if_pos enough, Option.map_some, if_neg (not_not.mpr rfl),
      if_neg (not_not.mpr leaving)]
  · rw [if_neg enough, if_neg enough, Option.map_none]

theorem dumps_container {kind : ContainerKind} {content after : Items}
    (inner : Dumps tiny etl content) (others : Dumps tiny etl after) :
    Dumps tiny etl (.container kind content after) := by
  intro rest first ss it nestingLevel before fits
  obtain ⟨element, ⟨argument, start, head⟩, cursor, final, entered, inside, leaves⟩ :=
    before.container
  rw [dumpText] at fits ⊢
  have separated := Appended.lead fits.of_append
  have opened := Appended.put (fits.after separated).of_append
  have room := (fits.after separated).after opened
  have base := opened.base.trans separated.base
  -- a container with too many elements to be entered would not fit
  have small : ∀ count, cursor.remaining = some count → count < 2 ^ 32 - 1 := by
    intro count remaining
    have someText : ∀ value, dumpedNumber etl (etl.base ss) value ≠ [] := fun value =>
      intText_ne_nil _ _ _
    have characters := length_le_length_dumpText someText content (nestingLevel + 1) true
    have bounded := room.of_append
    unfold Fits at bounded
    rw [List.length_append] at bounded
    have counted := inside.counted count remaining
    omega
  obtain ⟨entering, view⟩ :=
    (tiny.enterContainer_enter it cursor element entered small).2 inside.usable
  obtain ⟨last, printed, call, ended, sameKind, text⟩ := inner final true _
    (tiny.enterContainer it).2 (nestingLevel + 1) (view.symm ▸ inside) (base.symm ▸ room.of_append)
  rw [base] at text
  rw [view] at sameKind
  have behind := leaves _ ended sameKind
  obtain ⟨leaving, leftView⟩ := (tiny.leaveContainer_leave it last cursor element entered
    ended.element_done sameKind).2 behind.usable
  have blanks := Appended.indent nestingLevel (room.after text).of_append
  have closed := Appended.put ((room.after text).after blanks).of_append
  have closedBase := closed.base.trans (blanks.base.trans (text.base.trans base))
  obtain ⟨finish, ends, loop, atEnd, lastKind, rests⟩ := others rest false _
    (tiny.leaveContainer it last).2 nestingLevel (leftView.symm ▸ behind)
    (closedBase.symm ▸ ((room.after text).after blanks).after closed)
  rw [closedBase] at rests
  refine ⟨finish, ends, fun fuel => ?_, atEnd, lastKind.trans ?_,
    separated.trans (opened.trans (text.trans (blanks.trans (closed.trans rests))))⟩
  · exact dumpLoop_turn (atEnd_of_element element rfl nofun)
      (fun bound => (dumpElement_container element head).trans
        (dumpContainer_eq entering (call bound) leaving)) loop fuel
  · rw [leftView]
    exact Option.isSome_map

/-- Every sequence of items that fits is dumped. -/
theorem dumps (tiny : TinyCborIterator Value) (etl : StringStream Stream) (items : Items) :
    Dumps tiny etl items := by
  induction items with
  | done => exact dumps_done
  | int value after inductionHypothesis => exact dumps_int inductionHypothesis
  | container kind content after inner others => exact dumps_container inner others

end BrokerProxy.Codec
