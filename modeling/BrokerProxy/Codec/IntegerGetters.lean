/-
This file proves which integers the three integer getters of `CborDeserializer` deliver.
The getters of signed numbers take every integer and leave the conversion to the decoder,
which truncates: an integer that does not fit its target is replaced by another one, and
`success` still holds. The getter of unsigned numbers refuses what does not fit, because
its test is narrower.
-/

import BrokerProxy.Codec.Deserializer

namespace BrokerProxy.Codec

open Cbor (Cursor Element)

variable {Value : Type}

/-! ### Moving past an integer -/

/-- Whether a map of indefinite length may end where a value is due, for a move past an
integer. -/
def TinyCborDecoder.AllowsBreakFixed (tiny : TinyCborDecoder Value) (allowed : Bool) : Prop :=
  ∀ value number rest cursor, (tiny.view value).element = .int number rest →
    (tiny.view value).next = some cursor → cursor.element = .unpaired →
      ((tiny.advanceFixed value).1 = .noError ↔ allowed = true)

/-- What a release of the decoder moves to: a well-formed head, the end, or the end of a map where
a value is due, if that is allowed. -/
def MovesOn (allowed : Bool) (cursor : Cursor) : Prop :=
  cursor.element.usable = true ∨ (cursor.element = .unpaired ∧ allowed = true)

/-- A move succeeds exactly where it may. -/
theorem movesOn_iff {tiny : TinyCborDecoder Value} {allowed : Bool} {cursor : Cursor}
    {err : CborError} {value : Value} (moves : MovesTo tiny.view cursor err value)
    (refuses : tiny.Refuses cursor err value)
    (breaks : cursor.element = .unpaired → (err = .noError ↔ allowed = true)) :
    err = .noError ↔ MovesOn allowed cursor := by
  constructor
  · intro noError
    cases element : cursor.element with
    | broken => exact absurd noError (moves.1 element)
    | malformed => exact absurd noError (refuses.1 element)
    | unpaired => exact Or.inr ⟨element, (breaks element).mp noError⟩
    | int _ _ | bytes _ | text _ | other | stop =>
      refine Or.inl ?_
      rw [element]
      rfl
  · rintro (usable | ⟨unpaired, isAllowed⟩)
    · exact (moves.2 usable).1
    · exact (breaks unpaired).mpr isAllowed

namespace CborDeserializer

/-! ### One getter -/

/-- What a getter of an integer owes: the value if it succeeds, and failure if the integer does
not fit its target. -/
def Exact {Number : Type} (toInt : Number → Int) (fits : Prop) (number : Int)
    (got : Number × CborDeserializer Value) : Prop :=
  (got.2.success = true → toInt got.1 = number) ∧ (¬ fits → got.2.success = false)

/-- Nothing can be taken here: there is an error already, or the decoder does not move past the
current element. -/
def Stuck (tiny : TinyCborDecoder Value) (allowed : Bool)
    (deserializer : CborDeserializer Value) : Prop :=
  deserializer.err ≠ .noError ∨
    ∃ next, (tiny.view deserializer.it).next = some next ∧ ¬ MovesOn allowed next

theorem exact_of_failure {Number : Type} {toInt : Number → Int} {fits : Prop} {number : Int}
    {got : Number × CborDeserializer Value} (failed : got.2.success = false) :
    Exact toInt fits number got :=
  ⟨fun succeeded => absurd (failed.symm.trans succeeded) Bool.false_ne_true, fun _ => failed⟩

/-- A getter whose test holds and which reads a number is exact if the number is the integer,
which it is if the integer fits, or if it fails. -/
theorem getNumber_exact_iff {Number : Type} {toInt : Number → Int} {fits : Prop} {number : Int}
    {isNumber : Value → Bool} {read : Value → CborError × Number}
    {move : Value → CborError × Value} {deserializer : CborDeserializer Value} {x : Number}
    (test : isNumber deserializer.it = true) (got : read deserializer.it = (.noError, x))
    (faithful : toInt x = number ↔ fits) (t : Number) :
    Exact toInt fits number (deserializer.getNumber isNumber read move t) ↔
      fits ∨ deserializer.err ≠ .noError ∨ (move deserializer.it).1 ≠ .noError := by
  by_cases noError : deserializer.err = .noError
  · rw [getNumber_takes noError test got t]
    have success : (deserializer.advanced (move deserializer.it)).success =
        decide ((move deserializer.it).1 = .noError) := rfl
    by_cases moved : (move deserializer.it).1 = .noError
    · constructor
      · intro exact
        exact Or.inl (faithful.mp (exact.1 (by rw [success]; exact decide_eq_true moved)))
      · rintro (holds | failed | failed)
        · exact ⟨fun _ => faithful.mpr holds, fun wrong => absurd holds wrong⟩
        · exact absurd noError failed
        · exact absurd moved failed
    · exact ⟨fun _ => Or.inr (Or.inr moved),
        fun _ => exact_of_failure (by rw [success]; exact decide_eq_false moved)⟩
  · rw [getNumber_refused (fun ok => noError ok.1) t]
    exact ⟨fun _ => Or.inr (Or.inl noError),
      fun _ => exact_of_failure (decide_eq_false deserializer.illegal_err)⟩

/-! ### The conversions -/

theorem int32_faithful (number : Int) :
    (Int32.ofInt number).toInt = number ↔ -2 ^ 31 ≤ number ∧ number < 2 ^ 31 :=
  ⟨fun same => same ▸ ⟨Int32.le_toInt _, Int32.toInt_lt _⟩,
    fun fits => Int32.toInt_ofInt_of_le fits.1 fits.2⟩

theorem int64_faithful (number : Int) :
    (Int64.ofInt number).toInt = number ↔ -2 ^ 63 ≤ number ∧ number < 2 ^ 63 :=
  ⟨fun same => same ▸ ⟨Int64.le_toInt _, Int64.toInt_lt _⟩,
    fun fits => Int64.toInt_ofInt_of_le fits.1 fits.2⟩

/-! ### The three getters -/

section

variable {tiny : TinyCborDecoder Value} {allowed : Bool} (rejects : tiny.Rejects)
  (breaks : tiny.AllowsBreak allowed) (breaksFixed : tiny.AllowsBreakFixed allowed)
  {deserializer : CborDeserializer Value} {number : Int} {rest : Bytes}
  (found : (tiny.view deserializer.it).element = .int number rest)

include found

theorem next_of_int : ∃ next, (tiny.view deserializer.it).next = some next := by
  rw [Cursor.next, found]
  exact ⟨_, rfl⟩

theorem stuck_iff {move : Value → CborError × Value}
    (moves : ∀ next, (tiny.view deserializer.it).next = some next →
      ((move deserializer.it).1 = .noError ↔ MovesOn allowed next)) :
    (deserializer.err ≠ .noError ∨ (move deserializer.it).1 ≠ .noError) ↔
      deserializer.Stuck tiny allowed := by
  obtain ⟨next, isNext⟩ := next_of_int found
  refine or_congr_right ⟨fun failed => ⟨next, isNext, mt (moves next isNext).mpr failed⟩, ?_⟩
  rintro ⟨other, isOther, refused⟩
  exact mt (moves other isOther).mp refused

include rejects

include breaksFixed in
theorem advanceFixed_iff (next : Cursor) (isNext : (tiny.view deserializer.it).next = some next) :
    (tiny.advanceFixed deserializer.it).1 = .noError ↔ MovesOn allowed next :=
  movesOn_iff (tiny.advanceFixed_next _ number rest next found isNext)
    (rejects.advanceFixed _ number rest next found isNext)
    fun unpaired => breaksFixed _ number rest next found isNext unpaired

include breaks in
omit found in
theorem advance_iff (next : Cursor) (isNext : (tiny.view deserializer.it).next = some next) :
    (tiny.advance deserializer.it).1 = .noError ↔ MovesOn allowed next :=
  movesOn_iff (tiny.advance_next _ next isNext) (rejects.advance _ next isNext)
    fun unpaired => breaks _ next isNext unpaired

omit rejects in
theorem isInteger_of_int : tiny.isInteger deserializer.it = true := by
  rw [tiny.isInteger_eq _ (by rw [found]; rfl), found]
  rfl

include breaksFixed in
/-- `get(int)` is exact if the integer fits, and otherwise only if it fails for another reason. -/
theorem getInt_exact_iff (t : Int32) :
    Exact Int32.toInt (-2 ^ 31 ≤ number ∧ number < 2 ^ 31) number (deserializer.getInt tiny t) ↔
      (-2 ^ 31 ≤ number ∧ number < 2 ^ 31) ∨ deserializer.Stuck tiny allowed := by
  rw [getInt_eq_getNumber, ← stuck_iff found (advanceFixed_iff rejects breaksFixed found)]
  exact getNumber_exact_iff (isInteger_of_int found) (tiny.getInt_eq _ number rest found)
    (int32_faithful number) t

include breaks in
/-- `get(int64_t)` is exact if the integer fits, and otherwise only if it fails for another
reason. -/
theorem getInt64_exact_iff (t : Int64) :
    Exact Int64.toInt (-2 ^ 63 ≤ number ∧ number < 2 ^ 63) number
        (deserializer.getInt64 tiny t) ↔
      (-2 ^ 63 ≤ number ∧ number < 2 ^ 63) ∨ deserializer.Stuck tiny allowed := by
  rw [getInt64, ← stuck_iff found (advance_iff rejects breaks)]
  exact getNumber_exact_iff (isInteger_of_int found) (tiny.getInt64_eq _ number rest found)
    (int64_faithful number) t

omit rejects in
/-- `get(uint64_t)` is always exact: it refuses the negative integers. -/
theorem getUInt64_exact (upper : number < 2 ^ 64) (t : UInt64) :
    Exact (fun x : UInt64 => (x.toNat : Int)) (0 ≤ number) number
      (deserializer.getUInt64 tiny t) := by
  have isUnsigned : tiny.isUnsignedInteger deserializer.it = decide (0 ≤ number) := by
    rw [tiny.isUnsignedInteger_eq _ (by rw [found]; rfl), found]
    rfl
  by_cases unsigned : 0 ≤ number
  · obtain ⟨natural, rfl⟩ := Int.eq_ofNat_of_zero_le unsigned
    have small : natural < 2 ^ 64 := by omega
    rw [getUInt64, getNumber_exact_iff (isUnsigned.trans (decide_eq_true unsigned))
      (tiny.getUint64_eq _ natural rest found)
      (iff_of_true (congrArg Int.ofNat (UInt64.toNat_ofNat_of_lt' small)) unsigned)]
    exact Or.inl unsigned
  · rw [getUInt64, getNumber_refused (fun ok =>
      unsigned (of_decide_eq_true (isUnsigned.symm.trans ok.2))) t]
    exact exact_of_failure (decide_eq_false deserializer.illegal_err)

include breaks breaksFixed in
/-- The three getters at an integer: each signed one is exact if the integer fits its target, and
otherwise exactly if it fails for another reason; the unsigned one is always exact. -/
theorem integerGetters_exact_iff (upper : number < 2 ^ 64) :
    (∀ t, Exact Int32.toInt (-2 ^ 31 ≤ number ∧ number < 2 ^ 31) number
        (deserializer.getInt tiny t) ↔
      (-2 ^ 31 ≤ number ∧ number < 2 ^ 31) ∨ deserializer.Stuck tiny allowed) ∧
    (∀ t, Exact Int64.toInt (-2 ^ 63 ≤ number ∧ number < 2 ^ 63) number
        (deserializer.getInt64 tiny t) ↔
      (-2 ^ 63 ≤ number ∧ number < 2 ^ 63) ∨ deserializer.Stuck tiny allowed) ∧
    ∀ t, Exact (fun x : UInt64 => (x.toNat : Int)) (0 ≤ number) number
      (deserializer.getUInt64 tiny t) :=
  ⟨getInt_exact_iff rejects breaksFixed found, getInt64_exact_iff rejects breaks found,
    getUInt64_exact found upper⟩

end

end CborDeserializer

/-! ### Two integers -/

theorem referenceDecoder_allowsBreakFixed : referenceDecoder.AllowsBreakFixed false :=
  fun value _ _ cursor _ next unpaired =>
    referenceDecoder_allowsBreak value cursor next unpaired

/-- A deserializer at the only element of a received array. -/
def receivedElement (element : Bytes) : CborDeserializer ReferenceValue :=
  ((constructed 16).fromBytes (0x81 :: element)).begin referenceDecoder

/-- The integer minus one, which fits both signed targets. -/
theorem integerGetters_exact_iff_minusOne :
    (∀ t, CborDeserializer.Exact Int32.toInt (-2 ^ 31 ≤ (-1 : Int) ∧ (-1 : Int) < 2 ^ 31) (-1)
        ((receivedElement [0x20]).getInt referenceDecoder t) ↔
      (-2 ^ 31 ≤ (-1 : Int) ∧ (-1 : Int) < 2 ^ 31) ∨
        (receivedElement [0x20]).Stuck referenceDecoder false) ∧
    (∀ t, CborDeserializer.Exact Int64.toInt (-2 ^ 63 ≤ (-1 : Int) ∧ (-1 : Int) < 2 ^ 63) (-1)
        ((receivedElement [0x20]).getInt64 referenceDecoder t) ↔
      (-2 ^ 63 ≤ (-1 : Int) ∧ (-1 : Int) < 2 ^ 63) ∨
        (receivedElement [0x20]).Stuck referenceDecoder false) ∧
    ∀ t, CborDeserializer.Exact (fun x : UInt64 => (x.toNat : Int)) (0 ≤ (-1 : Int)) (-1)
      ((receivedElement [0x20]).getUInt64 referenceDecoder t) :=
  CborDeserializer.integerGetters_exact_iff referenceDecoder_rejects referenceDecoder_allowsBreak
    referenceDecoder_allowsBreakFixed
    (show (referenceDecoder.view (receivedElement [0x20]).it).element = .int (-1) [] by
      decide +kernel) (by decide)

/-- The integer 2^32 + 1 is read as one. -/
theorem getInt_not_exact :
    (referenceDecoder.view (receivedElement [0x1B, 0, 0, 0, 1, 0, 0, 0, 1]).it).element =
        .int (2 ^ 32 + 1) [] ∧
      ¬ CborDeserializer.Exact Int32.toInt
        (-2 ^ 31 ≤ (2 ^ 32 + 1 : Int) ∧ (2 ^ 32 + 1 : Int) < 2 ^ 31) (2 ^ 32 + 1)
        ((receivedElement [0x1B, 0, 0, 0, 1, 0, 0, 0, 1]).getInt referenceDecoder 0) := by
  have read : ((receivedElement [0x1B, 0, 0, 0, 1, 0, 0, 0, 1]).getInt referenceDecoder 0).1 = 1 ∧
      ((receivedElement [0x1B, 0, 0, 0, 1, 0, 0, 0, 1]).getInt
        referenceDecoder 0).2.success = true := by decide +kernel
  refine ⟨by decide +kernel, fun exact => ?_⟩
  have value := exact.1 read.2
  rw [read.1] at value
  exact absurd value (by decide)

end BrokerProxy.Codec
