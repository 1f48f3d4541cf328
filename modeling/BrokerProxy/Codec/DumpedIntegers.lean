/-
This file proves what the text of a dump says about the integers of the message. The words
of the text, cut at blanks, commas and brackets, are the names of the containers and the
numbers that the code writes, one for each integer and in their order.

While the stream writes decimal a number is the decimal notation of its integer exactly
for the integers that are not negative, and for -2^63, whose magnitude turns into itself
as a signed number. An integer below 2^63 and its negative have the same text.
-/

import BrokerProxy.Codec.CborDump

namespace BrokerProxy.Codec

open Cbor (Cursor DifferIn Items ContainerKind Reads)
open Numerals
open Redis (ascii)

/-! ### The words of a dump -/

/-- The characters that words are cut at. -/
def isPunctuation (character : UInt8) : Bool := (ascii " ,[]\x7b\x7d").contains character

/-- The words of a dump, without the names of the containers. -/
def numbers (text : Bytes) : List Bytes :=
  (text.splitOnP isPunctuation).filter fun word =>
    word ≠ [] ∧ word ≠ ascii "Array" ∧ word ≠ ascii "Map"

theorem numbers_nil : numbers [] = [] := by
  rw [numbers, List.splitOnP_nil]
  rfl

/-- The words on both sides of a punctuation character. -/
theorem numbers_append_cons {separator : UInt8} (cut : isPunctuation separator = true)
    (first second : Bytes) :
    numbers (first ++ separator :: second) = numbers first ++ numbers second := by
  unfold numbers
  rw [List.splitOnP_append_cons first second cut, List.filter_append]

theorem numbers_cons {separator : UInt8} (cut : isPunctuation separator = true) (text : Bytes) :
    numbers (separator :: text) = numbers text := by
  have whole := numbers_append_cons cut [] text
  rwa [List.nil_append, numbers_nil, List.nil_append] at whole

/-- Punctuation in front of a text. -/
theorem numbers_punctuation {separators : Bytes} (text : Bytes)
    (cut : ∀ character ∈ separators, isPunctuation character = true) :
    numbers (separators ++ text) = numbers text := by
  induction separators with
  | nil => rfl
  | cons separator rest inductionHypothesis =>
    rw [List.forall_mem_cons] at cut
    rw [List.cons_append, numbers_cons cut.1, inductionHypothesis cut.2]

/-- A text is over, or goes on with punctuation. -/
def EndsWord (text : Bytes) : Prop := ∀ character ∈ text.head?, isPunctuation character = true

theorem numbers_append {second : Bytes} (cut : EndsWord second) (first : Bytes) :
    numbers (first ++ second) = numbers first ++ numbers second := by
  cases second with
  | nil => rw [List.append_nil, numbers_nil, List.append_nil]
  | cons separator rest =>
    have here := cut separator rfl
    rw [numbers_append_cons here, numbers_cons here]

theorem endsWord_append {separators : Bytes} {text : Bytes}
    (cut : ∀ character ∈ separators, isPunctuation character = true) (rest : EndsWord text) :
    EndsWord (separators ++ text) := by
  cases separators with
  | nil => exact rest
  | cons separator others =>
    rintro character ⟨⟩
    exact cut separator List.mem_cons_self

theorem isPunctuation_blank {count : Nat} {character : UInt8}
    (member : character ∈ List.replicate count 0x20) : isPunctuation character = true := by
  rw [List.eq_of_mem_replicate member]
  decide

theorem isPunctuation_lead {nestingLevel : Nat} {first : Bool} {character : UInt8}
    (member : character ∈ lead nestingLevel first) : isPunctuation character = true := by
  rcases List.mem_append.mp member with blank | comma
  · exact isPunctuation_blank blank
  · cases first with
    | true => cases comma
    | false =>
      rw [if_neg Bool.false_ne_true] at comma
      rw [List.mem_singleton.mp comma]
      decide

theorem isPunctuation_closing {kind : ContainerKind} {character : UInt8}
    (member : character ∈ closing kind) : isPunctuation character = true := by
  cases kind with
  | array =>
    rw [List.mem_singleton.mp member]
    decide
  | map =>
    rw [List.mem_singleton.mp member]
    decide

/-- The name of a container is cut off by its bracket. -/
theorem numbers_opening (kind : ContainerKind) (text : Bytes) :
    numbers (opening kind ++ text) = numbers text := by
  have named : ∀ (name : Bytes) (bracket : UInt8), numbers name = [] →
      isPunctuation bracket = true → numbers ((name ++ [bracket]) ++ text) = numbers text := by
    intro name bracket silent cut
    rw [List.append_assoc, List.singleton_append, numbers_append_cons cut, silent, List.nil_append]
  cases kind with
  | array => exact named (ascii "Array") 0x5B (by decide) (by decide)
  | map => exact named (ascii "Map") 0x7B (by decide) (by decide)

/-! ### Numbers as words -/

/-- A character of a number. -/
theorem mem_numberText {base : Base} {hexSigns : Bool} {number : Int} {character : UInt8}
    (member : character ∈ numberText base hexSigns number) :
    character = 0x2D ∨ ∃ digit < 16, character = digitChar digit := by
  have digit : ∀ {magnitude : Nat}, character ∈ natText base.radix magnitude →
      ∃ digit < 16, character = digitChar digit := fun inside =>
    exists_digitChar_of_mem base.radix_bounds.1 base.radix_bounds.2 inside
  unfold numberText intText at member
  split at member
  · rcases List.mem_cons.mp member with sign | inside
    · exact Or.inl sign
    · exact Or.inr (digit inside)
  · exact Or.inr (digit member)

theorem numbers_numberText (base : Base) (hexSigns : Bool) (number : Int) :
    numbers (numberText base hexSigns number) = [numberText base hexSigns number] := by
  have digits : ∀ i : Fin 16, isPunctuation (digitChar i.val) = false ∧
      digitChar i.val ≠ 0x41 ∧ digitChar i.val ≠ 0x4D := by decide
  have plain : ∀ character ∈ numberText base hexSigns number, isPunctuation character = false ∧
      character ≠ 0x41 ∧ character ≠ 0x4D := by
    intro character member
    rcases mem_numberText member with rfl | ⟨digit, below, rfl⟩
    · decide
    · exact digits ⟨digit, below⟩
  have notArray : numberText base hexSigns number ≠ ascii "Array" := fun named =>
    (plain 0x41 (named ▸ List.mem_cons_self)).2.1 rfl
  have notMap : numberText base hexSigns number ≠ ascii "Map" := fun named =>
    (plain 0x4D (named ▸ List.mem_cons_self)).2.2 rfl
  unfold numbers
  rw [List.splitOnP_eq_singleton fun character member => (plain character member).1,
    List.filter_cons_of_pos, List.filter_nil]
  exact decide_eq_true ⟨intText_ne_nil _ _ _, notArray, notMap⟩

variable {Value Stream : Type} {tiny : TinyCborIterator Value} {etl : StringStream Stream}

theorem endsWord_dumpText (number : Int → Bytes) (nestingLevel : Nat) (items : Items) :
    EndsWord (dumpText number nestingLevel false items) := by
  have comma : ∀ text : Bytes, EndsWord (lead nestingLevel false ++ text) := by
    intro text
    rw [lead, List.append_assoc]
    refine endsWord_append (fun character => isPunctuation_blank) ?_
    rintro character ⟨⟩
    decide
  cases items with
  | done => exact nofun
  | int value after => exact comma _
  | container kind content after => exact comma _

/-- The words of a dump are the numbers of its integers, in order. -/
theorem numbers_dumpText (base : Base) (items : Items) :
    ∀ (nestingLevel : Nat) (first : Bool),
      numbers (dumpText (dumpedNumber etl base) nestingLevel first items) =
        items.integers.map (dumpedNumber etl base) := by
  induction items with
  | done => exact fun _ _ => numbers_nil
  | int value after inductionHypothesis =>
    intro nestingLevel first
    have word : numbers (dumpedNumber etl base value) = [dumpedNumber etl base value] :=
      numbers_numberText base etl.hexSigns (streamed value)
    rw [dumpText, numbers_punctuation _ fun character => isPunctuation_lead,
      numbers_append (endsWord_dumpText _ _ _), word, inductionHypothesis]
    rfl
  | container kind content after inner others =>
    intro nestingLevel first
    have behind : EndsWord (List.replicate nestingLevel 0x20 ++ (closing kind ++
        dumpText (dumpedNumber etl base) nestingLevel false after)) :=
      endsWord_append (fun character => isPunctuation_blank)
        (endsWord_append (fun character => isPunctuation_closing) (endsWord_dumpText _ _ _))
    rw [dumpText, numbers_punctuation _ fun character => isPunctuation_lead, numbers_opening,
      numbers_append behind, inner, numbers_punctuation _ fun character => isPunctuation_blank,
      numbers_punctuation _ fun character => isPunctuation_closing, others, Items.integers,
      List.map_append]

/-! ### Which integers are shown -/

/-- The integers whose text is their decimal notation. -/
def Shown : Base → Int → Prop
  | .decimal, value => 0 ≤ value ∨ value = -2 ^ 63
  | .hexadecimal, value => 0 ≤ value ∧ value < 10

instance (base : Base) (value : Int) : Decidable (Shown base value) :=
  match base with
  | .decimal => inferInstanceAs (Decidable (0 ≤ value ∨ value = -2 ^ 63))
  | .hexadecimal => inferInstanceAs (Decidable (0 ≤ value ∧ value < 10))

/-- The four ranges in which integers are put into the stream differently. -/
theorem streamed_cases {value : Int} (lower : -2 ^ 64 ≤ value) :
    0 ≤ value ∧ streamed value = value ∨
      -2 ^ 63 < value ∧ value < 0 ∧ streamed value = -value ∨
        -2 ^ 64 < value ∧ value ≤ -2 ^ 63 ∧ streamed value = -value - 2 ^ 64 ∨
          value = -2 ^ 64 ∧ streamed value = -1234567890123456 := by
  unfold streamed
  split
  · omega
  · split
    · omega
    · split
      · omega
      · omega

theorem streamed_eq_iff {value : Int} (lower : -2 ^ 64 ≤ value) :
    streamed value = value ↔ 0 ≤ value ∨ value = -2 ^ 63 := by
  have range := streamed_cases lower
  omega

/-- A negative integer is never shown by a stream that writes hexadecimal. -/
theorem dumpedNumber_hexadecimal_ne_decimal {value : Int} (lower : -2 ^ 64 ≤ value)
    (negative : value < 0) :
    dumpedNumber etl .hexadecimal value ≠ decimal value := by
  intro same
  obtain ⟨signed, texts⟩ := magnitudes_of_intText_eq (by decide) (by decide) negative same
  have magnitudes := le_of_natText_eq (by decide) (by decide) (by decide) (by decide) texts
  have least : value = -2 ^ 63 := by
    have range := streamed_cases lower
    omega
  rw [least, show streamed (-2 ^ 63) = -2 ^ 63 from rfl] at texts
  have digit := (natText_eq_natText_iff (by decide) (by decide) (by decide)).mp texts
  exact absurd digit (by decide)

/-- Exactly the shown integers are written in decimal notation. -/
theorem dumpedNumber_eq_decimal_iff {base : Base} {value : Int} (lower : -2 ^ 64 ≤ value) :
    dumpedNumber etl base value = decimal value ↔ Shown base value := by
  cases base with
  | decimal =>
    refine Iff.trans ?_ (streamed_eq_iff lower)
    exact ⟨intText_injective (by decide) (by decide), congrArg (intText 10 true)⟩
  | hexadecimal =>
    by_cases negative : value < 0
    · exact iff_of_false (dumpedNumber_hexadecimal_ne_decimal lower negative) fun shown =>
        absurd shown.1 (not_le.mpr negative)
    · have nonneg : 0 ≤ value := not_lt.mp negative
      unfold dumpedNumber numberText decimal
      rw [streamed, if_pos nonneg, intText_of_nonneg nonneg, intText_of_nonneg nonneg]
      refine (natText_eq_natText_iff (by decide) (by decide) (by decide)).trans ?_
      unfold Shown
      omega

/-! ### Which integers are written alike -/

/-- The first of two integers does not fit a signed number of 64 bits, and is written like the
second one. -/
def WrapsTo (signs : Bool) (value other : Int) : Prop :=
  value = -2 ^ 64 ∧ (other = 1234567890123456 - 2 ^ 64 ∨
      signs = false ∧ (other = 1234567890123456 ∨ other = -1234567890123456)) ∨
    -2 ^ 64 < value ∧ value < -2 ^ 63 ∧
      signs = false ∧ (other = value + 2 ^ 64 ∨ other = -(value + 2 ^ 64))

/-- The pairs of integers that are written alike, by a stream that shows signs or does not. -/
def Alike (signs : Bool) (value other : Int) : Prop :=
  value = other ∨
    value = -other ∧ (-2 ^ 63 < value ∧ value < 2 ^ 63 ∨
      signs = false ∧ -2 ^ 63 ≤ value ∧ value ≤ 2 ^ 63) ∨
    WrapsTo signs value other ∨ WrapsTo signs other value

/-- Without signs no fewer pairs are written alike. -/
theorem Alike.unsigned {value other : Int} (alike : Alike true value other) :
    Alike false value other := by
  unfold Alike WrapsTo at *
  grind

theorem streamed_eq_streamed_iff {value other : Int} (lower : -2 ^ 64 ≤ value)
    (otherLower : -2 ^ 64 ≤ other) :
    streamed value = streamed other ↔ Alike true value other := by
  have range := streamed_cases lower
  have otherRange := streamed_cases otherLower
  unfold Alike WrapsTo
  grind

theorem natAbs_streamed_eq_natAbs_streamed_iff {value other : Int} (lower : -2 ^ 64 ≤ value)
    (otherLower : -2 ^ 64 ≤ other) :
    (streamed value).natAbs = (streamed other).natAbs ↔ Alike false value other := by
  have range := streamed_cases lower
  have otherRange := streamed_cases otherLower
  rw [Int.natAbs_eq_natAbs_iff]
  unfold Alike WrapsTo
  constructor
  · rintro (same | opposite)
    · exact ((streamed_eq_streamed_iff lower otherLower).mp same).unsigned
    · rcases range with nonneg | small | wraps | least
      · grind
      · grind
      · grind
      · grind
  · grind

theorem dumpedNumber_eq_iff {base : Base} {value other : Int} (lower : -2 ^ 64 ≤ value)
    (otherLower : -2 ^ 64 ≤ other) :
    dumpedNumber etl base value = dumpedNumber etl base other ↔
      Alike (base = .decimal || etl.hexSigns) value other := by
  obtain ⟨large, small⟩ := base.radix_bounds
  unfold dumpedNumber numberText
  cases signs : (base = .decimal || etl.hexSigns : Bool) with
  | true =>
    refine Iff.trans ?_ (streamed_eq_streamed_iff lower otherLower)
    exact ⟨intText_injective large small, congrArg (intText base.radix true)⟩
  | false =>
    exact (intText_unsigned_eq_iff large small).trans
      (natAbs_streamed_eq_natAbs_streamed_iff lower otherLower)

theorem dumpText_eq_of_differIn {number : Int → Bytes} {value other : Int} {item otherItem : Items}
    (same : number value = number other) (differ : DifferIn value other item otherItem) :
    ∀ (nestingLevel : Nat) (first : Bool),
      dumpText number nestingLevel first item = dumpText number nestingLevel first otherItem := by
  induction differ with
  | here after =>
    intro nestingLevel first
    rw [dumpText, dumpText, same]
  | behind item differ inductionHypothesis =>
    intro nestingLevel first
    rw [dumpText, dumpText, inductionHypothesis]
  | inside kind after differ inductionHypothesis =>
    intro nestingLevel first
    rw [dumpText, dumpText, inductionHypothesis]
  | outside kind content differ inductionHypothesis =>
    intro nestingLevel first
    rw [dumpText, dumpText, inductionHypothesis]

/-- The text of an item determines the texts of its integers. -/
theorem dumpText_eq_iff {base : Base} {value other : Int} {item otherItem : Items}
    (differ : DifferIn value other item otherItem) (nestingLevel : Nat) (first : Bool) :
    dumpText (dumpedNumber etl base) nestingLevel first item =
        dumpText (dumpedNumber etl base) nestingLevel first otherItem ↔
      dumpedNumber etl base value = dumpedNumber etl base other := by
  refine ⟨fun same => ?_, fun same => dumpText_eq_of_differIn same differ _ _⟩
  have words := congrArg numbers same
  obtain ⟨before, after, one, two⟩ := differ.integers
  rw [numbers_dumpText, numbers_dumpText, one, two, List.map_append, List.map_append,
    List.append_cancel_left_eq, List.map_cons, List.map_cons] at words
  exact (List.cons.inj words).1

/-! ### The dump of an item -/

/-- A message holds one item and nothing else. -/
structure Encodes (bytes : Bytes) (item : Items) : Prop where
  reads : Reads bytes item []
  one : item.length = 1

/-- The dump of an item fits the buffer. -/
def Room (etl : StringStream Stream) (ss : Stream) (item : Items) : Prop :=
  (dumpText (dumpedNumber etl (etl.base ss)) 0 true item).length ≤ 1024

/-- `cborDump` ends on a message, and returns a text. -/
def DumpsTo (tiny : TinyCborIterator Value) (etl : StringStream Stream) (ss : Stream)
    (bytes text : Bytes) : Prop :=
  ∃ after needed, ∀ fuel,
    cborDump tiny etl fuel ss bytes = if needed ≤ fuel then some (text, after) else none

/-- Each integer of the item has its word in a text, which is its decimal notation. -/
def Faithful (item : Items) (text : Bytes) : Prop := numbers text = item.integers.map decimal

theorem noNul_dumpedNumber (base : Base) (value : Int) : 0 ∉ dumpedNumber etl base value := by
  have digits : ∀ i : Fin 16, 0 ≠ digitChar i.val := by decide
  intro nul
  rcases mem_numberText nul with sign | ⟨digit, below, same⟩
  · exact absurd sign (by decide)
  · exact digits ⟨digit, below⟩ same

theorem noNul_dumpText (base : Base) (items : Items) : ∀ (nestingLevel : Nat) (first : Bool),
    0 ∉ dumpText (dumpedNumber etl base) nestingLevel first items := by
  have punctuation : isPunctuation 0 ≠ true := by decide
  have noOpening : ∀ kind, 0 ∉ opening kind := by
    intro kind
    cases kind with
    | array => decide
    | map => decide
  induction items with
  | done => exact fun _ _ => List.not_mem_nil
  | int value after inductionHypothesis =>
    intro nestingLevel first
    rw [dumpText, List.mem_append, List.mem_append, not_or, not_or]
    exact ⟨fun nul => punctuation (isPunctuation_lead nul), noNul_dumpedNumber base value,
      inductionHypothesis _ _⟩
  | container kind content after inner others =>
    intro nestingLevel first
    rw [dumpText, List.mem_append, List.mem_append, List.mem_append, List.mem_append,
      List.mem_append, not_or, not_or, not_or, not_or, not_or]
    exact ⟨fun nul => punctuation (isPunctuation_lead nul), noOpening kind, inner _ _,
      fun nul => punctuation (isPunctuation_blank nul),
      fun nul => punctuation (isPunctuation_closing nul), others _ _⟩

/-- The parser starts in front of the item of the message. -/
theorem Encodes.before {bytes : Bytes} {item : Items} (encodes : Encodes bytes item) :
    Cursor.Before { rest := bytes, remaining := some 1 } item [] where
  reads := encodes.reads
  counted := by
    rintro count ⟨⟩
    exact encodes.one.symm
  ended := nofun
  due := nofun

/-- An item that fits is dumped. -/
theorem Encodes.dumpsTo {bytes : Bytes} {item : Items} (encodes : Encodes bytes item) {ss : Stream}
    (room : Room etl ss item) :
    DumpsTo tiny etl ss bytes (dumpText (dumpedNumber etl (etl.base ss)) 0 true item) := by
  have view := ((tiny.parserInit_view bytes).2 encodes.before.usable).2
  have fits : Fits etl (etl.clear ss)
      (dumpText (dumpedNumber etl (etl.base (etl.clear ss))) 0 true item) := by
    rw [Fits, etl.text_clear, etl.base_clear, List.nil_append]
    exact room
  obtain ⟨last, printed, loop, -, -, appended⟩ := dumps tiny etl item [] true (etl.clear ss)
    (tiny.parserInit bytes).2 0 (view.symm ▸ encodes.before) fits
  have text := appended.text
  rw [etl.text_clear, etl.base_clear, List.nil_append] at text
  refine ⟨printed, turns item, fun fuel => ?_⟩
  unfold cborDump dumpCborRecursive
  rw [loop fuel]
  by_cases enough : turns item ≤ fuel
  · rw [if_pos enough, if_pos enough, Option.map_some, text,
      cString_of_no_nul (noNul_dumpText _ _ _ _)]
  · rw [if_neg enough, if_neg enough, Option.map_none]

/-- An array of 7 and a map from 1 to -42. -/
example : (cborDump referenceIterator referenceStream 6 { text := [], base := .decimal }
    [0x82, 0x07, 0xA1, 0x01, 0x38, 0x29]).map Prod.fst =
      some (ascii "Array[ 7 ,Map\x7b  1  ,42 \x7d]") := by
  decide +kernel

theorem Encodes.faithful_dumpText_iff {bytes : Bytes} {item : Items} (encodes : Encodes bytes item)
    (base : Base) :
    Faithful item (dumpText (dumpedNumber etl base) 0 true item) ↔
      ∀ value ∈ item.integers, Shown base value := by
  unfold Faithful
  rw [numbers_dumpText, List.map_inj_left]
  refine forall₂_congr fun value member => ?_
  exact dumpedNumber_eq_decimal_iff (encodes.reads.integer_bounds value member).1

/-- The two integers that differ fit a head. -/
theorem Encodes.dumpText_eq_iff {bytes otherBytes : Bytes} {item otherItem : Items}
    {value other : Int} (encodes : Encodes bytes item) (otherEncodes : Encodes otherBytes otherItem)
    (differ : DifferIn value other item otherItem) (base : Base) :
    dumpText (dumpedNumber etl base) 0 true item =
        dumpText (dumpedNumber etl base) 0 true otherItem ↔
      Alike (base = .decimal || etl.hexSigns) value other := by
  obtain ⟨before, after, one, two⟩ := differ.integers
  have here : value ∈ item.integers := by
    rw [one]
    exact List.mem_append_right before List.mem_cons_self
  have there : other ∈ otherItem.integers := by
    rw [two]
    exact List.mem_append_right before List.mem_cons_self
  exact (Codec.dumpText_eq_iff differ 0 true).trans (dumpedNumber_eq_iff
    (encodes.reads.integer_bounds value here).1 (otherEncodes.reads.integer_bounds other there).1)

/-- What a dump says about integers. An item that fits is dumped with each of its integers in
decimal notation exactly if all of them are shown; and two items that differ in one integer
have different dumps exactly if these two are not written alike. -/
theorem cborDump_faithful_iff (tiny : TinyCborIterator Value) (etl : StringStream Stream)
    (ss : Stream) :
    (∀ bytes item, Encodes bytes item → Room etl ss item →
      ∃ text, DumpsTo tiny etl ss bytes text ∧
        (Faithful item text ↔ ∀ value ∈ item.integers, Shown (etl.base ss) value)) ∧
    (∀ bytes otherBytes item otherItem value other,
      DifferIn value other item otherItem → Encodes bytes item → Encodes otherBytes otherItem →
        Room etl ss item → Room etl ss otherItem →
          ∃ text otherText, DumpsTo tiny etl ss bytes text ∧
            DumpsTo tiny etl ss otherBytes otherText ∧
              (text ≠ otherText ↔
                ¬ Alike (etl.base ss = .decimal || etl.hexSigns) value other)) := by
  constructor
  · intro bytes item encodes room
    exact ⟨_, encodes.dumpsTo room, encodes.faithful_dumpText_iff (etl.base ss)⟩
  · intro bytes otherBytes item otherItem value other differ encodes otherEncodes room otherRoom
    exact ⟨_, _, encodes.dumpsTo room, otherEncodes.dumpsTo otherRoom,
      not_congr (encodes.dumpText_eq_iff otherEncodes differ (etl.base ss))⟩

/-- The stream before the first dump. -/
def initialStream : ReferenceStream where
  text := []
  base := .decimal

theorem encodes_42 : Encodes [0x18, 0x2A] (.int 42 .done) where
  reads := .unsigned rfl (.done [])
  one := rfl

theorem encodes_neg_42 : Encodes [0x38, 0x29] (.int (-42) .done) where
  reads := .negative rfl (.done [])
  one := rfl

/-- An array of an integer and a map. -/
def nestedItem : Items :=
  .container .array (.int 7 (.container .map (.int 1 (.int 42 .done)) .done)) .done

theorem encodes_nestedItem : Encodes [0x82, 0x07, 0xA1, 0x01, 0x18, 0x2A] nestedItem where
  reads := .definite rfl rfl (.unsigned rfl (.definite rfl rfl
    (.unsigned rfl (.unsigned rfl (.done []))) (.done []))) (.done [])
  one := rfl

theorem cborDump_faithful_iff_42 :
    (∃ text, DumpsTo referenceIterator referenceStream initialStream
        [0x82, 0x07, 0xA1, 0x01, 0x18, 0x2A] text ∧ Faithful nestedItem text) ∧
      ∃ text otherText, DumpsTo referenceIterator referenceStream initialStream [0x38, 0x29] text ∧
        DumpsTo referenceIterator referenceStream initialStream [0x18, 0x2A] otherText ∧
          text = otherText := by
  have both := cborDump_faithful_iff referenceIterator referenceStream initialStream
  constructor
  · obtain ⟨text, dumped, faithful⟩ := both.1 _ _ encodes_nestedItem (by unfold Room; decide)
    exact ⟨text, dumped, faithful.mpr (by decide)⟩
  · obtain ⟨text, otherText, dumped, otherDumped, differ⟩ := both.2 _ _ _ _ (-42) 42 (.here .done)
      encodes_neg_42 encodes_42 (by unfold Room; decide) (by unfold Room; decide)
    have alike : Alike true (-42) 42 := Or.inr (Or.inl ⟨rfl, Or.inl (by decide)⟩)
    exact ⟨text, otherText, dumped, otherDumped, not_not.mp (differ.not.mpr (not_not.mpr alike))⟩

/-- The messages that hold -42 and 42 are both dumped as 42. -/
theorem cborDump_neg_42 :
    DifferIn (-42) 42 (.int (-42) .done) (.int 42 .done) ∧
      Encodes [0x38, 0x29] (.int (-42) .done) ∧ Encodes [0x18, 0x2A] (.int 42 .done) ∧
        Room referenceStream initialStream (.int (-42) .done) ∧
          Room referenceStream initialStream (.int 42 .done) ∧
            DumpsTo referenceIterator referenceStream initialStream [0x38, 0x29] (ascii "42") ∧
              DumpsTo referenceIterator referenceStream initialStream [0x18, 0x2A] (ascii "42") ∧
                ¬ Faithful (.int (-42) .done) (ascii "42") := by
  have room : Room referenceStream initialStream (.int (-42) .done) := by
    unfold Room
    decide
  have otherRoom : Room referenceStream initialStream (.int 42 .done) := by
    unfold Room
    decide
  refine ⟨.here .done, encodes_neg_42, encodes_42, room, otherRoom, encodes_neg_42.dumpsTo room,
    encodes_42.dumpsTo otherRoom, ?_⟩
  unfold Faithful
  decide

end BrokerProxy.Codec
