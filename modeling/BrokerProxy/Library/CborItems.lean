/-
This file develops well-formed CBOR items that are built from integers, arrays and maps,
of any nesting, with heads of any width and lengths that are definite or not. A sequence of
items is given as what it starts with and what comes after; a relation says which input
holds it, and how a cursor walks over it, into its containers and out of them.
-/

import BrokerProxy.Library.Cbor

namespace Cbor

/-! ### Items -/

/-- The two kinds of containers. -/
inductive ContainerKind
  | array
  | map
deriving DecidableEq

/-- The major type of a container. -/
def ContainerKind.major : ContainerKind → Nat
  | .array => 4
  | .map => 5

/-- The number of items that a count in the head of a container stands for. -/
def ContainerKind.items : ContainerKind → Nat → Nat
  | .array, count => count
  | .map, count => 2 * count

/-- A sequence of items. The content of a map alternates keys and values. -/
inductive Items
  | done
  | int (value : Int) (after : Items)
  | container (kind : ContainerKind) (content after : Items)
deriving DecidableEq

namespace Items

/-- The number of items of the sequence, without those inside of its containers. -/
def length : Items → Nat
  | .done => 0
  | .int _ after | .container _ _ after => after.length + 1

/-- All integers, in order. -/
def integers : Items → List Int
  | .done => []
  | .int value after => value :: after.integers
  | .container _ content after => content.integers ++ after.integers

end Items

/-- Two sequences of items that are the same but for one integer. -/
inductive DifferIn (value other : Int) : Items → Items → Prop
  | here (after : Items) : DifferIn value other (.int value after) (.int other after)
  | behind (first : Int) {after otherAfter : Items}
      (differ : DifferIn value other after otherAfter) :
      DifferIn value other (.int first after) (.int first otherAfter)
  | inside (kind : ContainerKind) {content otherContent : Items} (after : Items)
      (differ : DifferIn value other content otherContent) :
      DifferIn value other (.container kind content after) (.container kind otherContent after)
  | outside (kind : ContainerKind) (content : Items) {after otherAfter : Items}
      (differ : DifferIn value other after otherAfter) :
      DifferIn value other (.container kind content after) (.container kind content otherAfter)

/-- The integers before and after the one that differs are the same. -/
theorem DifferIn.integers {value other : Int} {first second : Items}
    (differ : DifferIn value other first second) :
    ∃ before after, first.integers = before ++ value :: after ∧
      second.integers = before ++ other :: after := by
  induction differ with
  | here after => exact ⟨[], after.integers, rfl, rfl⟩
  | behind item differ inductionHypothesis =>
    obtain ⟨before, after, one, two⟩ := inductionHypothesis
    exact ⟨item :: before, after, congrArg (item :: ·) one, congrArg (item :: ·) two⟩
  | inside kind rest differ inductionHypothesis =>
    obtain ⟨before, after, one, two⟩ := inductionHypothesis
    refine ⟨before, after ++ rest.integers, ?_, ?_⟩
    · rw [Items.integers, one, List.append_assoc, List.cons_append]
    · rw [Items.integers, two, List.append_assoc, List.cons_append]
  | outside kind content differ inductionHypothesis =>
    obtain ⟨before, after, one, two⟩ := inductionHypothesis
    refine ⟨content.integers ++ before, after, ?_, ?_⟩
    · rw [Items.integers, one, List.append_assoc]
    · rw [Items.integers, two, List.append_assoc]

/-! ### The input that holds items -/

/-- An input starts with a sequence of items, and another input follows them. -/
inductive Reads : List UInt8 → Items → List UInt8 → Prop
  | done (bytes : List UInt8) : Reads bytes .done bytes
  | unsigned {bytes middle rest : List UInt8} {value : Nat} {after : Items}
      (head : decodeHead bytes = some { major := 0, argument := some value, rest := middle })
      (others : Reads middle after rest) : Reads bytes (.int value after) rest
  | negative {bytes middle rest : List UInt8} {value : Nat} {after : Items}
      (head : decodeHead bytes = some { major := 1, argument := some value, rest := middle })
      (others : Reads middle after rest) : Reads bytes (.int (.negSucc value) after) rest
  | definite {bytes start middle rest : List UInt8} {kind : ContainerKind} {count : Nat}
      {content after : Items}
      (head : decodeHead bytes =
        some { major := kind.major, argument := some count, rest := start })
      (counted : content.length = kind.items count) (inner : Reads start content middle)
      (others : Reads middle after rest) : Reads bytes (.container kind content after) rest
  | indefinite {bytes start middle rest : List UInt8} {kind : ContainerKind} {content after : Items}
      (head : decodeHead bytes = some { major := kind.major, argument := none, rest := start })
      (paired : kind = .map → content.length % 2 = 0)
      (inner : Reads start content (breakByte :: middle))
      (others : Reads middle after rest) : Reads bytes (.container kind content after) rest

theorem ofBigEndian_lt (bytes : List UInt8) : ofBigEndian bytes < 256 ^ bytes.length := by
  have bounded : ∀ (bytes : List UInt8) (start : Nat),
      bytes.foldl (fun value byte => value * 256 + byte.toNat) start <
        (start + 1) * 256 ^ bytes.length := by
    intro bytes
    induction bytes with
    | nil =>
      intro start
      rw [List.foldl_nil, List.length_nil, Nat.pow_zero, Nat.mul_one]
      exact Nat.lt_succ_self start
    | cons byte rest inductionHypothesis =>
      intro start
      have small := byte.toNat_lt
      rw [List.foldl_cons, List.length_cons, Nat.pow_succ', ← Nat.mul_assoc]
      refine (inductionHypothesis _).trans_le (Nat.mul_le_mul_right _ ?_)
      omega
  have whole := bounded bytes 0
  rwa [Nat.zero_add, Nat.one_mul] at whole

/-- The argument of a head fits 64 bits. -/
theorem argument_lt {bytes : List UInt8} {head : Head} {argument : Nat}
    (found : decodeHead bytes = some head) (isArgument : head.argument = some argument) :
    argument < 2 ^ 64 := by
  unfold decodeHead at found
  split at found
  · cases found
  · rename_i initial rest
    dsimp only at found
    split at found
    · rename_i short
      cases found
      cases isArgument
      omega
    · split at found
      · rename_i long
        split at found
        · rename_i complete
          cases found
          cases isArgument
          refine (ofBigEndian_lt _).trans_le ?_
          rw [List.length_take, Nat.min_eq_left complete, show 256 = 2 ^ 8 from rfl, ← Nat.pow_mul]
          refine Nat.pow_le_pow_right (by omega) ?_
          have width : 2 ^ (initial.toNat % 32 - 24) ≤ 2 ^ 3 :=
            Nat.pow_le_pow_right (by omega) (by omega)
          omega
        · cases found
      · split at found
        · cases found
          cases isArgument
        · cases found

/-- Integers are those that fit a head. -/
theorem Reads.integer_bounds {bytes rest : List UInt8} {items : Items}
    (reads : Reads bytes items rest) :
    ∀ value ∈ items.integers, -2 ^ 64 ≤ value ∧ value < 2 ^ 64 := by
  induction reads with
  | done => exact nofun
  | unsigned head others inductionHypothesis =>
    have small := argument_lt head rfl
    exact List.forall_mem_cons.mpr ⟨⟨by omega, by omega⟩, inductionHypothesis⟩
  | negative head others inductionHypothesis =>
    have small := argument_lt head rfl
    refine List.forall_mem_cons.mpr ⟨⟨?_, ?_⟩, inductionHypothesis⟩
    · rw [Int.negSucc_eq]
      omega
    · rw [Int.negSucc_eq]
      omega
  | definite head counted inner others innerHypothesis othersHypothesis =>
    exact List.forall_mem_append.mpr ⟨innerHypothesis, othersHypothesis⟩
  | indefinite head paired inner others innerHypothesis othersHypothesis =>
    exact List.forall_mem_append.mpr ⟨innerHypothesis, othersHypothesis⟩

/-! ### Walking over items -/

namespace Cursor

/-- The cursor behind its element, given the input there. -/
def skip (cursor : Cursor) (rest : List UInt8) : Cursor where
  rest := rest
  remaining := cursor.remaining.map (· - 1)
  due := cursor.due.map (!·)

/-- The cursor behind a container, given the cursor at the end of its content. -/
def leave (outer inner : Cursor) : Cursor :=
  outer.skip (if inner.remaining = none then inner.rest.tail else inner.rest)

/-- A cursor stands in front of items that are followed by an input. -/
structure Before (cursor : Cursor) (items : Items) (rest : List UInt8) : Prop where
  reads : Reads cursor.rest items rest
  counted : ∀ count, cursor.remaining = some count → count = items.length
  ended : cursor.remaining = none → rest.head? = some breakByte
  due : ∀ due, cursor.due = some due → (due = true ↔ items.length % 2 = 1)

end Cursor

/-- The end of a container of indefinite length is not the head of an item built here. -/
theorem head?_ne_breakByte {bytes rest : List UInt8} {major : Nat} {argument : Option Nat}
    (head : decodeHead bytes = some { major := major, argument := argument, rest := rest })
    (item : major < 7) : bytes.head? ≠ some breakByte := by
  intro ended
  cases bytes with
  | nil => cases ended
  | cons initial others =>
    obtain rfl : initial = breakByte := Option.some.inj ended
    have closing : decodeHead (breakByte :: others) =
        some { major := 7, argument := none, rest := others } := rfl
    rw [closing] at head
    cases head
    exact absurd item (lt_irrefl 7)

theorem ContainerKind.major_lt (kind : ContainerKind) : kind.major < 7 := by
  cases kind with
  | array => decide
  | map => decide

namespace Cursor.Before

variable {cursor : Cursor} {rest : List UInt8}

theorem rest_eq (before : cursor.Before .done rest) : cursor.rest = rest := by
  cases before.reads
  rfl

/-- Behind the last item the container ends. -/
theorem element_done (before : cursor.Before .done rest) : cursor.element = .stop := by
  unfold Cursor.element
  cases remaining : cursor.remaining with
  | some count =>
    rw [before.counted count remaining]
    exact if_pos rfl
  | none =>
    have undue : cursor.due ≠ some true :=
      fun due => absurd ((before.due true due).mp rfl) (by decide)
    rw [if_neg (Option.some_ne_none 0).symm,
      if_pos ⟨rfl, before.rest_eq.symm ▸ before.ended remaining⟩, if_neg undue]

/-- In front of an item it does not. -/
theorem element_eq_item {items : Items} (before : cursor.Before items rest) {major : Nat}
    {argument : Option Nat} {middle : List UInt8}
    (head : decodeHead cursor.rest =
      some { major := major, argument := argument, rest := middle })
    (isItem : major < 7) (some : items.length ≠ 0) : cursor.element = item cursor.rest := by
  unfold Cursor.element
  rw [if_neg fun zero => some (before.counted 0 zero).symm,
    if_neg fun both => head?_ne_breakByte head isItem both.2]

/-- The invariant behind the first item. -/
theorem skip {items after : Items} (before : cursor.Before items rest)
    (length : items.length = after.length + 1) {middle : List UInt8}
    (others : Reads middle after rest) : (cursor.skip middle).Before after rest where
  reads := others
  counted := by
    intro count remaining
    obtain ⟨number, was, rfl⟩ := Option.map_eq_some_iff.mp remaining
    rw [before.counted number was, length]
    rfl
  ended remaining := before.ended (Option.map_eq_none_iff.mp remaining)
  due := by
    intro due isDue
    obtain ⟨was, wasDue, rfl⟩ := Option.map_eq_some_iff.mp isDue
    have parity := before.due was wasDue
    rw [length] at parity
    cases was with
    | true => exact ⟨nofun, fun odd => absurd (parity.mp rfl) (by omega)⟩
    | false =>
      refine ⟨fun _ => ?_, fun _ => rfl⟩
      by_contra even
      exact absurd (parity.mpr (by omega)) Bool.false_ne_true

/-- In front of an integer the reader finds it, and the next cursor stands behind it. -/
theorem int {value : Int} {after : Items} (before : cursor.Before (.int value after) rest) :
    ∃ middle, cursor.element = .int value middle ∧ cursor.next = some (cursor.skip middle) ∧
      (cursor.skip middle).Before after rest := by
  have found : ∃ middle, cursor.element = .int value middle ∧ Reads middle after rest := by
    cases before.reads with
    | unsigned head others =>
      refine ⟨_, ?_, others⟩
      rw [before.element_eq_item head (by omega) (Nat.succ_ne_zero _), item, head]
      rfl
    | negative head others =>
      refine ⟨_, ?_, others⟩
      rw [before.element_eq_item head (by omega) (Nat.succ_ne_zero _), item, head]
      rfl
  obtain ⟨middle, element, others⟩ := found
  refine ⟨middle, element, ?_, before.skip rfl others⟩
  rw [Cursor.next, element]
  rfl

/-- At the start of the content of a container of definite length. -/
theorem of_definite {start middle : List UInt8} {kind : ContainerKind} {count : Nat}
    {content : Items} (counted : content.length = kind.items count)
    (inner : Reads start content middle) :
    Cursor.Before { rest := start, remaining := some (kind.items count) } content middle where
  reads := inner
  counted := by
    rintro number ⟨⟩
    exact counted.symm
  ended := nofun
  due := nofun

/-- At the start of the content of a container of indefinite length. -/
theorem of_indefinite {start middle : List UInt8} {kind : ContainerKind} {content : Items}
    (paired : kind = .map → content.length % 2 = 0)
    (inner : Reads start content (breakByte :: middle)) :
    Cursor.Before
      { rest := start, remaining := none, due := if kind = .map then some false else none }
      content (breakByte :: middle) where
  reads := inner
  counted := nofun
  ended _ := rfl
  due := by
    intro due isDue
    cases kind with
    | array => cases isDue
    | map =>
      cases isDue
      have even := paired rfl
      exact ⟨nofun, fun odd => by omega⟩

/-- In front of a container the reader finds neither an integer nor a string; it can be entered, and
behind its content it is left for what comes after it. -/
theorem container {kind : ContainerKind} {content after : Items}
    (before : cursor.Before (.container kind content after) rest) :
    cursor.element = .other ∧
      (∃ argument start, decodeHead cursor.rest =
        some { major := kind.major, argument := argument, rest := start }) ∧
      ∃ inner final, Cursor.enter cursor.rest = some inner ∧ inner.Before content final ∧
        ∀ last : Cursor, last.Before .done final →
          last.remaining.isSome = inner.remaining.isSome →
            (cursor.leave last).Before after rest := by
  have other : ∀ {argument start}, decodeHead cursor.rest =
      some { major := kind.major, argument := argument, rest := start } →
        cursor.element = .other := by
    intro argument start head
    rw [before.element_eq_item head kind.major_lt (Nat.succ_ne_zero _), item, head]
    cases kind with
    | array => rfl
    | map => rfl
  cases before.reads with
  | definite head counted inner others =>
    refine ⟨other head, ⟨_, _, head⟩, _, _, ?_, of_definite counted inner,
      fun last atEnd sameKind => ?_⟩
    · rw [Cursor.enter, head]
      cases kind with
      | array => rfl
      | map => rfl
    · have some : last.remaining ≠ none := Option.isSome_iff_ne_none.mp sameKind
      rw [Cursor.leave, if_neg some, atEnd.rest_eq]
      exact before.skip rfl others
  | indefinite head paired inner others =>
    refine ⟨other head, ⟨_, _, head⟩, _, _, ?_, of_indefinite paired inner,
      fun last atEnd sameKind => ?_⟩
    · rw [Cursor.enter, head]
      cases kind with
      | array => rfl
      | map => rfl
    · have none : last.remaining = none :=
        Option.isNone_iff_eq_none.mp (Option.isSome_eq_false_iff.mp sameKind)
      rw [Cursor.leave, if_pos none, atEnd.rest_eq]
      exact before.skip rfl others

/-- Wherever a cursor stands before items, it stands at a well-formed element or at the end. -/
theorem usable {items : Items} (before : cursor.Before items rest) :
    cursor.element.usable = true := by
  cases items with
  | done => rw [before.element_done]; rfl
  | int value after =>
    obtain ⟨middle, element, -⟩ := before.int
    rw [element]
    rfl
  | container kind content after =>
    rw [before.container.1]
    rfl

end Cursor.Before

end Cbor
