/-
This file develops the part of RFC 8949 that messages of integers and strings use: the
encoding of item heads, integers, byte and text strings and indefinite-length arrays, and
a reader that walks through the elements of a container. The reader is a cursor: the
input from the current element on, and how many elements are left. It finds what it is
told to find in what was encoded, and what it finds does not depend on the input that
follows.
-/

import Mathlib.Algebra.Group.Int.Defs
import Mathlib.Algebra.Order.Group.Nat
import Mathlib.Data.List.Basic

namespace Cbor

/-! ### Heads -/

/-- A number in big-endian order. -/
def bigEndian : Nat → Nat → List UInt8
  | 0, _ => []
  | width + 1, value => UInt8.ofNat (value / 256 ^ width) :: bigEndian width value

/-- The number that bytes in big-endian order stand for. -/
def ofBigEndian (bytes : List UInt8) : Nat :=
  bytes.foldl (fun value byte => value * 256 + byte.toNat) 0

/-- The head of an item, its argument in the shortest form. -/
def encodeHead (major argument : Nat) : List UInt8 :=
  if argument < 24 then [UInt8.ofNat (32 * major + argument)]
  else if argument < 256 then UInt8.ofNat (32 * major + 24) :: bigEndian 1 argument
  else if argument < 256 ^ 2 then UInt8.ofNat (32 * major + 25) :: bigEndian 2 argument
  else if argument < 256 ^ 4 then UInt8.ofNat (32 * major + 26) :: bigEndian 4 argument
  else UInt8.ofNat (32 * major + 27) :: bigEndian 8 argument

/-- The head of an item: its major type, its argument unless the length is indefinite, and the
input after it. -/
structure Head where
  major : Nat
  argument : Option Nat
  rest : List UInt8
deriving DecidableEq

/-- Read a head. There is none at the end of the input, in front of a cut argument, and for the
reserved values of the additional information. -/
def decodeHead : List UInt8 → Option Head
  | [] => none
  | initial :: rest =>
      let major := initial.toNat / 32
      let info := initial.toNat % 32
      if info < 24 then some { major := major, argument := some info, rest := rest }
      else if info < 28 then
        let width := 2 ^ (info - 24)
        if width ≤ rest.length then
          some
            { major := major
              argument := some (ofBigEndian (rest.take width))
              rest := rest.drop width }
        else none
      else if info = 31 then some { major := major, argument := none, rest := rest }
      else none

theorem length_bigEndian (width value : Nat) : (bigEndian width value).length = width := by
  induction width with
  | zero => rfl
  | succ width inductionHypothesis =>
    rw [bigEndian, List.length_cons, inductionHypothesis]

/-- How long the head with an argument is. -/
def headLength (argument : Nat) : Nat :=
  if argument < 24 then 1
  else if argument < 256 then 2
  else if argument < 256 ^ 2 then 3
  else if argument < 256 ^ 4 then 5
  else 9

theorem length_encodeHead (major argument : Nat) :
    (encodeHead major argument).length = headLength argument := by
  unfold encodeHead headLength
  split
  · rfl
  · split
    · rfl
    · split
      · rfl
      · split <;> rfl

theorem foldl_bigEndian (width value start : Nat) :
    (bigEndian width value).foldl (fun value byte => value * 256 + byte.toNat) start =
      start * 256 ^ width + value % 256 ^ width := by
  induction width generalizing start with
  | zero => rw [bigEndian, List.foldl_nil, Nat.pow_zero, Nat.mod_one, Nat.mul_one, Nat.add_zero]
  | succ width inductionHypothesis =>
    have digit : (UInt8.ofNat (value / 256 ^ width)).toNat = value / 256 ^ width % 256 := by
      rw [UInt8.toNat_ofNat']
    have split : value % 256 ^ (width + 1) =
        value / 256 ^ width % 256 * 256 ^ width + value % 256 ^ width := by
      rw [Nat.pow_succ, Nat.mod_mul, Nat.add_comm, Nat.mul_comm]
    rw [bigEndian, List.foldl_cons, inductionHypothesis, digit, split, Nat.pow_succ, Nat.add_mul,
      Nat.mul_assoc, Nat.mul_comm 256, Nat.add_assoc]

theorem ofBigEndian_bigEndian {width value : Nat} (small : value < 256 ^ width) :
    ofBigEndian (bigEndian width value) = value := by
  rw [ofBigEndian, foldl_bigEndian, Nat.zero_mul, Nat.zero_add, Nat.mod_eq_of_lt small]

/-- Reading a long head: the additional information says how wide the argument is. -/
theorem decodeHead_long {major argument : Nat} (info : Nat) (majorSmall : major < 8)
    (long : 24 ≤ info) (known : info < 28) (small : argument < 256 ^ 2 ^ (info - 24))
    (rest : List UInt8) :
    decodeHead (UInt8.ofNat (32 * major + info) :: bigEndian (2 ^ (info - 24)) argument ++ rest) =
      some { major := major, argument := some argument, rest := rest } := by
  have initial : (UInt8.ofNat (32 * major + info)).toNat = 32 * major + info := by
    rw [UInt8.toNat_ofNat']
    omega
  have majorPart : (32 * major + info) / 32 = major := by omega
  have infoPart : (32 * major + info) % 32 = info := by omega
  have length := length_bigEndian (2 ^ (info - 24)) argument
  rw [List.cons_append, decodeHead, initial, majorPart, infoPart]
  simp only [if_neg (Nat.not_lt.mpr long), if_pos known]
  rw [if_pos (by rw [List.length_append, length]; exact Nat.le_add_right _ _),
    List.take_left' length, List.drop_left' length, ofBigEndian_bigEndian small]

/-- What was encoded as a head is read as this head. -/
theorem decodeHead_encodeHead {major argument : Nat} (majorSmall : major < 8)
    (small : argument < 2 ^ 64) (rest : List UInt8) :
    decodeHead (encodeHead major argument ++ rest) =
      some { major := major, argument := some argument, rest := rest } := by
  unfold encodeHead
  split
  · rename_i short
    have initial : (UInt8.ofNat (32 * major + argument)).toNat = 32 * major + argument := by
      rw [UInt8.toNat_ofNat']
      omega
    have majorPart : (32 * major + argument) / 32 = major := by omega
    have infoPart : (32 * major + argument) % 32 = argument := by omega
    rw [List.singleton_append, decodeHead, initial, majorPart, infoPart]
    simp only [if_pos short]
  split
  · rename_i fits
    exact decodeHead_long 24 majorSmall (by decide) (by decide) fits rest
  split
  · rename_i fits
    exact decodeHead_long 25 majorSmall (by decide) (by decide) fits rest
  split
  · rename_i fits
    exact decodeHead_long 26 majorSmall (by decide) (by decide) fits rest
  · exact decodeHead_long 27 majorSmall (by decide) (by decide) small rest

/-- A head that is there does not depend on the input after it. -/
theorem decodeHead_append {bytes : List UInt8} {head : Head} (found : decodeHead bytes = some head)
    (more : List UInt8) :
    decodeHead (bytes ++ more) = some { head with rest := head.rest ++ more } := by
  cases bytes with
  | nil => cases found
  | cons initial rest =>
    unfold decodeHead at found
    rw [List.cons_append, decodeHead]
    dsimp only at found ⊢
    split at found
    · rename_i short
      rw [if_pos short, ← Option.some.inj found]
    · rename_i long
      rw [if_neg long]
      split at found
      · rename_i known
        rw [if_pos known]
        split at found
        · rename_i complete
          rw [if_pos (by rw [List.length_append]; omega), ← Option.some.inj found,
            List.take_append_of_le_length complete, List.drop_append_of_le_length complete]
        · cases found
      · rename_i unknown
        rw [if_neg unknown]
        split at found
        · rename_i indefinite
          rw [if_pos indefinite, ← Option.some.inj found]
        · cases found

/-! ### Items -/

/-- An integer: major type 0 or 1. -/
def encodeInt : Int → List UInt8
  | .ofNat value => encodeHead 0 value
  | .negSucc value => encodeHead 1 value

/-- A byte string: major type 2. -/
def encodeBytes (body : List UInt8) : List UInt8 := encodeHead 2 body.length ++ body

/-- A text string: major type 3. -/
def encodeText (body : List UInt8) : List UInt8 := encodeHead 3 body.length ++ body

/-- How long a string is. -/
def stringLength (body : List UInt8) : Nat := headLength body.length + body.length

theorem length_le_stringLength (body : List UInt8) : body.length ≤ stringLength body :=
  Nat.le_add_left _ _

theorem length_encodeBytes (body : List UInt8) :
    (encodeBytes body).length = stringLength body := by
  rw [encodeBytes, List.length_append, length_encodeHead, stringLength]

theorem length_encodeText (body : List UInt8) : (encodeText body).length = stringLength body := by
  rw [encodeText, List.length_append, length_encodeHead, stringLength]

/-- The head of an array of indefinite length. -/
def arrayStart : UInt8 := 0x9F

/-- The end of an item of indefinite length. -/
def breakByte : UInt8 := 0xFF

/-- An array of indefinite length, given the encodings of its elements. -/
def encodeArray (elements : List (List UInt8)) : List UInt8 :=
  arrayStart :: (elements.flatten ++ [breakByte])

/-- The chunks of a string of indefinite length, and the input after its break byte. -/
def chunks (major : Nat) : Nat → List UInt8 → Option (List UInt8 × List UInt8)
  | 0, _ => none
  | _, [] => none
  | fuel + 1, first :: rest =>
      if first = breakByte then some ([], rest)
      else
        match decodeHead (first :: rest) with
        | some { major := kind, argument := some length, rest := body } =>
            if kind = major ∧ length ≤ body.length then
              (chunks major fuel (body.drop length)).map fun later =>
                (body.take length ++ later.1, later.2)
            else none
        | _ => none

/-- The characters of a string after its head, and the input after the string, if the string is
there completely. -/
def stringBody (head : Head) : Option (List UInt8 × List UInt8) :=
  match head.argument with
  | some length =>
      if length ≤ head.rest.length then some (head.rest.take length, head.rest.drop length)
      else none
  | none => chunks head.major (head.rest.length + 1) head.rest

theorem chunks_append {major fuel : Nat} {bytes body rest : List UInt8}
    (found : chunks major fuel bytes = some (body, rest)) (extra : Nat) (more : List UInt8) :
    chunks major (fuel + extra) (bytes ++ more) = some (body, rest ++ more) := by
  induction fuel generalizing bytes body with
  | zero => cases found
  | succ fuel inductionHypothesis =>
    cases bytes with
    | nil => cases found
    | cons first later =>
      rw [Nat.add_right_comm, List.cons_append]
      unfold chunks at found ⊢
      split at found
      · rename_i isBreak
        rw [if_pos isBreak]
        cases found
        rfl
      · rename_i notBreak
        rw [if_neg notBreak]
        split at found
        · rename_i kind length content decoded
          have extended := decodeHead_append decoded more
          rw [List.cons_append] at extended
          rw [extended]
          split at found
          · rename_i complete
            obtain ⟨⟨tail, after⟩, remaining, same⟩ := Option.map_eq_some_iff.mp found
            cases same
            have further := inductionHypothesis remaining
            dsimp only
            rw [if_pos ⟨complete.1, by rw [List.length_append]; omega⟩,
              List.drop_append_of_le_length complete.2,
              List.take_append_of_le_length complete.2, further]
            rfl
          · cases found
        · cases found

/-- A string that is there completely does not depend on the input after it. -/
theorem stringBody_append {head : Head} {body rest : List UInt8}
    (found : stringBody head = some (body, rest)) (more : List UInt8) :
    stringBody { head with rest := head.rest ++ more } = some (body, rest ++ more) := by
  unfold stringBody at found ⊢
  cases argument : head.argument with
  | some length =>
    simp only [argument] at found ⊢
    split at found
    · rename_i complete
      cases found
      rw [if_pos (by rw [List.length_append]; omega), List.take_append_of_le_length complete,
        List.drop_append_of_le_length complete]
    · cases found
  | none =>
    simp only [argument] at found ⊢
    rw [List.length_append, Nat.add_right_comm]
    exact chunks_append found more.length more

/-! ### Reading a container -/

/-- What a reader finds at an element of a container. An integer and a string come with the input
after them, a string only if it is there completely. Another item is not looked into. There may
also be the end of the container, no head at all, a head that no well-formed item has, or the end
of a map of indefinite length where the value of a key is due. -/
inductive Element
  | int (value : Int) (rest : List UInt8)
  | bytes (content : Option (List UInt8 × List UInt8))
  | text (content : Option (List UInt8 × List UInt8))
  | other
  | stop
  | broken
  | malformed
  | unpaired
deriving DecidableEq

/-- An element whose head is well formed, or the end. -/
def Element.usable : Element → Bool
  | .broken | .malformed | .unpaired => false
  | _ => true

/-- The kinds of an element. -/
def Element.isInt : Element → Bool
  | .int _ _ => true
  | _ => false

def Element.isUnsigned : Element → Bool
  | .int value _ => 0 ≤ value
  | _ => false

def Element.isBytes : Element → Bool
  | .bytes _ => true
  | _ => false

def Element.isText : Element → Bool
  | .text _ => true
  | _ => false

/-- The input after an integer or a string that is there completely. -/
def Element.next : Element → Option (List UInt8)
  | .int _ rest | .bytes (some (_, rest)) | .text (some (_, rest)) => some rest
  | _ => none

/-- An element with more input after what it has. -/
def Element.append (more : List UInt8) : Element → Element
  | .int value rest => .int value (rest ++ more)
  | .bytes content => .bytes (content.map fun found => (found.1, found.2 ++ more))
  | .text content => .text (content.map fun found => (found.1, found.2 ++ more))
  | element => element

/-- A simple value or a floating-point number. A simple value below 32 must not take a byte of its
own. -/
def simpleItem (bytes : List UInt8) (value : Nat) : Element :=
  if bytes.head? = some 0xF8 ∧ value < 32 then .malformed else .other

/-- The item at the start of the input. -/
def item (bytes : List UInt8) : Element :=
  match decodeHead bytes with
  | none => .broken
  | some head =>
      match head.major, head.argument with
      | 0, some value => .int value head.rest
      | 1, some value => .int (.negSucc value) head.rest
      | 2, _ => .bytes (stringBody head)
      | 3, _ => .text (stringBody head)
      | 7, none => .broken
      | 7, some value => simpleItem bytes value
      | 0, none | 1, none | 6, none => .malformed
      | _, _ => .other

/-- A position in a container: the input from the current element on, the number of elements
left unless the length is indefinite, and, in a map of indefinite length, whether the value of a
key is due. -/
structure Cursor where
  rest : List UInt8
  remaining : Option Nat
  due : Option Bool := none
deriving DecidableEq

namespace Cursor

/-- The first element of the array or map at the start of the input. -/
def enter (bytes : List UInt8) : Option Cursor :=
  match decodeHead bytes with
  | some { major := 4, argument := count, rest := rest } =>
      some { rest := rest, remaining := count }
  | some { major := 5, argument := some count, rest := rest } =>
      some { rest := rest, remaining := some (2 * count) }
  | some { major := 5, argument := none, rest := rest } =>
      some { rest := rest, remaining := none, due := some false }
  | _ => none

/-- The current element. -/
def element (cursor : Cursor) : Element :=
  if cursor.remaining = some 0 then .stop
  else if cursor.remaining = none ∧ cursor.rest.head? = some breakByte then
    if cursor.due = some true then .unpaired else .stop
  else item cursor.rest

/-- The element after an integer or a string. -/
def next (cursor : Cursor) : Option Cursor :=
  cursor.element.next.map fun rest =>
    { rest := rest, remaining := cursor.remaining.map (· - 1), due := cursor.due.map (!·) }

end Cursor

theorem next_simpleItem (bytes : List UInt8) (value : Nat) :
    (simpleItem bytes value).next = none := by
  unfold simpleItem
  split <;> rfl

/-- An integer or a string that is there completely does not depend on the input after it. -/
theorem item_append {bytes : List UInt8} (complete : (item bytes).next ≠ none)
    (more : List UInt8) : item (bytes ++ more) = (item bytes).append more := by
  unfold item at complete ⊢
  cases decoded : decodeHead bytes with
  | none =>
    rw [decoded] at complete
    exact absurd rfl complete
  | some head =>
    rw [decodeHead_append decoded more]
    rw [decoded] at complete
    dsimp only at complete ⊢
    split at complete
    · rfl
    · rfl
    · rename_i major
      cases found : stringBody head with
      | none =>
        rw [found] at complete
        exact absurd rfl complete
      | some content =>
        rw [stringBody_append found more]
        rfl
    · rename_i major
      cases found : stringBody head with
      | none =>
        rw [found] at complete
        exact absurd rfl complete
      | some content =>
        rw [stringBody_append found more]
        rfl
    · exact absurd rfl complete
    · exact absurd (next_simpleItem _ _) complete
    all_goals exact absurd rfl complete

/-- What a cut item is taken for, if more input makes it an integer or a string: the same item
without the rest, or something that is not there completely. -/
theorem item_of_append {bytes more : List UInt8} (complete : (item (bytes ++ more)).next ≠ none) :
    (item bytes).append more = item (bytes ++ more) ∨ item bytes = .broken ∨
      item bytes = .bytes none ∨ item bytes = .text none := by
  by_cases there : (item bytes).next = none
  · refine Or.inr ?_
    unfold item at complete there ⊢
    cases decoded : decodeHead bytes with
    | none => exact Or.inl rfl
    | some head =>
      rw [decodeHead_append decoded more] at complete
      rw [decoded] at there
      dsimp only at complete there ⊢
      revert there complete
      split
      · exact fun there _ => by cases there
      · exact fun there _ => by cases there
      · intro there _
        refine Or.inr (Or.inl ?_)
        cases found : stringBody head with
        | none => rfl
        | some content =>
          rw [found] at there
          cases there
      · intro there _
        refine Or.inr (Or.inr ?_)
        cases found : stringBody head with
        | none => rfl
        | some content =>
          rw [found] at there
          cases there
      · exact fun _ _ => Or.inl rfl
      · exact fun _ complete => absurd (next_simpleItem _ _) complete
      all_goals exact fun _ complete => absurd rfl complete
  · exact Or.inl (item_append there more).symm

theorem Element.next_append (element : Element) (more : List UInt8) :
    (element.append more).next = element.next.map (· ++ more) := by
  cases element with
  | bytes content | text content => cases content <;> rfl
  | _ => rfl

theorem Element.int_of_append {element : Element} {more rest : List UInt8} {value : Int}
    (same : element.append more = .int value rest) : ∃ before, element = .int value before := by
  cases element with
  | int _ before =>
    cases same
    exact ⟨before, rfl⟩
  | _ => cases same

theorem Element.bytes_of_append {element : Element} {more body rest : List UInt8}
    (same : element.append more = .bytes (some (body, rest))) :
    ∃ before, element = .bytes (some (body, before)) := by
  cases element with
  | bytes content =>
    obtain ⟨⟨_, before⟩, rfl, found⟩ := Option.map_eq_some_iff.mp (Element.bytes.inj same)
    cases found
    exact ⟨before, rfl⟩
  | _ => cases same

theorem Element.text_of_append {element : Element} {more body rest : List UInt8}
    (same : element.append more = .text (some (body, rest))) :
    ∃ before, element = .text (some (body, before)) := by
  cases element with
  | text content =>
    obtain ⟨⟨_, before⟩, rfl, found⟩ := Option.map_eq_some_iff.mp (Element.text.inj same)
    cases found
    exact ⟨before, rfl⟩
  | _ => cases same

namespace Cursor

/-- In a container of indefinite length an item that is there completely is the element. -/
theorem element_of_item {bytes : List UInt8} (complete : (item bytes).next ≠ none) :
    (Cursor.mk bytes none none).element = item bytes := by
  unfold element
  rw [if_neg nofun, if_neg]
  rintro ⟨-, first⟩
  cases bytes with
  | nil => cases first
  | cons byte rest =>
    rw [List.head?_cons, Option.some_inj] at first
    rw [first] at complete
    exact absurd rfl complete

/-- What stands at an item that is complete with more input: nothing that is complete, or the same
element without the additional input. -/
theorem element_of_append {bytes more rest : List UInt8} {element : Element}
    (found : item (bytes ++ more) = element) (complete : element.next = some rest) :
    ((Cursor.mk bytes none none).element = .broken ∨
        (Cursor.mk bytes none none).element = .bytes none ∨
        (Cursor.mk bytes none none).element = .text none) ∨
      ∃ before, (Cursor.mk bytes none none).next = some { rest := before, remaining := none } ∧
        before ++ more = rest ∧ (Cursor.mk bytes none none).element.append more = element := by
  have same : (Cursor.mk bytes none none).element = item bytes := by
    unfold Cursor.element
    rw [if_neg nofun, if_neg]
    rintro ⟨-, first⟩
    cases bytes with
    | nil => cases first
    | cons byte later =>
      rw [List.head?_cons, Option.some_inj] at first
      rw [first] at found
      rw [← found] at complete
      cases complete
  have there : (item (bytes ++ more)).next ≠ none := by
    rw [found, complete]
    nofun
  rw [same]
  rcases item_of_append there with whole | cut
  · rw [found] at whole
    have next := Element.next_append (item bytes) more
    rw [whole, complete] at next
    obtain ⟨before, left, right⟩ := Option.map_eq_some_iff.mp next.symm
    refine Or.inr ⟨before, ?_, right, whole⟩
    rw [Cursor.next, same, left]
    rfl
  · exact Or.inl cut

end Cursor

/-! ### More input -/

namespace Cursor

/-- A position with more input after it. -/
def extend (more : List UInt8) (cursor : Cursor) : Cursor :=
  { cursor with rest := cursor.rest ++ more }

/-- An element that is there completely does not depend on the input after it. -/
theorem element_extend {cursor : Cursor} (complete : cursor.element.next ≠ none)
    (more : List UInt8) : (cursor.extend more).element = cursor.element.append more := by
  unfold element at complete ⊢
  split at complete
  · exact absurd rfl complete
  · rename_i inside
    split at complete
    · split at complete
      · exact absurd rfl complete
      · exact absurd rfl complete
    · rename_i unbroken
      have first : (cursor.rest ++ more).head? = cursor.rest.head? := by
        cases input : cursor.rest with
        | nil =>
          rw [input] at complete
          exact absurd rfl complete
        | cons byte rest => rfl
      rw [if_neg inside, if_neg unbroken]
      have unbroken : ¬ (cursor.remaining = none ∧
          (cursor.rest ++ more).head? = some breakByte) := by
        rw [first]
        exact unbroken
      exact (if_neg inside).trans ((if_neg unbroken).trans (item_append complete more))

theorem next_extend {cursor after : Cursor} (next : cursor.next = some after)
    (more : List UInt8) : (cursor.extend more).next = some (after.extend more) := by
  obtain ⟨rest, found, rfl⟩ := Option.map_eq_some_iff.mp next
  have complete : cursor.element.next ≠ none := by
    rw [found]
    nofun
  rw [Cursor.next, element_extend complete, Element.next_append, found]
  rfl

theorem enter_extend {bytes : List UInt8} {cursor : Cursor} (entered : enter bytes = some cursor)
    (more : List UInt8) : enter (bytes ++ more) = some (cursor.extend more) := by
  unfold enter at entered ⊢
  split at entered
  · rename_i found
    cases entered
    rw [decodeHead_append found]
    rfl
  · rename_i found
    cases entered
    rw [decodeHead_append found]
    rfl
  · rename_i found
    cases entered
    rw [decodeHead_append found]
    rfl
  · cases entered

end Cursor

/-! ### Maps of indefinite length -/

theorem item_ne_unpaired (bytes : List UInt8) : item bytes ≠ .unpaired := by
  unfold item
  split
  · nofun
  · split
    · nofun
    · nofun
    · nofun
    · nofun
    · nofun
    · unfold simpleItem
      split <;> nofun
    all_goals nofun

namespace Cursor

theorem due_of_next {cursor after : Cursor} (next : cursor.next = some after) :
    after.due = cursor.due.map (!·) := by
  obtain ⟨rest, -, rfl⟩ := Option.map_eq_some_iff.mp next
  rfl

/-- At the first element no value is due. -/
theorem due_of_enter {bytes : List UInt8} {cursor : Cursor} (entered : enter bytes = some cursor) :
    cursor.due ≠ some true := by
  unfold enter at entered
  split at entered
  · cases entered
    nofun
  · cases entered
    nofun
  · cases entered
    nofun
  · cases entered

theorem due_of_unpaired {cursor : Cursor} (unpaired : cursor.element = .unpaired) :
    cursor.due = some true := by
  unfold element at unpaired
  split at unpaired
  · cases unpaired
  · split at unpaired
    · split at unpaired
      · rename_i due
        exact due
      · cases unpaired
    · exact absurd unpaired (item_ne_unpaired _)

end Cursor

/-! ### Reading what was encoded -/

theorem item_encodeInt {value : Int} (lower : -2 ^ 64 ≤ value) (upper : value < 2 ^ 64)
    (rest : List UInt8) : item (encodeInt value ++ rest) = .int value rest := by
  cases value with
  | ofNat value =>
    have small : (value : Int) < 2 ^ 64 := upper
    rw [item, encodeInt, decodeHead_encodeHead (by decide) (by omega)]
    rfl
  | negSucc value =>
    rw [item, encodeInt, decodeHead_encodeHead (by decide) (by omega)]
    rfl

theorem item_encodeBytes {body : List UInt8} (small : body.length < 2 ^ 64)
    (rest : List UInt8) : item (encodeBytes body ++ rest) = .bytes (some (body, rest)) := by
  rw [item, encodeBytes, List.append_assoc, decodeHead_encodeHead (by decide) small]
  show Element.bytes (stringBody _) = _
  rw [stringBody]
  dsimp only
  rw [if_pos (by rw [List.length_append]; exact Nat.le_add_right _ _), List.take_left' rfl,
    List.drop_left' rfl]

theorem item_encodeText {body : List UInt8} (small : body.length < 2 ^ 64)
    (rest : List UInt8) : item (encodeText body ++ rest) = .text (some (body, rest)) := by
  rw [item, encodeText, List.append_assoc, decodeHead_encodeHead (by decide) small]
  show Element.text (stringBody _) = _
  rw [stringBody]
  dsimp only
  rw [if_pos (by rw [List.length_append]; exact Nat.le_add_right _ _), List.take_left' rfl,
    List.drop_left' rfl]

/-- In a container of indefinite length a complete item is the element, and the reader moves on
to the input after it. -/
theorem Cursor.element_next {bytes rest : List UInt8} {element : Element}
    (found : item bytes = element) (complete : element.next = some rest) :
    (Cursor.mk bytes none none).element = element ∧
      (Cursor.mk bytes none none).next = some { rest := rest, remaining := none } := by
  have same : (Cursor.mk bytes none none).element = element := by
    rw [Cursor.element_of_item, found]
    rw [found, complete]
    nofun
  refine ⟨same, ?_⟩
  rw [Cursor.next, same, complete]
  rfl

/-- The reader enters an array of indefinite length at its first element. -/
theorem enter_arrayStart (rest : List UInt8) :
    Cursor.enter (arrayStart :: rest) = some { rest := rest, remaining := none } := rfl

theorem element_breakByte (rest : List UInt8) :
    (Cursor.mk (breakByte :: rest) none none).element = .stop := rfl

end Cbor
