/-
This file models how `BrokerIceoryx` names a topic and what it sends. A topic becomes a
service description of three identifiers, the second to the fourth of its segments, and a
payload is copied into an array of 1024 bytes without a bound.

Two topics therefore share their subscribers as soon as those three segments agree, for
instance a topic under `src/` and the same one under `dst/`, and a payload longer than the
array is written past its end.

The identifiers are strings of a fixed capacity of the iceoryx library, which is not part
of the repository; they are a parameter with their documented behaviour.
-/

import BrokerProxy.Redis.TopicParts
import Mathlib.Algebra.Group.Nat.Defs

namespace BrokerProxy.Broker

open Redis

/-! ### The library -/

/-- `IdString_t`: a string of a fixed capacity. `unsafe_assign` replaces it by a string that fits,
and leaves it alone otherwise. -/
structure IdStrings (IdString : Type) where
  capacity : Nat
  empty : IdString
  unsafeAssign : IdString → Bytes → IdString
  text : IdString → Bytes
  text_injective : ∀ first second, text first = text second → first = second
  text_empty : text empty = []
  text_assign : ∀ id str, str.length ≤ capacity → text (unsafeAssign id str) = str
  assign_long : ∀ id str, capacity < str.length → unsafeAssign id str = id

/-- `ServiceDescription`. -/
structure ServiceDescription (IdString : Type) where
  service : IdString
  instanceId : IdString
  event : IdString
deriving DecidableEq

/-! ### Topics -/

section

variable {IdString : Type} (ids : IdStrings IdString)

/-- An identifier made from one element of a topic: assigned if there is such an element and it is
not empty. -/
def identifier (element : List Bytes) (index : Nat) : IdString :=
  match element[index]? with
  | some part => if part.length ≠ 0 then ids.unsafeAssign ids.empty part else ids.empty
  | none => ids.empty

/-- `makeServiceDescription`. -/
def makeServiceDescription (topic : Bytes) : ServiceDescription IdString :=
  let element := split topic slash
  { service := identifier ids element 1
    instanceId := identifier ids element 2
    event := identifier ids element 3 }

/-- What is used of a segment: nothing if it is missing or longer than an identifier. -/
def usedSegment (capacity : Nat) (topic : Bytes) (index : Nat) : Bytes :=
  match (split topic slash)[index]? with
  | some part => if part.length ≤ capacity then part else []
  | none => []

/-- The second to the fourth segment of a topic, as far as they are used. -/
def usedSegments (capacity : Nat) (topic : Bytes) : List Bytes :=
  [usedSegment capacity topic 1, usedSegment capacity topic 2, usedSegment capacity topic 3]

theorem text_identifier (topic : Bytes) (index : Nat) :
    ids.text (identifier ids (split topic slash) index) =
      usedSegment ids.capacity topic index := by
  rw [identifier, usedSegment]
  cases (split topic slash)[index]? with
  | none => exact ids.text_empty
  | some part =>
    dsimp only
    by_cases vacant : part.length = 0
    · rw [if_neg (not_not.mpr vacant), if_pos (by omega), ids.text_empty,
        List.length_eq_zero_iff.mp vacant]
    · rw [if_pos vacant]
      by_cases fits : part.length ≤ ids.capacity
      · rw [if_pos fits, ids.text_assign _ _ fits]
      · rw [if_neg fits, ids.assign_long _ _ (Nat.lt_of_not_le fits), ids.text_empty]

/-- Two topics have one service description exactly if their used segments agree. -/
theorem makeServiceDescription_eq_iff (first second : Bytes) :
    makeServiceDescription ids first = makeServiceDescription ids second ↔
      usedSegments ids.capacity first = usedSegments ids.capacity second := by
  have one : ∀ index, identifier ids (split first slash) index =
      identifier ids (split second slash) index ↔
        usedSegment ids.capacity first index = usedSegment ids.capacity second index := by
    intro index
    rw [← text_identifier, ← text_identifier]
    exact ⟨congrArg ids.text, ids.text_injective _ _⟩
  simp only [makeServiceDescription, ServiceDescription.mk.injEq, one, usedSegments,
    List.cons.injEq, and_true]

end

/-! ### Payloads -/

/-- `IceBytes`. The size never exceeds the array. -/
structure IceBytes where
  size : Nat
  data : Bytes
  length_data : data.length = 1024
  size_le : size ≤ 1024

/-- The constructor without arguments. The array holds whatever the memory held. -/
def IceBytes.constructed (data : Bytes) (length_data : data.length = 1024) : IceBytes where
  size := 0
  data := data
  length_data := length_data
  size_le := Nat.zero_le _

/-- `operator=`: the payload is copied over the array. A longer payload is written past its end,
and there is no result. -/
def IceBytes.assign (ice : IceBytes) (bs : Bytes) : Option IceBytes :=
  if fits : bs.length ≤ 1024 then
    some
      { size := bs.length % 2 ^ 32
        data := bs ++ ice.data.drop bs.length
        length_data := by
          rw [List.length_append, List.length_drop, ice.length_data]
          omega
        size_le := Nat.le_trans (Nat.mod_le _ _) fits }
  else none

/-- `toBytes`. -/
def IceBytes.toBytes (ice : IceBytes) : Bytes :=
  (List.range ice.size).map fun i => ice.data.getD i 0

/-- What was assigned is read back. -/
theorem IceBytes.toBytes_assign (ice : IceBytes) (bs : Bytes) (fits : bs.length ≤ 1024) :
    ∃ assigned, ice.assign bs = some assigned ∧ assigned.toBytes = bs := by
  refine ⟨_, by rw [assign, dif_pos fits], ?_⟩
  rw [toBytes]
  dsimp only
  rw [Nat.mod_eq_of_lt (by omega)]
  refine List.ext_getElem (by rw [List.length_map, List.length_range]) fun i inRange inBytes => ?_
  rw [List.getElem_map, List.getElem_range, List.getD_eq_getElem?_getD,
    List.getElem?_append_left inBytes, List.getElem?_eq_getElem inBytes, Option.getD_some]

theorem IceBytes.assign_long (ice : IceBytes) (bs : Bytes) (long : 1024 < bs.length) :
    ice.assign bs = none := by
  rw [assign, dif_neg (Nat.not_le.mpr long)]

/-! ### Publishing -/

section

variable {IdString : Type} {ids : IdStrings IdString}

/-- A `BrokerIceoryx`, as far as publishing goes: its publishers, each with the topic it was made
for and the service description it was made with. -/
structure BrokerIceoryx (ids : IdStrings IdString) where
  publishers : List (Bytes × ServiceDescription IdString)
  described : ∀ entry ∈ publishers, entry.2 = makeServiceDescription ids entry.1

/-- The constructor. -/
def BrokerIceoryx.constructed (ids : IdStrings IdString) : BrokerIceoryx ids where
  publishers := []
  described _ member := absurd member List.not_mem_nil

/-- Make a publisher for a topic. -/
def BrokerIceoryx.emplace (broker : BrokerIceoryx ids) (topic : Bytes) : BrokerIceoryx ids where
  publishers := broker.publishers ++ [(topic, makeServiceDescription ids topic)]
  described entry member := by
    rcases List.mem_append.mp member with old | new
    · exact broker.described entry old
    · rw [List.mem_singleton.mp new]

/-- The publisher of a topic, made if there is none. -/
def BrokerIceoryx.publisher (broker : BrokerIceoryx ids) (topic : Bytes) :
    ServiceDescription IdString × BrokerIceoryx ids :=
  match broker.publishers.find? fun entry => entry.1 = topic with
  | some entry => (entry.2, broker)
  | none => (makeServiceDescription ids topic, broker.emplace topic)

/-- What a publication sends: the payload, under the service description by which iceoryx finds
the subscribers. -/
structure Sample (IdString : Type) where
  description : ServiceDescription IdString
  payload : IceBytes

/-- `publish`, given the chunk that `loan` returns, if it returns one: the sample that is sent, and
the broker. -/
def BrokerIceoryx.publish (broker : BrokerIceoryx ids) (topic : Bytes) (data : Bytes)
    (loan : Option IceBytes) : Option (Option (Sample IdString) × BrokerIceoryx ids) :=
  let found := broker.publisher topic
  match loan with
  | none => some (none, found.2)
  | some chunk => (chunk.assign data).map fun payload => (some ⟨found.1, payload⟩, found.2)

/-- Whoever published before, a topic is published under its service description. -/
theorem BrokerIceoryx.publisher_description (broker : BrokerIceoryx ids) (topic : Bytes) :
    (broker.publisher topic).1 = makeServiceDescription ids topic := by
  rw [publisher]
  split
  · rename_i entry found
    have named := List.find?_some found
    rw [broker.described entry (List.mem_of_find?_eq_some found), of_decide_eq_true named]
  · rfl

/-! ### Isolation and fidelity -/

/-- Different topics have different service descriptions. -/
def Isolated (ids : IdStrings IdString) (first second : Bytes) : Prop :=
  first ≠ second → makeServiceDescription ids first ≠ makeServiceDescription ids second

/-- A publication is refused, or reaches the subscribers of the topic with its payload. -/
def Carried (broker : BrokerIceoryx ids) (topic payload : Bytes) (loan : Option IceBytes) : Prop :=
  ∃ sent next, broker.publish topic payload loan = some (sent, next) ∧
    (sent = none ∨ ∃ sample, sent = some sample ∧
      sample.description = makeServiceDescription ids topic ∧ sample.payload.toBytes = payload)

theorem carried_iff (broker : BrokerIceoryx ids) (topic payload : Bytes)
    (loan : Option IceBytes) :
    Carried broker topic payload loan ↔ (loan = none ∨ payload.length ≤ 1024) := by
  cases loan with
  | none => exact ⟨fun _ => Or.inl rfl, fun _ => ⟨none, _, rfl, Or.inl rfl⟩⟩
  | some chunk =>
    constructor
    · rintro ⟨sent, next, published, _⟩
      refine Or.inr (Nat.le_of_not_lt fun long => ?_)
      rw [BrokerIceoryx.publish, chunk.assign_long payload long] at published
      cases published
    · rintro (refused | fits)
      · cases refused
      · obtain ⟨assigned, stored, same⟩ := chunk.toBytes_assign payload fits
        refine ⟨_, _, by rw [BrokerIceoryx.publish, stored, Option.map_some],
          Or.inr ⟨_, rfl, broker.publisher_description topic, same⟩⟩

/-- The isolation of two topics and the fidelity of a publication: they hold exactly if the topics
are the same or differ in a segment that is used, and no chunk is loaned or the payload fits the
array. -/
theorem iceoryx_exact_iff (broker : BrokerIceoryx ids) (first second payload : Bytes)
    (loan : Option IceBytes) :
    (Isolated ids first second ∧ Carried broker first payload loan) ↔
      (first = second ∨ usedSegments ids.capacity first ≠ usedSegments ids.capacity second) ∧
        (loan = none ∨ payload.length ≤ 1024) := by
  rw [carried_iff, Isolated, ne_eq, ne_eq, makeServiceDescription_eq_iff]
  refine and_congr_left fun _ => ?_
  exact Decidable.or_iff_not_imp_left.symm

end

/-- Identifiers of a hundred characters. -/
def hundredCharacters : IdStrings { text : Bytes // text.length ≤ 100 } where
  capacity := 100
  empty := ⟨[], Nat.zero_le _⟩
  unsafeAssign id str := if fits : str.length ≤ 100 then ⟨str, fits⟩ else id
  text := Subtype.val
  text_injective _ _ := Subtype.ext
  text_empty := rfl
  text_assign id str fits := by rw [dif_pos fits]
  assign_long id str long := by rw [dif_neg (Nat.not_le.mpr long)]

/-- A topic under `src/` and the same one under `dst/` are not isolated, and a payload of 1025
bytes is not carried. -/
theorem iceoryx_not_exact :
    ¬ Isolated hundredCharacters (ascii "src/a/b") (ascii "dst/a/b") ∧
      ¬ Carried (BrokerIceoryx.constructed hundredCharacters) (ascii "src/a/b")
        (List.replicate 1025 0)
        (some (IceBytes.constructed (List.replicate 1024 0) List.length_replicate)) := by
  constructor
  · intro isolated
    refine isolated (by decide +kernel) ((makeServiceDescription_eq_iff _ _ _).mpr ?_)
    rw [usedSegments, usedSegments, usedSegment, usedSegment, usedSegment, usedSegment,
      usedSegment, usedSegment, split, splitLoop_eq, split, splitLoop_eq]
    decide +kernel
  · rw [carried_iff, List.length_replicate]
    rintro (refused | fits)
    · cases refused
    · exact absurd fits (by decide)

end BrokerProxy.Broker
