/-
This file models the `ArrayQueue` of the Arduino build, a ring buffer whose operations
run with interrupts disabled, and proves that it refines a bounded first-in first-out
queue with one place less than its size: the slot of the write pointer is the last one
written, so one slot always stays unused.
-/

import BrokerProxy.Library.Fifo
import BrokerProxy.Library.Serving
import Mathlib.Data.Nat.ModEq
import Mathlib.Logic.Function.Basic

namespace BrokerProxy.Limero

/-- The counter of `NanoStats` that the ring buffer uses, a 32-bit number. -/
structure NanoStats where
  bufferOverflow : Nat
deriving DecidableEq

/-- A ring buffer of a given size. Both indices are always inside the array. -/
structure RingQueue (Value : Type) (size : Nat) where
  array : Nat → Value
  readPtr : Nat
  writePtr : Nat
  readPtr_lt : readPtr < size
  writePtr_lt : writePtr < size

namespace RingQueue

/-- `capacity`: the size of the array. -/
def capacity {Value : Type} {places : Nat} (_queue : RingQueue Value places) : Nat := places

/-- `size`: the distance from the read to the write pointer, where equal pointers count as one
whole turn. -/
def size {Value : Type} {places : Nat} (queue : RingQueue Value places) : Nat :=
  if queue.writePtr > queue.readPtr then queue.writePtr - queue.readPtr
  else queue.writePtr + places - queue.readPtr

variable {Value : Type} {size : Nat}

/-- The constructor. The array holds whatever `new` leaves in it. -/
def constructed (positive : 0 < size) (array : Nat → Value) : RingQueue Value size where
  array := array
  readPtr := 0
  writePtr := 0
  readPtr_lt := positive
  writePtr_lt := positive

/-- The index after an index. -/
def next (size index : Nat) : Nat := (index + 1) % size

theorem next_lt (queue : RingQueue Value size) (index : Nat) : next size index < size :=
  Nat.mod_lt _ (Nat.zero_lt_of_lt queue.readPtr_lt)

/-- `push`: refused, and counted, when the slot after the last one written is the slot before
the oldest value. -/
def push (queue : RingQueue Value size) (stats : NanoStats) (value : Value) :
    Bool × RingQueue Value size × NanoStats :=
  let desired := next size queue.writePtr
  if desired = queue.readPtr then
    (false, queue, { stats with bufferOverflow := (stats.bufferOverflow + 1) % 2 ^ 32 })
  else
    (true,
      { queue with
        writePtr := desired
        array := Function.update queue.array desired value
        writePtr_lt := queue.next_lt _ }, stats)

/-- The test by which `push` refuses a value. -/
def full (queue : RingQueue Value size) : Bool := next size queue.writePtr = queue.readPtr

/-- `pop`: fails when both indices agree. -/
def pop (queue : RingQueue Value size) : Option Value × RingQueue Value size :=
  let desired := next size queue.readPtr
  if queue.readPtr = queue.writePtr then (none, queue)
  else
    (some (queue.array desired), { queue with readPtr := desired, readPtr_lt := queue.next_lt _ })

/-! ### The values in the ring -/

/-- How many values the ring holds. -/
def count (queue : RingQueue Value size) : Nat :=
  (queue.writePtr + size - queue.readPtr) % size

/-- The value a number of places behind the read pointer. -/
def item (queue : RingQueue Value size) (place : Nat) : Value :=
  queue.array (next size (queue.readPtr + place))

/-- The values the ring holds, oldest first. -/
def contents (queue : RingQueue Value size) : List Value :=
  (List.range queue.count).map queue.item

theorem length_contents (queue : RingQueue Value size) :
    queue.contents.length = queue.count := by
  rw [contents, List.length_map, List.length_range]

theorem count_lt (queue : RingQueue Value size) : queue.count < size :=
  Nat.mod_lt _ (Nat.zero_lt_of_lt queue.readPtr_lt)

/-- The count is the only distance below the size from the read to the write pointer. -/
theorem count_eq_iff (queue : RingQueue Value size) {number : Nat} (small : number < size) :
    queue.count = number ↔ queue.writePtr = (queue.readPtr + number) % size := by
  have read := queue.readPtr_lt
  have write := queue.writePtr_lt
  have whole : (queue.readPtr + queue.count) % size = queue.writePtr := by
    rw [count, Nat.add_mod_mod, show queue.readPtr + (queue.writePtr + size - queue.readPtr) =
      queue.writePtr + size by omega, Nat.add_mod_right, Nat.mod_eq_of_lt write]
  constructor
  · rintro rfl
    exact whole.symm
  · intro same
    rw [same] at whole
    have congruent : queue.count ≡ number [MOD size] := Nat.ModEq.add_left_cancel' _ whole
    exact Nat.ModEq.eq_of_lt_of_lt congruent queue.count_lt small

theorem writePtr_eq (queue : RingQueue Value size) :
    queue.writePtr = (queue.readPtr + queue.count) % size :=
  (queue.count_eq_iff queue.count_lt).mp rfl

/-- The write pointer is just before the read pointer exactly when one slot is left. -/
theorem full_iff (queue : RingQueue Value size) :
    next size queue.writePtr = queue.readPtr ↔ queue.count + 1 = size := by
  have read := queue.readPtr_lt
  have count := queue.count_lt
  rw [next, writePtr_eq, Nat.mod_add_mod, Nat.add_assoc]
  constructor
  · intro same
    have congruent : queue.readPtr + (queue.count + 1) ≡ queue.readPtr + 0 [MOD size] := by
      rw [Nat.add_zero]
      exact same.trans (Nat.mod_eq_of_lt read).symm
    have divides : size ∣ queue.count + 1 :=
      (Nat.modEq_zero_iff_dvd).mp (Nat.ModEq.add_left_cancel' _ congruent)
    have large := Nat.le_of_dvd (Nat.succ_pos _) divides
    omega
  · intro last
    rw [last, Nat.add_mod_right, Nat.mod_eq_of_lt read]

theorem full_eq_true_iff (queue : RingQueue Value size) :
    queue.full = true ↔ queue.count + 1 = size := by
  rw [full, decide_eq_true_iff, full_iff]

/-- Both indices agree exactly when the ring is empty. -/
theorem empty_iff (queue : RingQueue Value size) :
    queue.readPtr = queue.writePtr ↔ queue.count = 0 := by
  rw [queue.count_eq_iff (Nat.zero_lt_of_lt queue.readPtr_lt), Nat.add_zero,
    Nat.mod_eq_of_lt queue.readPtr_lt, eq_comm]

/-- `size` is the number of values held, unless there are none. -/
theorem size_eq_count (queue : RingQueue Value size) (stored : queue.count ≠ 0) :
    queue.size = queue.count := by
  have read := queue.readPtr_lt
  have write := queue.writePtr_lt
  have different : queue.readPtr ≠ queue.writePtr := fun same => stored (queue.empty_iff.mp same)
  rw [RingQueue.size, count]
  by_cases ahead : queue.writePtr > queue.readPtr
  · rw [if_pos ahead, show queue.writePtr + size - queue.readPtr =
      queue.writePtr - queue.readPtr + size by omega, Nat.add_mod_right,
      Nat.mod_eq_of_lt (by omega)]
  · rw [if_neg ahead, Nat.mod_eq_of_lt (by omega)]

/-- Two places below the size are different slots. -/
theorem next_injective (queue : RingQueue Value size) {first second : Nat}
    (firstSmall : first < size) (secondSmall : second < size)
    (same : next size (queue.readPtr + first) = next size (queue.readPtr + second)) :
    first = second := by
  have congruent : queue.readPtr + 1 + first ≡ queue.readPtr + 1 + second [MOD size] := by
    rw [Nat.add_right_comm, Nat.add_right_comm _ 1]
    exact same
  exact Nat.ModEq.eq_of_lt_of_lt (Nat.ModEq.add_left_cancel' _ congruent) firstSmall secondSmall

theorem contents_constructed (positive : 0 < size) (array : Nat → Value) :
    (constructed positive array).contents = [] := by
  have empty : (constructed positive array).count = 0 := (empty_iff _).mp rfl
  rw [contents, empty]
  rfl

/-- A push that is accepted appends the value. -/
theorem contents_push_of_room (queue : RingQueue Value size) (stats : NanoStats) (value : Value)
    (room : queue.count + 1 < size) :
    (queue.push stats value).1 = true ∧
      (queue.push stats value).2.1.contents = queue.contents ++ [value] := by
  have notFull : next size queue.writePtr ≠ queue.readPtr := fun full =>
    absurd ((queue.full_iff).mp full) (by omega)
  have last : next size queue.writePtr = next size (queue.readPtr + queue.count) := by
    rw [next, next, queue.writePtr_eq, Nat.mod_add_mod]
  have grown : (queue.push stats value).2.1.count = queue.count + 1 := by
    rw [count_eq_iff _ room, push, if_neg notFull]
    exact last
  refine ⟨by rw [push, if_neg notFull], ?_⟩
  rw [contents, grown, List.range_succ, List.map_append, List.map_singleton]
  congr 1
  · refine List.map_congr_left fun place member => ?_
    have small := List.mem_range.mp member
    have apart : next size (queue.readPtr + place) ≠ next size queue.writePtr := by
      rw [last]
      exact fun same => absurd (queue.next_injective (by omega) (by omega) same) (by omega)
    rw [push, if_neg notFull]
    exact Function.update_of_ne apart _ _
  · rw [push, if_neg notFull]
    show [Function.update queue.array (next size queue.writePtr) value
      (next size (queue.readPtr + queue.count))] = [value]
    rw [last, Function.update_self]

theorem push_of_full (queue : RingQueue Value size) (stats : NanoStats) (value : Value)
    (full : queue.count + 1 = size) :
    queue.push stats value =
      (false, queue, { stats with bufferOverflow := (stats.bufferOverflow + 1) % 2 ^ 32 }) := by
  rw [push, if_pos (queue.full_iff.mpr full)]

theorem contents_push_of_full (queue : RingQueue Value size) (stats : NanoStats) (value : Value)
    (full : queue.full = true) :
    (queue.push stats value).1 = false ∧ (queue.push stats value).2.1 = queue := by
  rw [queue.push_of_full stats value (queue.full_eq_true_iff.mp full)]
  exact ⟨rfl, rfl⟩

theorem contents_push_of_not_full (queue : RingQueue Value size) (stats : NanoStats)
    (value : Value) (notFull : queue.full = false) :
    (queue.push stats value).1 = true ∧
      (queue.push stats value).2.1.contents = queue.contents ++ [value] := by
  refine queue.contents_push_of_room stats value ?_
  have small := queue.count_lt
  have different : ¬ queue.count + 1 = size := by
    rw [← queue.full_eq_true_iff, notFull]
    exact Bool.false_ne_true
  omega

theorem pop_of_empty (queue : RingQueue Value size) (empty : queue.count = 0) :
    queue.pop = (none, queue) := by
  rw [pop, if_pos (queue.empty_iff.mpr empty)]

/-- A pop of a ring that is not empty takes the oldest value. -/
theorem contents_eq_of_pop (queue : RingQueue Value size) (some : queue.count ≠ 0) :
    ∃ oldest, queue.pop.1 = Option.some oldest ∧
      queue.contents = oldest :: queue.pop.2.contents := by
  have different : queue.readPtr ≠ queue.writePtr := fun same => some (queue.empty_iff.mp same)
  have small := queue.count_lt
  have shrunk : queue.pop.2.count = queue.count - 1 := by
    rw [count_eq_iff _ (by omega), pop, if_neg different]
    show queue.writePtr = (next size queue.readPtr + (queue.count - 1)) % size
    rw [next, Nat.mod_add_mod, queue.writePtr_eq]
    congr 1
    omega
  refine ⟨queue.item 0, by rw [pop, if_neg different]; rfl, ?_⟩
  rw [contents, contents, shrunk]
  obtain ⟨rest, whole⟩ := Nat.exists_eq_succ_of_ne_zero some
  rw [whole, List.range_succ_eq_map, List.map_cons, List.map_map]
  congr 1
  refine List.map_congr_left fun place _ => ?_
  rw [pop, if_neg different]
  show queue.array (next size (queue.readPtr + (place + 1))) =
    queue.array (next size (next size queue.readPtr + place))
  rw [next, next, next, Nat.add_assoc _ place, Nat.mod_add_mod]
  congr 2
  omega

/-- The ring buffer refines the bounded queue with one place less than its size. -/
theorem refines (stats : NanoStats) :
    Fifo.Refines (size - 1) (contents : RingQueue Value size → List Value)
      (fun queue value => ((queue.push stats value).1, (queue.push stats value).2.1)) pop where
  push queue value := by
    have small := queue.count_lt
    rcases Nat.lt_or_ge (queue.count + 1) size with room | full
    · obtain ⟨accepted, contents⟩ := queue.contents_push_of_room stats value room
      rw [Fifo.push_of_lt (by rw [length_contents]; omega), accepted, contents]
    · rw [Fifo.push_of_not_lt (by rw [length_contents]; omega),
        queue.push_of_full stats value (by omega)]
  pop queue := by
    by_cases empty : queue.count = 0
    · rw [queue.pop_of_empty empty, List.length_eq_zero_iff.mp (queue.length_contents.trans empty)]
      rfl
    · obtain ⟨oldest, taken, whole⟩ := queue.contents_eq_of_pop empty
      rw [whole, taken]
      rfl

/-! ### Runs of calls -/

/-- A call of the ring buffer, with the statistics that a refused push is counted in. -/
def serve (ring : RingQueue Value size × NanoStats) :
    Fifo.Call Value → Fifo.Answer Value × (RingQueue Value size × NanoStats)
  | .push value => (.pushed (ring.1.push ring.2 value).1, (ring.1.push ring.2 value).2)
  | .pop => (.popped ring.1.pop.1, (ring.1.pop.2, ring.2))

/-- What the next call of a ring does that holds the given values: `push` is refused exactly when
one place less than the size is taken, and `pop` fails exactly when none is. -/
structure ActsAsFifo (queue : RingQueue Value size) (stats : NanoStats) (items : List Value) :
    Prop where
  contents : queue.contents = items
  length_le : items.length ≤ size - 1
  push_false_iff : ∀ value, (queue.push stats value).1 = false ↔ items.length = size - 1
  push_false : ∀ value, (queue.push stats value).1 = false → (queue.push stats value).2 =
    (queue, { stats with bufferOverflow := (stats.bufferOverflow + 1) % 2 ^ 32 })
  push_true : ∀ value, (queue.push stats value).1 = true →
    (queue.push stats value).2.1.contents = items ++ [value] ∧
      (queue.push stats value).2.2 = stats
  pop_none_iff : queue.pop.1 = none ↔ items = []
  pop_none : queue.pop.1 = none → queue.pop.2 = queue
  pop_some : ∀ oldest, queue.pop.1 = some oldest → items = oldest :: queue.pop.2.contents

/-- A push either meets a full ring, which it leaves alone and counts, or appends its value. -/
theorem push_cases (queue : RingQueue Value size) (stats : NanoStats) (value : Value) :
    (queue.count + 1 = size ∧ queue.push stats value =
        (false, queue, { stats with bufferOverflow := (stats.bufferOverflow + 1) % 2 ^ 32 })) ∨
      (queue.count + 1 < size ∧ (queue.push stats value).1 = true ∧
        (queue.push stats value).2.1.contents = queue.contents ++ [value] ∧
        (queue.push stats value).2.2 = stats) := by
  have small := queue.count_lt
  rcases Nat.lt_or_ge (queue.count + 1) size with room | full
  · have notFull : next size queue.writePtr ≠ queue.readPtr := fun full =>
      absurd (queue.full_iff.mp full) (by omega)
    obtain ⟨accepted, appended⟩ := queue.contents_push_of_room stats value room
    exact Or.inr ⟨room, accepted, appended, by rw [push, if_neg notFull]⟩
  · have last : queue.count + 1 = size := by omega
    exact Or.inl ⟨last, queue.push_of_full stats value last⟩

/-- A pop either meets an empty ring, which it leaves alone, or takes the oldest value. -/
theorem pop_cases (queue : RingQueue Value size) :
    (queue.contents = [] ∧ queue.pop = (none, queue)) ∨
      ∃ oldest, queue.pop.1 = some oldest ∧ queue.contents = oldest :: queue.pop.2.contents := by
  by_cases empty : queue.count = 0
  · exact Or.inl ⟨List.length_eq_zero_iff.mp (queue.length_contents.trans empty),
      queue.pop_of_empty empty⟩
  · exact Or.inr (queue.contents_eq_of_pop empty)

theorem actsAsFifo (queue : RingQueue Value size) (stats : NanoStats) :
    queue.ActsAsFifo stats queue.contents where
  contents := rfl
  length_le := by
    have small := queue.count_lt
    rw [length_contents]
    omega
  push_false_iff value := by
    rw [length_contents]
    rcases queue.push_cases stats value with ⟨last, refused⟩ | ⟨room, accepted, _⟩
    · rw [refused]
      exact ⟨fun _ => by omega, fun _ => rfl⟩
    · rw [accepted]
      exact ⟨fun wrong => absurd wrong Bool.noConfusion, fun full => absurd full (by omega)⟩
  push_false value notAccepted := by
    rcases queue.push_cases stats value with ⟨_, refused⟩ | ⟨_, accepted, _⟩
    · rw [refused]
    · exact absurd (accepted.symm.trans notAccepted) Bool.noConfusion
  push_true value isAccepted := by
    rcases queue.push_cases stats value with ⟨_, refused⟩ | ⟨_, _, appended⟩
    · rw [refused] at isAccepted
      exact absurd isAccepted Bool.noConfusion
    · exact appended
  pop_none_iff := by
    rcases queue.pop_cases with ⟨empty, failed⟩ | ⟨oldest, taken, whole⟩
    · rw [empty, failed]
      exact ⟨fun _ => rfl, fun _ => rfl⟩
    · rw [taken, whole]
      exact ⟨fun wrong => absurd wrong (Option.some_ne_none _),
        fun wrong => absurd wrong (List.cons_ne_nil _ _)⟩
  pop_none fails := by
    rcases queue.pop_cases with ⟨_, failed⟩ | ⟨oldest, taken, _⟩
    · rw [failed]
    · exact absurd (taken.symm.trans fails) (Option.some_ne_none _)
  pop_some oldest isTaken := by
    rcases queue.pop_cases with ⟨_, failed⟩ | ⟨value, taken, whole⟩
    · rw [failed] at isTaken
      exact absurd isTaken.symm (Option.some_ne_none _)
    · rw [taken, Option.some.injEq] at isTaken
      rw [← isTaken, ← whole]

/-- One call of the ring and of the bounded queue with one place less: the same answer, and the
same values afterwards. -/
theorem serve_eq (ring : RingQueue Value size × NanoStats) (call : Fifo.Call Value) :
    (serve ring call).1 = (Fifo.serve (size - 1) ring.1.contents call).1 ∧
      (serve ring call).2.1.contents = (Fifo.serve (size - 1) ring.1.contents call).2 := by
  have refined : Fifo.Refines (size - 1) (contents : RingQueue Value size → List Value) _ _ :=
    refines ring.2
  cases call with
  | push value =>
    obtain ⟨same, held⟩ := Prod.mk.inj (refined.push ring.1 value)
    exact ⟨congrArg Fifo.Answer.pushed same, held⟩
  | pop =>
    obtain ⟨same, held⟩ := Prod.mk.inj (refined.pop ring.1)
    exact ⟨congrArg Fifo.Answer.popped same, held⟩

/-- A ring of any size from two on, constructed and called any number of times: it has answered
as the bounded queue with one place less, holds what that queue holds, keeps both indices inside
the array, and its next call does what that queue does. -/
theorem ring_behaves_as_fifo (large : 2 ≤ size) (array : Nat → Value) (stats : NanoStats)
    (calls : List (Fifo.Call Value)) :
    let start := (constructed (Nat.zero_lt_of_lt large) array, stats)
    let ring := Serving.after serve start calls
    Serving.answers serve start calls =
        Serving.answers (Fifo.serve (size - 1)) ([] : List Value) calls ∧
      ring.1.ActsAsFifo ring.2 (Serving.after (Fifo.serve (size - 1)) [] calls) ∧
      ring.1.readPtr < size ∧ ring.1.writePtr < size := by
  intro start ring
  have started : start.1.contents = [] := contents_constructed _ _
  have held : ring.1.contents = Serving.after (Fifo.serve (size - 1)) [] calls :=
    Serving.related_after
      (fun (queue : RingQueue Value size × NanoStats) items => queue.1.contents = items)
      (by
        rintro queue _ call rfl
        exact (serve_eq queue call).2) calls started
  have same : Serving.answers serve start calls =
      Serving.answers (Fifo.serve (size - 1)) [] calls :=
    Serving.answers_eq
      (fun _ (queue : RingQueue Value size × NanoStats) items => queue.1.contents = items)
      (by
        rintro queue _ call _ rfl
        exact serve_eq queue call) calls started
  exact ⟨same, held ▸ ring.1.actsAsFifo ring.2, ring.1.readPtr_lt, ring.1.writePtr_lt⟩

/-- Three slots, filled, refused once, and emptied past the wrap. -/
theorem ring_behaves_as_fifo_three :
    let start := (constructed (by decide : 0 < 3) fun _ => 0, { bufferOverflow := 0 })
    let calls := [Fifo.Call.push 5, .push 6, .push 7, .pop, .push 8, .pop, .pop, .pop]
    let ring := Serving.after serve start calls
    Serving.answers serve start calls =
        Serving.answers (Fifo.serve 2) ([] : List Nat) calls ∧
      ring.1.ActsAsFifo ring.2 (Serving.after (Fifo.serve 2) [] calls) ∧
      ring.1.readPtr < 3 ∧ ring.1.writePtr < 3 :=
  ring_behaves_as_fifo (by decide) (fun _ => 0) { bufferOverflow := 0 } _

end RingQueue

end BrokerProxy.Limero
