/-
This file compares the two classes named `ArrayQueue`: the lock-free queue and the ring
buffer of the Arduino build, constructed with the same argument and called from one
thread. Each is compared with a bounded queue that also answers `size` and `capacity`.

The lock-free queue has as many places as the argument says. The ring buffer has one
less, although its `capacity` reports the argument too, because it tells a full ring from
an empty one by leaving a slot unused. The two answer alike as long as no push meets a
ring that is already full.
-/

import BrokerProxy.Limero.ArrayQueueSequential
import BrokerProxy.Limero.RingQueue

namespace BrokerProxy.Limero

open Serving

variable {Value : Type}

/-- A call of an `ArrayQueue`: `push` or `pop`, `size`, or `capacity`. -/
inductive QueueCall (Value : Type)
  | transfer (call : Fifo.Call Value)
  | size
  | capacity

/-- What such a call returns. -/
inductive QueueAnswer (Value : Type)
  | transferred (answer : Fifo.Answer Value)
  | number (value : Nat)
deriving DecidableEq

/-- The bounded queue, which also tells the number of values it holds and the capacity it was
given. -/
def bounded (places capacity : Nat) (items : List Value) :
    QueueCall Value → QueueAnswer Value × List Value
  | .transfer call =>
      (.transferred (Fifo.serve places items call).1, (Fifo.serve places items call).2)
  | .size => (.number items.length, items)
  | .capacity => (.number capacity, items)

/-- A call of the lock-free queue, with no other call under way. -/
def Memory.answer (layout : Layout) (memory : Memory Value) :
    QueueCall Value → QueueAnswer Value × Memory Value
  | .transfer call =>
      (.transferred (memory.serve layout call).1, (memory.serve layout call).2)
  | .size => (.number (memory.size layout), memory)
  | .capacity => (.number layout.capacity, memory)

/-- A call of the ring buffer. -/
def RingQueue.answer {size : Nat} (ring : RingQueue Value size × NanoStats) :
    QueueCall Value → QueueAnswer Value × (RingQueue Value size × NanoStats)
  | .transfer (.push value) =>
      (.transferred (.pushed (ring.1.push ring.2 value).1), (ring.1.push ring.2 value).2)
  | .transfer .pop => (.transferred (.popped ring.1.pop.1), (ring.1.pop.2, ring.2))
  | .size => (.number ring.1.size, ring)
  | .capacity => (.number ring.1.capacity, ring)

/-- `size` is not called while the queue is empty. -/
def SizeWhenStored (items : List Value) : QueueCall Value → Prop
  | .size => items ≠ []
  | _ => True

/-- `push` is not called while the given number of values is stored. -/
def PushBelow (places : Nat) (items : List Value) : QueueCall Value → Prop
  | .transfer (.push _) => items.length < places
  | _ => True

/-! ### Each class against its bounded queue -/

/-- The lock-free queue, called fewer times than it has indices, answers as a bounded queue of
its capacity. -/
theorem lockFree_answers (layout : Layout) (value : Nat → Value) (calls : List (QueueCall Value))
    (few : calls.length < 2 ^ layout.width) :
    answers (Memory.answer layout) (Memory.constructed layout value) calls =
      answers (bounded layout.capacity layout.capacity) [] calls := by
  refine answers_eq (fun remaining memory items => ∃ start, Window layout memory start items ∧
    start + items.length + remaining.length < 2 ^ layout.width) ?_ calls
    ⟨0, Window.constructed layout value, by rw [List.length_nil]; omega⟩
  rintro memory items call rest ⟨start, window, small⟩
  rw [List.length_cons] at small
  cases call with
  | transfer call =>
    obtain ⟨same, next, kept, grown⟩ := window.serve (layout.aligned_of_lt (by omega))
      (layout.aligned_of_lt (by omega)) (fun full => by omega) call
    exact ⟨congrArg QueueAnswer.transferred same, next, kept, by
      show next + (Fifo.serve layout.capacity items call).2.length + rest.length < _
      omega⟩
  | size =>
    exact ⟨congrArg QueueAnswer.number (window.size_eq (by omega)), start, window, by
      show start + items.length + rest.length < _
      omega⟩
  | capacity =>
    exact ⟨rfl, start, window, by
      show start + items.length + rest.length < _
      omega⟩

/-- The ring buffer answers as a bounded queue with one place less than its size, where `size`
is not called on an empty ring. -/
theorem ring_answers {size : Nat} (positive : 0 < size) (array : Nat → Value) (stats : NanoStats)
    (calls : List (QueueCall Value))
    (sized : Along (bounded (size - 1) size) SizeWhenStored [] calls) :
    answers RingQueue.answer (RingQueue.constructed positive array, stats) calls =
      answers (bounded (size - 1) size) [] calls := by
  refine answers_eq (fun remaining ring items => ring.1.contents = items ∧
    Along (bounded (size - 1) size) SizeWhenStored items remaining) ?_ calls
    ⟨RingQueue.contents_constructed positive array, sized⟩
  rintro ring items call rest ⟨rfl, condition, remaining⟩
  have refines : Fifo.Refines (size - 1) (RingQueue.contents : RingQueue Value size → List Value)
    _ _ := RingQueue.refines ring.2
  cases call with
  | transfer call =>
    cases call with
    | push value =>
      obtain ⟨same, contents⟩ := Prod.mk.inj (refines.push ring.1 value)
      exact ⟨congrArg (QueueAnswer.transferred ∘ Fifo.Answer.pushed) same, contents, remaining⟩
    | pop =>
      obtain ⟨same, contents⟩ := Prod.mk.inj (refines.pop ring.1)
      exact ⟨congrArg (QueueAnswer.transferred ∘ Fifo.Answer.popped) same, contents, remaining⟩
  | size =>
    have stored : ring.1.count ≠ 0 := fun empty =>
      condition (List.length_eq_zero_iff.mp (ring.1.length_contents.trans empty))
    refine ⟨congrArg QueueAnswer.number ?_, rfl, remaining⟩
    rw [ring.1.size_eq_count stored, ring.1.length_contents]
  | capacity => exact ⟨rfl, rfl, remaining⟩

/-- Two bounded queues that report one capacity answer alike where no push meets the smaller
one full. -/
theorem bounded_answers_eq {fewer places : Nat} (le : fewer ≤ places) (capacity : Nat)
    (calls : List (QueueCall Value)) : ∀ {items : List Value},
    Along (bounded places capacity) (PushBelow fewer) items calls →
      answers (bounded fewer capacity) items calls = answers (bounded places capacity) items calls ∧
      ∀ condition, Along (bounded places capacity) condition items calls →
        Along (bounded fewer capacity) condition items calls := by
  induction calls with
  | nil => exact fun _ => ⟨rfl, fun _ _ => trivial⟩
  | cons call rest inductionHypothesis =>
    rintro items ⟨below, remaining⟩
    have same : bounded fewer capacity items call = bounded places capacity items call := by
      cases call with
      | transfer call =>
        cases call with
        | push value =>
          rw [bounded, bounded, Fifo.serve, Fifo.serve, Fifo.push_of_lt below,
            Fifo.push_of_lt (Nat.lt_of_lt_of_le below le)]
        | pop => rfl
      | size | capacity => rfl
    obtain ⟨equal, transfers⟩ := inductionHypothesis remaining
    refine ⟨?_, fun condition holds => ?_⟩
    · rw [answers, answers, same, equal]
    · exact ⟨holds.1, same.symm ▸ transfers condition holds.2⟩

/-! ### The two classes -/

/-- The two classes, constructed with the same argument and called fewer than 2^32 times: the
lock-free queue answers as a bounded queue with that many places, the ring buffer as one with
one place less, both report the argument as their capacity, and their answers are the same
where no push meets a full ring. Nothing is said about the `size` of an empty ring. -/
theorem arrayQueues_agree (layout : Layout) (wide : 32 ≤ layout.width) (value array : Nat → Value)
    (stats : NanoStats) (calls : List (QueueCall Value)) (few : calls.length < 2 ^ 32) :
    answers (Memory.answer layout) (Memory.constructed layout value) calls =
        answers (bounded layout.capacity layout.capacity) [] calls ∧
      (Along (bounded (layout.capacity - 1) layout.capacity) SizeWhenStored [] calls →
        answers RingQueue.answer (RingQueue.constructed layout.capacity_pos array, stats) calls =
          answers (bounded (layout.capacity - 1) layout.capacity) [] calls) ∧
      (Along (bounded layout.capacity layout.capacity) (PushBelow (layout.capacity - 1)) [] calls →
        Along (bounded layout.capacity layout.capacity) SizeWhenStored [] calls →
        answers RingQueue.answer (RingQueue.constructed layout.capacity_pos array, stats) calls =
          answers (Memory.answer layout) (Memory.constructed layout value) calls) := by
  have lockFree := lockFree_answers layout value calls
    (Nat.lt_of_lt_of_le few (Nat.pow_le_pow_right Nat.two_pos wide))
  refine ⟨lockFree, ring_answers layout.capacity_pos array stats calls, fun below sized => ?_⟩
  obtain ⟨same, transfers⟩ := bounded_answers_eq (Nat.sub_le _ 1) layout.capacity calls below
  rw [ring_answers layout.capacity_pos array stats calls (transfers _ sized), same, lockFree]

/-- Three places and 32-bit indices. -/
def threePlaces : Layout where
  capacity := 3
  width := 32
  two_le_capacity := by decide
  width_pos := by decide

/-- Two pushes, the size, and three pops, the last of an empty queue. -/
theorem arrayQueues_agree_threePlaces :
    answers RingQueue.answer
        (RingQueue.constructed threePlaces.capacity_pos fun _ => 0, { bufferOverflow := 0 })
        [.transfer (.push 5), .transfer (.push 6), .size, .transfer .pop, .transfer .pop,
          .transfer .pop] =
      answers (Memory.answer threePlaces) (Memory.constructed threePlaces fun _ => 0)
        [.transfer (.push 5), .transfer (.push 6), .size, .transfer .pop, .transfer .pop,
          .transfer .pop] :=
  (arrayQueues_agree threePlaces (by decide) (fun _ => 0) (fun _ => 0) { bufferOverflow := 0 } _
    (by decide)).2.2
    ⟨Nat.zero_lt_two, Nat.one_lt_two, trivial, trivial, trivial, trivial, trivial⟩
    ⟨trivial, trivial, List.cons_ne_nil _ _, trivial, trivial, trivial, trivial⟩

/-- Constructed with three, the ring buffer refuses the third push and the lock-free queue
accepts it. -/
theorem arrayQueues_differ :
    answers RingQueue.answer
        (RingQueue.constructed threePlaces.capacity_pos fun _ => 0, { bufferOverflow := 0 })
        [.capacity, .transfer (.push 5), .transfer (.push 6), .transfer (.push 7)] ≠
      answers (Memory.answer threePlaces) (Memory.constructed threePlaces fun _ => 0)
        [.capacity, .transfer (.push 5), .transfer (.push 6), .transfer (.push 7)] := by
  decide

end BrokerProxy.Limero
