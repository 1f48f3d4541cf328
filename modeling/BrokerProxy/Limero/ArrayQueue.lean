/-
This file models the lock-free `ArrayQueue` of `limero.h` (every build except
Arduino) as a machine whose steps are the atomic accesses of the code.

The object holds two indices and an array of items, each a value and a version. Any
number of threads call `push` and `pop`; a thread's program counter says which access
comes next and holds the local variables of the call. A label either starts a call,
lets one thread make its next access, or lets a returned call go. Index and version
arithmetic is modulo two to the width of `INDEX_TYPE`.

Three histories are recorded and never read by the code: the values of the pushes in
the order in which they won their compare-exchange, the heads of the pops in the
order in which they won theirs, and what each finished pop returned.
-/

import BrokerProxy.Library.Runs
import Mathlib.Algebra.Group.Nat.Defs
import Mathlib.Logic.Function.Basic

namespace BrokerProxy.Limero

open Runs

/-- The constants of a queue: its capacity, and the width of `INDEX_TYPE` in bits. -/
structure Layout where
  capacity : Nat
  width : Nat
  two_le_capacity : 2 ≤ capacity
  width_pos : 0 < width

namespace Layout

/-- Conversion to `INDEX_TYPE`. -/
def wrap (layout : Layout) (number : Nat) : Nat := number % 2 ^ layout.width

/-- The position of an index in `m_items`. -/
def slot (layout : Layout) (index : Nat) : Nat := index % layout.capacity

theorem wrap_of_lt {layout : Layout} {number : Nat} (small : number < 2 ^ layout.width) :
    layout.wrap number = number := Nat.mod_eq_of_lt small

theorem wrap_wrap_add (layout : Layout) (index more : Nat) :
    layout.wrap (layout.wrap index + more) = layout.wrap (index + more) :=
  Nat.mod_add_mod index _ more

theorem slot_of_lt {layout : Layout} {index : Nat} (small : index < layout.capacity) :
    layout.slot index = index := Nat.mod_eq_of_lt small

theorem slot_add_capacity (layout : Layout) (index : Nat) :
    layout.slot (index + layout.capacity) = layout.slot index := Nat.add_mod_right _ _

end Layout

/-- The shared fields: `m_tail`, `m_head` and, for each position of `m_items`, its version and
its value. -/
structure Memory (Value : Type) where
  tail : Nat
  head : Nat
  version : Nat → Nat
  value : Nat → Value

/-- The next access of a thread, with the local variables of its call. -/
inductive Pc (Value : Type)
  | idle
  | pushLoadTail (value : Value)
  | pushLoadVersion (value : Value) (tail : Nat)
  | pushCompareExchange (value : Value) (tail : Nat)
  | pushCopyValue (value : Value) (tail : Nat)
  | pushStoreVersion (value : Value) (tail : Nat)
  | pushReturned (accepted : Bool)
  | popLoadHead
  | popLoadVersion (head : Nat)
  | popCompareExchange (head : Nat)
  | popCopyValue (head : Nat)
  | popStoreVersion (head : Nat) (out : Value)
  | popReturned (out : Option Value)
deriving DecidableEq

/-- The shared memory, the program counters and the histories. -/
structure QueueState (Thread Value : Type) where
  memory : Memory Value
  pc : Thread → Pc Value
  claimed : List Value
  won : List Nat
  returned : List (Nat × Value)

variable {Thread Value : Type} [DecidableEq Thread]

/-- Replace one thread's program counter. -/
def QueueState.setPc (state : QueueState Thread Value) (thread : Thread) (pc : Pc Value) :
    QueueState Thread Value :=
  { state with pc := Function.update state.pc thread pc }

theorem QueueState.setPc_of_ne (state : QueueState Thread Value) {thread other : Thread}
    (pc : Pc Value) (different : other ≠ thread) :
    (state.setPc thread pc).pc other = state.pc other := Function.update_of_ne different _ _

/-- Replace the shared memory. -/
def QueueState.setMemory (state : QueueState Thread Value) (memory : Memory Value) :
    QueueState Thread Value :=
  { state with memory := memory }

/-- The constructor: both indices are zero and each item's version is its position. The values
are whatever the items hold. -/
def Memory.constructed (layout : Layout) (value : Nat → Value) : Memory Value where
  tail := 0
  head := 0
  version := layout.wrap
  value := value

/-- Nothing has been called yet. -/
def QueueState.start (layout : Layout) (value : Nat → Value) : QueueState Thread Value where
  memory := Memory.constructed layout value
  pc := fun _ => .idle
  claimed := []
  won := []
  returned := []

/-- The next access of a thread inside a call. -/
def advance (layout : Layout) (state : QueueState Thread Value) (thread : Thread) :
    Option (QueueState Thread Value) :=
  let memory := state.memory
  match state.pc thread with
  | .idle | .pushReturned _ | .popReturned _ => none
  | .pushLoadTail value => some (state.setPc thread (.pushLoadVersion value memory.tail))
  | .pushLoadVersion value tail =>
      if memory.version (layout.slot tail) ≠ tail then
        some (state.setPc thread (.pushReturned false))
      else some (state.setPc thread (.pushCompareExchange value tail))
  | .pushCompareExchange value tail =>
      if memory.tail = tail then
        some { (state.setPc thread (.pushCopyValue value tail)).setMemory
                { memory with tail := layout.wrap (tail + 1) } with
                claimed := state.claimed ++ [value] }
      else some (state.setPc thread (.pushReturned false))
  | .pushCopyValue value tail =>
      some ((state.setPc thread (.pushStoreVersion value tail)).setMemory
        { memory with value := Function.update memory.value (layout.slot tail) value })
  | .pushStoreVersion _ tail =>
      some ((state.setPc thread (.pushReturned true)).setMemory
        { memory with
          version := Function.update memory.version (layout.slot tail) (layout.wrap (tail + 1)) })
  | .popLoadHead => some (state.setPc thread (.popLoadVersion memory.head))
  | .popLoadVersion head =>
      if memory.version (layout.slot head) ≠ layout.wrap (head + 1) then
        some (state.setPc thread (.popReturned none))
      else some (state.setPc thread (.popCompareExchange head))
  | .popCompareExchange head =>
      if memory.head = head then
        some { (state.setPc thread (.popCopyValue head)).setMemory
                { memory with head := layout.wrap (head + 1) } with
                won := state.won ++ [head] }
      else some (state.setPc thread (.popReturned none))
  | .popCopyValue head =>
      some (state.setPc thread (.popStoreVersion head (memory.value (layout.slot head))))
  | .popStoreVersion head out =>
      some { (state.setPc thread (.popReturned (some out))).setMemory
              { memory with
                version := Function.update memory.version (layout.slot head)
                  (layout.wrap (head + layout.capacity)) } with
              returned := state.returned ++ [(head, out)] }

/-- What a thread can do next: call `push`, call `pop`, make the next access of its call, or
leave a call that has returned. -/
inductive QueueLabel (Thread Value : Type)
  | push (thread : Thread) (value : Value)
  | pop (thread : Thread)
  | advance (thread : Thread)
  | leave (thread : Thread)

/-- One step of one thread. -/
def queueStep (layout : Layout) (state : QueueState Thread Value) :
    QueueLabel Thread Value → Option (QueueState Thread Value)
  | .push thread value =>
      match state.pc thread with
      | .idle => some (state.setPc thread (.pushLoadTail value))
      | _ => none
  | .pop thread =>
      match state.pc thread with
      | .idle => some (state.setPc thread .popLoadHead)
      | _ => none
  | .advance thread => advance layout state thread
  | .leave thread =>
      match state.pc thread with
      | .pushReturned _ | .popReturned _ => some (state.setPc thread .idle)
      | _ => none

/-- The queue under any number of threads and any interleaving of their accesses. -/
def queueMachine (Thread Value : Type) [DecidableEq Thread] (layout : Layout) :
    Machine (QueueState Thread Value) (QueueLabel Thread Value) where
  initial state := ∃ value, state = QueueState.start layout value
  step := queueStep layout

/-- The index a thread has claimed for writing: it is between the compare-exchange of its push
and the version store. -/
def Pc.writing : Pc Value → Option Nat
  | .pushCopyValue _ tail | .pushStoreVersion _ tail => some tail
  | _ => none

/-- The index a thread has claimed for reading: it is between the compare-exchange of its pop
and the version store. -/
def Pc.reading : Pc Value → Option Nat
  | .popCopyValue head | .popStoreVersion head _ => some head
  | _ => none

end BrokerProxy.Limero
