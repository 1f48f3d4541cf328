/-
This file develops the bounded first-in first-out queue as a list of values and a number
of places, and the accounting of what has been put in and taken out. A queue that an
array implements refines it.
-/

import Mathlib.Data.List.Basic

namespace Fifo

variable {Value : Type}

/-- Put a value in, if there is a place. -/
def push (places : Nat) (items : List Value) (value : Value) : Bool × List Value :=
  if items.length < places then (true, items ++ [value]) else (false, items)

/-- Take the oldest value out, if there is one. -/
def pop : List Value → Option Value × List Value
  | [] => (none, [])
  | oldest :: rest => (some oldest, rest)

/-- A call of the queue. -/
inductive Call (Value : Type)
  | push (value : Value)
  | pop

/-- What a call answers. -/
inductive Answer (Value : Type)
  | pushed (accepted : Bool)
  | popped (out : Option Value)
deriving DecidableEq

/-- The bounded queue under one call. -/
def serve (places : Nat) (items : List Value) : Call Value → Answer Value × List Value
  | .push value => (.pushed (push places items value).1, (push places items value).2)
  | .pop => (.popped (pop items).1, (pop items).2)

theorem push_of_lt {places : Nat} {items : List Value} (room : items.length < places)
    (value : Value) : push places items value = (true, items ++ [value]) := if_pos room

theorem push_of_not_lt {places : Nat} {items : List Value} (full : ¬ items.length < places)
    (value : Value) : push places items value = (false, items) := if_neg full

/-- What the queue has accepted is what it has given back followed by what it holds. -/
def Accounted (accepted given items : List Value) : Prop := accepted = given ++ items

theorem Accounted.start : Accounted ([] : List Value) [] [] := rfl

theorem Accounted.push {accepted given items : List Value}
    (accounted : Accounted accepted given items) (value : Value) :
    Accounted (accepted ++ [value]) given (items ++ [value]) := by
  rw [Accounted, accounted, List.append_assoc]

theorem Accounted.pop {accepted given rest : List Value} {oldest : Value}
    (accounted : Accounted accepted given (oldest :: rest)) :
    Accounted accepted (given ++ [oldest]) rest := by
  rw [Accounted, accounted, List.append_assoc, List.singleton_append]

/-- An empty queue has given back all it has accepted. -/
theorem Accounted.of_empty {accepted given : List Value}
    (accounted : Accounted accepted given []) : given = accepted := by
  rw [accounted, List.append_nil]

/-- A queue that an implementation holds in its own state refines the bounded queue: both
operations give the same answer and leave the same contents. -/
structure Refines {Queue : Type} (places : Nat) (contents : Queue → List Value)
    (pushes : Queue → Value → Bool × Queue) (pops : Queue → Option Value × Queue) : Prop where
  push : ∀ queue value, ((pushes queue value).1, contents (pushes queue value).2) =
    Fifo.push places (contents queue) value
  pop : ∀ queue, ((pops queue).1, contents (pops queue).2) = Fifo.pop (contents queue)

end Fifo
