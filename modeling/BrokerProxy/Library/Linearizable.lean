/-
This file develops linearizability for objects whose operations may be refused under
contention.

A sequential object says what each operation answers and what it leaves. Its atomic
version is a machine: a thread calls an operation, at one moment during the call the
operation takes effect on the shared contents, and later the call returns. An operation
whose call another call has overlapped may also be refused, which leaves the contents
alone; an operation nobody has overlapped is served. A history of calls and returns is
linearizable if the atomic object shows it in some run: the moments at which the
operations take effect are then a sequential order of them that respects the order of
calls that do not overlap.

An implementation is linearizable where its machine refines the atomic object, by the
rule `exists_abstract_run` of `Runs`.
-/

import BrokerProxy.Library.Runs
import Mathlib.Logic.Function.Basic

namespace Linearizability

open Runs

/-- A sequential object: the answer of an operation with the contents it leaves, and what an
operation answers that is refused. -/
structure Object (Contents Op Answer : Type) where
  serve : Contents → Op → Answer × Contents
  refusal : Op → Answer

/-- Where a thread is: outside any call, in a call that has not taken effect and that another call
may have overlapped, or in a call that has. -/
inductive Status (Op Answer : Type)
  | idle
  | called (op : Op) (overlapped : Bool)
  | answered (answer : Answer)

/-- A call that has not taken effect is overlapped from now on. -/
def Status.overlap {Op Answer : Type} : Status Op Answer → Status Op Answer
  | .called op _ => .called op true
  | status => status

/-- The atomic object: its contents, where each thread is, and the threads inside a call. -/
structure AtomicState (Thread Contents Op Answer : Type) where
  contents : Contents
  status : Thread → Status Op Answer
  active : List Thread

/-- What a thread does next: call an operation, let it take effect or be refused, or return. -/
inductive AtomicLabel (Thread Op : Type)
  | invoke (thread : Thread) (op : Op)
  | take (thread : Thread) (refused : Bool)
  | respond (thread : Thread)

/-- What a client sees: the calls and what they return. -/
inductive Event (Thread Op Answer : Type)
  | invoke (thread : Thread) (op : Op)
  | respond (thread : Thread) (answer : Answer)
deriving DecidableEq

variable {Thread Contents Op Answer : Type}

/-- The moment at which an operation takes effect. -/
def Object.take [DecidableEq Thread] (object : Object Contents Op Answer)
    (state : AtomicState Thread Contents Op Answer) (thread : Thread) (refused : Bool) :
    Option (AtomicState Thread Contents Op Answer) :=
  match state.status thread, refused with
  | .called op _, false =>
      let (answer, contents) := object.serve state.contents op
      some { state with
        contents := contents
        status := Function.update state.status thread (.answered answer) }
  | .called op true, true =>
      some { state with
        status := Function.update state.status thread (.answered (object.refusal op)) }
  | _, _ => none

/-- One step of the atomic object. -/
def Object.step [DecidableEq Thread] (object : Object Contents Op Answer)
    (state : AtomicState Thread Contents Op Answer) :
    AtomicLabel Thread Op → Option (AtomicState Thread Contents Op Answer)
  | .invoke thread op =>
      match state.status thread with
      | .idle => some { state with
          status := Function.update (fun other => (state.status other).overlap) thread
            (.called op !state.active.isEmpty)
          active := thread :: state.active }
      | _ => none
  | .take thread refused => object.take state thread refused
  | .respond thread =>
      match state.status thread with
      | .answered _ => some { state with
          status := Function.update state.status thread .idle
          active := state.active.erase thread }
      | _ => none

/-- The atomic object before the first call. -/
def AtomicState.start (contents : Contents) : AtomicState Thread Contents Op Answer where
  contents := contents
  status := fun _ => .idle
  active := []

/-- The atomic object as a machine. -/
def Object.atomic (object : Object Contents Op Answer) (Thread : Type) [DecidableEq Thread]
    (contents : Contents) :
    Machine (AtomicState Thread Contents Op Answer) (AtomicLabel Thread Op) where
  initial state := state = .start contents
  step := object.step

/-- What a step of the atomic object shows. -/
def AtomicState.seen (state : AtomicState Thread Contents Op Answer) :
    AtomicLabel Thread Op → List (Event Thread Op Answer)
  | .invoke thread op => [.invoke thread op]
  | .take _ _ => []
  | .respond thread =>
      match state.status thread with
      | .answered answer => [.respond thread answer]
      | _ => []

/-- A history that the atomic object shows in some run. -/
def Object.Linearizable [DecidableEq Thread] (object : Object Contents Op Answer)
    (contents : Contents) (history : List (Event Thread Op Answer)) : Prop :=
  ∃ labels final, (object.atomic Thread contents).run (.start contents) labels = some final ∧
    (object.atomic Thread contents).observed AtomicState.seen (.start contents) labels = history

section

variable [DecidableEq Thread] {object : Object Contents Op Answer}
  {state : AtomicState Thread Contents Op Answer} {thread : Thread}

theorem step_invoke (op : Op) (idle : state.status thread = .idle) :
    object.step state (.invoke thread op) = some
      { contents := state.contents
        status := Function.update (fun other => (state.status other).overlap) thread
          (.called op !state.active.isEmpty)
        active := thread :: state.active } := by
  rw [Object.step, idle]

theorem step_serve {op : Op} {overlapped : Bool}
    (called : state.status thread = .called op overlapped) :
    object.step state (.take thread false) = some
      { contents := (object.serve state.contents op).2
        status := Function.update state.status thread
          (.answered (object.serve state.contents op).1)
        active := state.active } := by
  simp only [Object.step, Object.take, called]

theorem step_refuse {op : Op} (called : state.status thread = .called op true) :
    object.step state (.take thread true) = some
      { contents := state.contents
        status := Function.update state.status thread (.answered (object.refusal op))
        active := state.active } := by
  simp only [Object.step, Object.take, called]

theorem step_respond {answer : Answer} (answered : state.status thread = .answered answer) :
    object.step state (.respond thread) = some
      { contents := state.contents
        status := Function.update state.status thread .idle
        active := state.active.erase thread } := by
  rw [Object.step, answered]

omit [DecidableEq Thread] in
theorem seen_respond {answer : Answer} (answered : state.status thread = .answered answer) :
    state.seen (.respond thread) = [.respond thread answer] := by
  rw [AtomicState.seen, answered]

/-- A run of one step, with what it shows. -/
theorem run_observed_single {contents : Contents} {next : AtomicState Thread Contents Op Answer}
    {label : AtomicLabel Thread Op} (taken : object.step state label = some next) :
    (object.atomic Thread contents).run state [label] = some next ∧
      (object.atomic Thread contents).observed AtomicState.seen state [label] =
        state.seen label := by
  have stepped : (object.atomic Thread contents).step state label = some next := taken
  constructor
  · rw [Machine.run, stepped]
    rfl
  · rw [Machine.observed, stepped]
    exact List.append_nil _

end

end Linearizability
