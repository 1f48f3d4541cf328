/-
This file models the asynchronous `QueueFlow`s attached to one Linux `Thread` whose
callbacks are the only callers of `on`, as in the worker thread of a serial session: the
calls of the queues do not overlap, and all flows share the pipe of the thread.

A step is one call of `on`, made by whatever callback runs, or one pass of `waitInvoker`
that reads a token and lets its flow emit. The calls of `on` that callbacks make while a
value is emitted are the steps that follow. The values that each flow has accepted and
those it has emitted are recorded in order.
-/

import BrokerProxy.Library.Runs
import BrokerProxy.Limero.ArrayQueueSequential
import Mathlib.Algebra.BigOperators.Group.Finset.Basic
import Mathlib.Algebra.Order.BigOperators.Group.Finset

namespace BrokerProxy.Limero

open Runs

variable {Flow : Type} {Value : Flow → Type}

/-- The queue of each flow, the tokens in the pipe, oldest first, and what each flow has
accepted and emitted. -/
structure PipelineState (Flow : Type) (Value : Flow → Type) where
  memory : (flow : Flow) → Memory (Value flow)
  pipe : List Flow
  accepted : (flow : Flow) → List (Value flow)
  emitted : (flow : Flow) → List (Value flow)

/-- `Thread::enqueue`: the pipe does not block, so a token is lost when the pipe is full. -/
def enqueue (pipeSize : Nat) (pipe : List Flow) (flow : Flow) : List Flow :=
  if pipe.length < pipeSize then pipe ++ [flow] else pipe

variable [DecidableEq Flow]

/-- `QueueFlow::on` of a flow attached to a thread. -/
def PipelineState.on (layout : Flow → Layout) (pipeSize : Nat) (state : PipelineState Flow Value)
    (flow : Flow) (value : Value flow) : PipelineState Flow Value :=
  match (state.memory flow).push (layout flow) value with
  | (true, memory) =>
      { state with
        memory := Function.update state.memory flow memory
        pipe := enqueue pipeSize state.pipe flow
        accepted := Function.update state.accepted flow (state.accepted flow ++ [value]) }
  | (false, memory) => { state with memory := Function.update state.memory flow memory }

/-- `QueueFlow::invoke`: the oldest value is emitted, if there is one. -/
def PipelineState.invoke (layout : Flow → Layout) (state : PipelineState Flow Value)
    (flow : Flow) : PipelineState Flow Value :=
  match (state.memory flow).pop (layout flow) with
  | (some value, memory) =>
      { state with
        memory := Function.update state.memory flow memory
        emitted := Function.update state.emitted flow (state.emitted flow ++ [value]) }
  | (none, memory) => { state with memory := Function.update state.memory flow memory }

/-- `Thread::waitInvoker`: one token is read and its flow invoked; without a token the pass
ends. -/
def PipelineState.waitInvoker (layout : Flow → Layout) (state : PipelineState Flow Value) :
    PipelineState Flow Value :=
  match state.pipe with
  | [] => state
  | flow :: rest => { state with pipe := rest }.invoke layout flow

/-- What the thread does next. -/
inductive PipelineLabel (Flow : Type) (Value : Flow → Type)
  | on (flow : Flow) (value : Value flow)
  | waitInvoker

/-- Every sequence of calls of `on` and passes of `waitInvoker` on one thread, from flows that
have just been constructed. -/
def pipelineMachine (Value : Flow → Type) (layout : Flow → Layout) (pipeSize : Nat) :
    Machine (PipelineState Flow Value) (PipelineLabel Flow Value) where
  initial state := ∃ value : (flow : Flow) → Nat → Value flow, state =
    { memory := fun flow => Memory.constructed (layout flow) (value flow)
      pipe := []
      accepted := fun _ => []
      emitted := fun _ => [] }
  step state
    | .on flow value => some (state.on layout pipeSize flow value)
    | .waitInvoker => some (state.waitInvoker layout)

/-! ### The invariant -/

/-- What a flow's queue holds is what it has accepted and not emitted, with one token in the
pipe for each value. -/
structure FlowBalance {Item : Type} (layout : Layout) (memory : Memory Item) (tokens : Nat)
    (accepted emitted items : List Item) : Prop where
  window : Window layout memory emitted.length items
  accounted : Fifo.Accounted accepted emitted items
  tokens : tokens = items.length

namespace FlowBalance

variable {Item : Type} {layout : Layout} {memory : Memory Item} {tokens : Nat}
  {accepted emitted items : List Item}

theorem length_accepted (balance : FlowBalance layout memory tokens accepted emitted items) :
    accepted.length = emitted.length + items.length := by
  rw [balance.accounted, List.length_append]

/-- The position of the next push is where its index says, while no index has wrapped. -/
theorem aligned (balance : FlowBalance layout memory tokens accepted emitted items)
    (few : accepted.length < 2 ^ layout.width) :
    layout.Aligned (emitted.length + items.length) :=
  layout.aligned_of_lt (balance.length_accepted ▸ few)

/-- An accepted push with its token. -/
theorem push (balance : FlowBalance layout memory tokens accepted emitted items)
    (few : accepted.length < 2 ^ layout.width) (room : items.length < layout.capacity)
    (value : Item) :
    (memory.push layout value).1 = true ∧
      FlowBalance layout (memory.push layout value).2 (tokens + 1) (accepted ++ [value]) emitted
        (items ++ [value]) := by
  obtain ⟨pushed, window⟩ := balance.window.push_of_lt (balance.aligned few) room value
  exact ⟨pushed, window, balance.accounted.push value, by
    rw [balance.tokens, List.length_append, List.length_singleton]⟩

/-- A push is refused only by a queue that holds its capacity. -/
theorem refused (balance : FlowBalance layout memory tokens accepted emitted items)
    (few : accepted.length < 2 ^ layout.width) {value : Item}
    (refused : (memory.push layout value).1 = false) : items.length = layout.capacity := by
  refine Nat.le_antisymm balance.window.fits (Nat.le_of_not_lt fun room => ?_)
  rw [(balance.push few room value).1] at refused
  exact Bool.false_ne_true refused.symm

/-- A push that finds no place changes nothing. -/
theorem push_of_full (balance : FlowBalance layout memory tokens accepted emitted items)
    (few : accepted.length < 2 ^ layout.width) (full : ¬ items.length < layout.capacity)
    (value : Item) : memory.push layout value = (false, memory) := by
  have whole := balance.length_accepted
  exact balance.window.push_of_full (balance.aligned few) (by omega) full value

/-- The pop for a token takes the oldest value. -/
theorem pop (balance : FlowBalance layout memory (tokens + 1) accepted emitted items)
    (few : accepted.length < 2 ^ layout.width) :
    ∃ oldest rest, items = oldest :: rest ∧ (memory.pop layout).1 = some oldest ∧
      FlowBalance layout (memory.pop layout).2 tokens accepted (emitted ++ [oldest]) rest := by
  have whole := balance.length_accepted
  obtain ⟨oldest, rest, rfl⟩ := List.exists_cons_of_length_eq_add_one balance.tokens.symm
  obtain ⟨found, window⟩ := balance.window.pop_of_cons (layout.aligned_of_lt (by omega))
  refine ⟨oldest, rest, rfl, found, ?_, balance.accounted.pop, Nat.succ.inj balance.tokens⟩
  rw [List.length_append]
  exact window

end FlowBalance

/-- Every flow is balanced. -/
def Balanced (layout : Flow → Layout) (state : PipelineState Flow Value) : Prop :=
  ∀ flow, ∃ items, FlowBalance (layout flow) (state.memory flow) (state.pipe.count flow)
    (state.accepted flow) (state.emitted flow) items

variable {layout : Flow → Layout} {pipeSize : Nat} {state : PipelineState Flow Value}

/-- The tokens in the pipe are those of each flow. -/
theorem length_pipe [Fintype Flow] (pipe : List Flow) :
    pipe.length = ∑ flow, pipe.count flow := by
  have counted := Multiset.sum_count_eq_card (s := Finset.univ) (m := (pipe : Multiset Flow))
    fun flow _ => Finset.mem_univ flow
  simp only [Multiset.coe_card, Multiset.coe_count] at counted
  exact counted.symm

/-- While one flow has a place left, the pipe has room for its token. -/
theorem pipe_has_room [Fintype Flow] (roomy : ∑ flow, (layout flow).capacity ≤ pipeSize)
    (balanced : Balanced layout state) {flow : Flow}
    (room : state.pipe.count flow < (layout flow).capacity) : state.pipe.length < pipeSize := by
  rw [length_pipe]
  refine lt_of_lt_of_le (Finset.sum_lt_sum (fun other _ => ?_) ⟨flow, Finset.mem_univ _, room⟩)
    roomy
  obtain ⟨items, balance⟩ := balanced other
  rw [balance.tokens]
  exact balance.window.fits

/-- What each queue holds. -/
def Holding (layout : Flow → Layout) (state : PipelineState Flow Value)
    (items : (flow : Flow) → List (Value flow)) : Prop :=
  ∀ flow, FlowBalance (layout flow) (state.memory flow) (state.pipe.count flow)
    (state.accepted flow) (state.emitted flow) (items flow)

theorem Holding.balanced {items : (flow : Flow) → List (Value flow)}
    (holding : Holding layout state items) : Balanced layout state :=
  fun flow => ⟨items flow, holding flow⟩

/-- A change of one flow leaves what the others hold. -/
theorem Holding.update {items : (flow : Flow) → List (Value flow)}
    (holding : Holding layout state items) {flow : Flow} {pipe : List Flow}
    {memory : Memory (Value flow)} {accepted emitted held : List (Value flow)}
    (others : ∀ other, other ≠ flow → pipe.count other = state.pipe.count other)
    (balance : FlowBalance (layout flow) memory (pipe.count flow) accepted emitted held) :
    Holding layout
      { memory := Function.update state.memory flow memory
        pipe := pipe
        accepted := Function.update state.accepted flow accepted
        emitted := Function.update state.emitted flow emitted }
      (Function.update items flow held) := by
  intro other
  simp only
  by_cases same : other = flow
  · subst same
    rw [Function.update_self, Function.update_self, Function.update_self, Function.update_self]
    exact balance
  · rw [Function.update_of_ne same, Function.update_of_ne same, Function.update_of_ne same,
      Function.update_of_ne same, others other same]
    exact holding other

/-- `on` of a flow whose queue has a place puts the value behind what it holds. -/
theorem Holding.on [Fintype Flow] (roomy : ∑ flow, (layout flow).capacity ≤ pipeSize)
    {items : (flow : Flow) → List (Value flow)} (holding : Holding layout state items)
    (flow : Flow) (value : Value flow)
    (few : (state.accepted flow).length < 2 ^ (layout flow).width)
    (room : (items flow).length < (layout flow).capacity) :
    state.on layout pipeSize flow value =
        { state with
          memory := Function.update state.memory flow
            ((state.memory flow).push (layout flow) value).2
          pipe := state.pipe ++ [flow]
          accepted := Function.update state.accepted flow (state.accepted flow ++ [value]) } ∧
      Holding layout (state.on layout pipeSize flow value)
        (Function.update items flow (items flow ++ [value])) := by
  obtain ⟨pushed, grown⟩ := (holding flow).push few room value
  have free : state.pipe.length < pipeSize :=
    pipe_has_room roomy holding.balanced ((holding flow).tokens ▸ room)
  have stepped : state.on layout pipeSize flow value =
      { state with
        memory := Function.update state.memory flow
          ((state.memory flow).push (layout flow) value).2
        pipe := state.pipe ++ [flow]
        accepted := Function.update state.accepted flow (state.accepted flow ++ [value]) } := by
    rw [PipelineState.on, ← Prod.mk.eta (p := (state.memory flow).push (layout flow) value),
      pushed, enqueue, if_pos free]
  have others : ∀ other, other ≠ flow →
      (state.pipe ++ [flow]).count other = state.pipe.count other := fun other different => by
    rw [List.count_append, List.count_cons_of_ne (Ne.symm different), List.count_nil,
      Nat.add_zero]
  have kept := holding.update others
    (by rw [List.count_append, List.count_singleton_self]; exact grown)
  rw [Function.update_eq_self] at kept
  refine ⟨stepped, ?_⟩
  rw [stepped]
  exact kept

/-- `on` of a flow whose queue is full changes nothing. -/
theorem Holding.on_of_full {items : (flow : Flow) → List (Value flow)}
    (holding : Holding layout state items) (flow : Flow) (value : Value flow)
    (few : (state.accepted flow).length < 2 ^ (layout flow).width)
    (full : ¬ (items flow).length < (layout flow).capacity) :
    state.on layout pipeSize flow value = state := by
  rw [PipelineState.on, (holding flow).push_of_full few full value]
  show { state with memory := Function.update state.memory flow (state.memory flow) } = state
  rw [Function.update_eq_self]

/-- `on` keeps every flow balanced. -/
theorem Balanced.on [Fintype Flow] (roomy : ∑ flow, (layout flow).capacity ≤ pipeSize)
    (balanced : Balanced layout state) (flow : Flow) (value : Value flow)
    (few : (state.accepted flow).length < 2 ^ (layout flow).width) :
    Balanced layout (state.on layout pipeSize flow value) := by
  choose items holding using balanced
  by_cases room : (items flow).length < (layout flow).capacity
  · exact (Holding.on roomy holding flow value few room).2.balanced
  · rw [Holding.on_of_full holding flow value few room]
    exact Holding.balanced holding

/-- A pass that reads a token takes the oldest value that its flow holds. -/
theorem Holding.waitInvoker {items : (flow : Flow) → List (Value flow)} {flow : Flow}
    {rest : List Flow} (holding : Holding layout state items) (token : state.pipe = flow :: rest)
    (few : (state.accepted flow).length < 2 ^ (layout flow).width) :
    ∃ oldest later, items flow = oldest :: later ∧
      ((state.memory flow).pop (layout flow)).1 = some oldest ∧
      state.waitInvoker layout =
        { state with
          memory := Function.update state.memory flow
            ((state.memory flow).pop (layout flow)).2
          pipe := rest
          emitted := Function.update state.emitted flow (state.emitted flow ++ [oldest]) } ∧
      Holding layout (state.waitInvoker layout) (Function.update items flow later) := by
  have balance := holding flow
  rw [token, List.count_cons_self] at balance
  obtain ⟨oldest, later, same, popped, shrunk⟩ := balance.pop few
  have stepped : state.waitInvoker layout =
      { state with
        memory := Function.update state.memory flow ((state.memory flow).pop (layout flow)).2
        pipe := rest
        emitted := Function.update state.emitted flow (state.emitted flow ++ [oldest]) } := by
    rw [PipelineState.waitInvoker, token]
    show PipelineState.invoke _ _ _ = _
    rw [PipelineState.invoke, ← Prod.mk.eta (p := Memory.pop _ _), popped]
  have others : ∀ other, other ≠ flow → rest.count other = state.pipe.count other :=
    fun other different => by rw [token, List.count_cons_of_ne (Ne.symm different)]
  have kept := holding.update others shrunk
  rw [Function.update_eq_self] at kept
  refine ⟨oldest, later, same, popped, stepped, ?_⟩
  rw [stepped]
  exact kept

/-- `on` for each of several values, as a callback makes it that emits more than one. -/
def PipelineState.onAll (layout : Flow → Layout) (pipeSize : Nat) (state : PipelineState Flow Value)
    (flow : Flow) (values : List (Value flow)) : PipelineState Flow Value :=
  values.foldl (fun state value => state.on layout pipeSize flow value) state

/-- Values for which there are places stand behind what the queue holds, in order. -/
theorem Holding.onAll [Fintype Flow] (roomy : ∑ flow, (layout flow).capacity ≤ pipeSize)
    (flow : Flow) (values : List (Value flow)) :
    ∀ {state : PipelineState Flow Value} {items : (flow : Flow) → List (Value flow)},
      Holding layout state items →
      (state.accepted flow).length + values.length < 2 ^ (layout flow).width →
      (items flow).length + values.length ≤ (layout flow).capacity →
      Holding layout (state.onAll layout pipeSize flow values)
          (Function.update items flow (items flow ++ values)) ∧
        (state.onAll layout pipeSize flow values).accepted =
          Function.update state.accepted flow (state.accepted flow ++ values) := by
  induction values with
  | nil =>
    intro state items holding _ _
    rw [List.append_nil, List.append_nil, Function.update_eq_self, Function.update_eq_self]
    exact ⟨holding, rfl⟩
  | cons value rest inductionHypothesis =>
    intro state items holding few room
    rw [List.length_cons] at few room
    obtain ⟨stepped, held⟩ := Holding.on roomy holding flow value (by omega) (by omega)
    have accepted : (state.on layout pipeSize flow value).accepted =
        Function.update state.accepted flow (state.accepted flow ++ [value]) := by rw [stepped]
    obtain ⟨kept, grown⟩ := inductionHypothesis held
      (by rw [accepted, Function.update_self, List.length_append, List.length_singleton]; omega)
      (by rw [Function.update_self, List.length_append, List.length_singleton]; omega)
    rw [Function.update_self, Function.update_idem, List.append_assoc,
      List.singleton_append] at kept
    rw [accepted, Function.update_self, Function.update_idem, List.append_assoc,
      List.singleton_append] at grown
    exact ⟨kept, grown⟩

theorem onAll_append (flow : Flow) (first second : List (Value flow)) :
    state.onAll layout pipeSize flow (first ++ second) =
      (state.onAll layout pipeSize flow first).onAll layout pipeSize flow second :=
  List.foldl_append

/-- Values for which there is no place are all refused. -/
theorem Holding.onAll_of_full {items : (flow : Flow) → List (Value flow)}
    (holding : Holding layout state items) (flow : Flow) (values : List (Value flow))
    (few : (state.accepted flow).length < 2 ^ (layout flow).width)
    (full : ¬ (items flow).length < (layout flow).capacity) :
    state.onAll layout pipeSize flow values = state := by
  induction values with
  | nil => rfl
  | cons value rest inductionHypothesis =>
    have refused : state.on layout pipeSize flow value = state :=
      holding.on_of_full flow value few full
    show (state.on layout pipeSize flow value).onAll layout pipeSize flow rest = state
    rw [refused, inductionHypothesis]

/-- Of several values the first are kept, as many as there are places. -/
theorem Holding.onAll_take [Fintype Flow] (roomy : ∑ flow, (layout flow).capacity ≤ pipeSize)
    {items : (flow : Flow) → List (Value flow)} (holding : Holding layout state items)
    (flow : Flow) (values : List (Value flow))
    (few : (state.accepted flow).length + values.length < 2 ^ (layout flow).width) :
    Holding layout (state.onAll layout pipeSize flow values)
        (Function.update items flow
          (items flow ++ values.take ((layout flow).capacity - (items flow).length))) ∧
      (state.onAll layout pipeSize flow values).accepted =
        Function.update state.accepted flow (state.accepted flow ++
          values.take ((layout flow).capacity - (items flow).length)) := by
  have fits := (holding flow).window.fits
  rcases Nat.le_total values.length ((layout flow).capacity - (items flow).length) with all | more
  · rw [List.take_of_length_le all]
    exact Holding.onAll roomy flow values holding few (by omega)
  · have taken := List.length_take_of_le more
    obtain ⟨held, accepted⟩ := Holding.onAll roomy flow
      (values.take ((layout flow).capacity - (items flow).length)) holding (by omega) (by omega)
    have stepped : state.onAll layout pipeSize flow values =
        state.onAll layout pipeSize flow
          (values.take ((layout flow).capacity - (items flow).length)) := by
      conv_lhs => rw [← List.take_append_drop ((layout flow).capacity - (items flow).length) values]
      rw [onAll_append]
      refine held.onAll_of_full flow _ ?_ ?_
      · rw [accepted, Function.update_self, List.length_append]
        omega
      · rw [Function.update_self, List.length_append]
        omega
    rw [stepped]
    exact ⟨held, accepted⟩

/-- What a queue holds is what its memory shows. -/
theorem Holding.contents {items : (flow : Flow) → List (Value flow)}
    (holding : Holding layout state items) (flow : Flow)
    (few : (state.accepted flow).length < 2 ^ (layout flow).width) :
    (state.memory flow).contents (layout flow) = items flow :=
  (holding flow).window.contents_eq ((holding flow).length_accepted ▸ few)

/-! ### The other queues -/

theorem on_memory {flow other : Flow} (different : other ≠ flow) (value : Value flow) :
    (state.on layout pipeSize flow value).memory other = state.memory other := by
  unfold PipelineState.on
  split <;> exact Function.update_of_ne different _ _

theorem onAll_memory {flow other : Flow} (different : other ≠ flow) (values : List (Value flow)) :
    ∀ state : PipelineState Flow Value,
      (state.onAll layout pipeSize flow values).memory other = state.memory other := by
  induction values with
  | nil => exact fun state => rfl
  | cons value rest inductionHypothesis =>
    intro state
    exact (inductionHypothesis (state.on layout pipeSize flow value)).trans
      (on_memory different value)

theorem waitInvoker_memory {flow other : Flow} {rest : List Flow} (different : other ≠ flow)
    (token : state.pipe = flow :: rest) :
    (state.waitInvoker layout).memory other = state.memory other := by
  unfold PipelineState.waitInvoker PipelineState.invoke
  rw [token]
  dsimp only
  split <;> exact Function.update_of_ne different _ _

/-! ### Whole runs -/

/-- Without tokens every value accepted has been emitted. -/
theorem Balanced.of_empty (balanced : Balanced layout state) (empty : state.pipe = [])
    (flow : Flow) : state.emitted flow = state.accepted flow := by
  obtain ⟨items, balance⟩ := balanced flow
  have tokens := balance.tokens
  rw [empty, List.count_nil] at tokens
  obtain rfl := List.length_eq_zero_iff.mp tokens.symm
  exact balance.accounted.of_empty

/-- The flows of a serial session. -/
inductive SerialFlow
  | incomingSerial
  | incomingMessage
  | outgoingMessage
deriving DecidableEq

instance : Fintype SerialFlow where
  elems := {.incomingSerial, .incomingMessage, .outgoingMessage}
  complete := by rintro (_ | _ | _) <;> decide

end BrokerProxy.Limero
