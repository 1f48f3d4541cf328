/-
This file models the main thread of the Arduino build: its ring of ten slots for invoker
tokens, the asynchronous `QueueFlow`s attached to it, each with a ring of its own, and the
asynchronous `ValueFlow`s, which hold the latest value only.

A step is one call of `QueueFlow::on`, one call of `ValueFlow::on`, or one iteration of
`Thread::loop`, which invokes one token or serves a timer. A handler that `emit` or a timer
runs may call `on` again: `emit` is the last thing an invocation does, so such a call is a
step of its own after it. What each `QueueFlow` has accepted and emitted is recorded.
-/

import BrokerProxy.Library.Runs
import BrokerProxy.Limero.RingQueue

namespace BrokerProxy.Limero

open Runs

/-- What a token in the work queue points at. -/
inductive Invoker (QueueName ValueName : Type)
  | queueFlow (flow : QueueName)
  | valueFlow (flow : ValueName)
deriving DecidableEq

/-- The main thread and the flows attached to it: the work queue, the ring of each `QueueFlow`,
the value of each `ValueFlow` and the statistics, with the messages that each `QueueFlow` has
accepted and emitted. -/
structure MainThread (QueueName ValueName Message Latest : Type) (size : QueueName → Nat) where
  workQueue : RingQueue (Invoker QueueName ValueName) 10
  queue : ∀ flow, RingQueue Message (size flow)
  latest : ValueName → Latest
  stats : NanoStats
  accepted : QueueName → List Message
  emitted : QueueName → List Message

namespace MainThread

variable {QueueName ValueName Message Latest : Type} {size : QueueName → Nat}

/-- `Thread::enqueue`: the result of the push is dropped, and zero is returned in any case. -/
def enqueue (thread : MainThread QueueName ValueName Message Latest size)
    (invoker : Invoker QueueName ValueName) :
    Int × MainThread QueueName ValueName Message Latest size :=
  let pushed := thread.workQueue.push thread.stats invoker
  (0, { thread with workQueue := pushed.2.1, stats := pushed.2.2 })

variable [DecidableEq QueueName] [DecidableEq ValueName]

/-- `QueueFlow::on` of an asynchronous flow. -/
def on (thread : MainThread QueueName ValueName Message Latest size) (flow : QueueName)
    (message : Message) : MainThread QueueName ValueName Message Latest size :=
  let pushed := (thread.queue flow).push thread.stats message
  let after :=
    { thread with queue := Function.update thread.queue flow pushed.2.1, stats := pushed.2.2 }
  if pushed.1 then
    ({ after with
        accepted := Function.update thread.accepted flow (thread.accepted flow ++ [message])
      }.enqueue (.queueFlow flow)).2
  else after

/-- `ValueFlow::on` of an asynchronous flow. -/
def onValue (thread : MainThread QueueName ValueName Message Latest size) (flow : ValueName)
    (value : Latest) : MainThread QueueName ValueName Message Latest size :=
  ({ thread with latest := Function.update thread.latest flow value }.enqueue (.valueFlow flow)).2

/-- `invoke`: a `QueueFlow` emits its oldest message or warns that it has none, a `ValueFlow`
emits its value. -/
def invoke (thread : MainThread QueueName ValueName Message Latest size) :
    Invoker QueueName ValueName → MainThread QueueName ValueName Message Latest size
  | .queueFlow flow =>
      let popped := (thread.queue flow).pop
      let after := { thread with queue := Function.update thread.queue flow popped.2 }
      match popped.1 with
      | some message =>
          { after with
            emitted := Function.update thread.emitted flow (thread.emitted flow ++ [message]) }
      | none => after
  | .valueFlow _ => thread

/-- The expire time that `loop` finds in `_timers`: the first of the earliest ones, if it comes
within the horizon. -/
def nextExpireTime (horizon : Nat) (expireTimes : List Nat) : Nat :=
  expireTimes.foldl
    (fun expTime expireTime => if expireTime < expTime then expireTime else expTime) horizon

/-- The `waitTime` of `loop`: the time to the next timer, converted to a 32-bit signed number. -/
def waitTime (now : Nat) (expireTimes : List Nat) : Int :=
  ((nextExpireTime ((now + 5000) % 2 ^ 64) expireTimes : Int) - now).bmod (2 ^ 32)

/-- One iteration of `loop`: while no timer is due it invokes one token, and otherwise it serves
a timer, which leaves the queues alone. -/
def loop (thread : MainThread QueueName ValueName Message Latest size) (now : Nat)
    (expireTimes : List Nat) : MainThread QueueName ValueName Message Latest size :=
  if 0 < waitTime now expireTimes then
    let popped := thread.workQueue.pop
    match popped.1 with
    | some invoker => { thread with workQueue := popped.2 }.invoke invoker
    | none => { thread with workQueue := popped.2 }
  else thread

end MainThread

/-- What happens next on the main thread. The clock and the expire times of the timers are
those the iteration of `loop` meets. -/
inductive MainLabel (QueueName ValueName Message Latest : Type)
  | on (flow : QueueName) (message : Message)
  | onValue (flow : ValueName) (value : Latest)
  | loop (now : Nat) (expireTimes : List Nat)

variable {QueueName ValueName Message Latest : Type} [DecidableEq QueueName]
  [DecidableEq ValueName] {size : QueueName → Nat}

/-- The main thread under any sequence of calls and iterations. -/
def mainMachine (QueueName ValueName Message Latest : Type) [DecidableEq QueueName]
    [DecidableEq ValueName] (size : QueueName → Nat) (positive : ∀ flow, 0 < size flow) :
    Machine (MainThread QueueName ValueName Message Latest size)
      (MainLabel QueueName ValueName Message Latest) where
  initial thread := ∃ tokens latest, ∃ messages : QueueName → Nat → Message,
    thread =
      { workQueue := RingQueue.constructed (Nat.zero_lt_succ _) tokens
        queue := fun flow => RingQueue.constructed (positive flow) (messages flow)
        latest := latest
        stats := ⟨0⟩
        accepted := fun _ => []
        emitted := fun _ => [] }
  step thread
    | .on flow message => some (thread.on flow message)
    | .onValue flow value => some (thread.onValue flow value)
    | .loop now expireTimes => some (thread.loop now expireTimes)

/-- A call of `QueueFlow::on` whose message the flow accepts finds a free slot for its token in
the work queue. -/
def roomForToken (thread : MainThread QueueName ValueName Message Latest size) :
    MainLabel QueueName ValueName Message Latest → Bool
  | .on flow _ => (thread.queue flow).full || !thread.workQueue.full
  | _ => true

/-! ### The values of the flows -/

namespace MainThread

omit [DecidableEq ValueName] in
/-- Messages leave the values alone. -/
theorem latest_on (thread : MainThread QueueName ValueName Message Latest size)
    (flow : QueueName) (message : Message) : (thread.on flow message).latest = thread.latest := by
  unfold on
  dsimp only
  split
  · rfl
  · rfl

omit [DecidableEq ValueName] in
/-- An iteration leaves the values alone. -/
theorem latest_loop (thread : MainThread QueueName ValueName Message Latest size) (now : Nat)
    (expireTimes : List Nat) : (thread.loop now expireTimes).latest = thread.latest := by
  unfold loop
  dsimp only
  split
  · split
    · rename_i invoker _
      cases invoker with
      | queueFlow flow =>
        unfold invoke
        dsimp only
        split
        · rfl
        · rfl
      | valueFlow flow => rfl
    · rfl
  · rfl

omit [DecidableEq QueueName] in
theorem latest_onValue (thread : MainThread QueueName ValueName Message Latest size)
    (flow : ValueName) (value : Latest) : (thread.onValue flow value).latest flow = value := by
  unfold onValue enqueue
  exact Function.update_self flow value thread.latest

end MainThread

/-! ### Tokens and messages -/

namespace MainThread

/-- The tokens of a flow in the work queue. -/
def tokens (thread : MainThread QueueName ValueName Message Latest size) (flow : QueueName) :
    Nat :=
  thread.workQueue.contents.count (.queueFlow flow)

/-- Each flow has as many tokens in the work queue as messages in its own queue, and has emitted,
in order, what it has accepted and does not hold. -/
structure Balanced (thread : MainThread QueueName ValueName Message Latest size) : Prop where
  tokens : ∀ flow, thread.tokens flow = (thread.queue flow).contents.length
  accounted : ∀ flow,
    Fifo.Accounted (thread.accepted flow) (thread.emitted flow) (thread.queue flow).contents

end MainThread

namespace MainThread.Balanced

variable {thread : MainThread QueueName ValueName Message Latest size}

/-- A message whose token has a place keeps the balance. -/
theorem on (balanced : thread.Balanced) (flow : QueueName) (message : Message)
    (room : ((thread.queue flow).full || !thread.workQueue.full) = true) :
    (thread.on flow message).Balanced := by
  cases full : (thread.queue flow).full with
  | true =>
    obtain ⟨refused, kept⟩ :=
      (thread.queue flow).contents_push_of_full thread.stats message full
    have same : Function.update thread.queue flow (thread.queue flow) = thread.queue :=
      Function.update_eq_self flow thread.queue
    unfold MainThread.on
    simp only [refused, kept, same]
    exact ⟨balanced.tokens, balanced.accounted⟩
  | false =>
    obtain ⟨accepted, grown⟩ :=
      (thread.queue flow).contents_push_of_not_full thread.stats message full
    have free : thread.workQueue.full = false := by
      rw [full, Bool.false_or] at room
      exact (Bool.not_eq_true' _).mp room
    obtain ⟨-, queued⟩ := thread.workQueue.contents_push_of_not_full
      ((thread.queue flow).push thread.stats message).2.2 (Invoker.queueFlow flow) free
    unfold MainThread.on enqueue
    simp only [accepted, if_true]
    constructor
    · intro other
      have before := balanced.tokens other
      rw [MainThread.tokens] at before
      show List.count (Invoker.queueFlow other) (RingQueue.contents _) =
        (Function.update thread.queue flow _ other).contents.length
      rw [queued, List.count_append, before]
      by_cases same : other = flow
      · rw [same, Function.update_self, grown, List.count_singleton_self, List.length_append]
        rfl
      · rw [Function.update_of_ne same, List.count_singleton, if_neg, Nat.add_zero]
        exact fun equal => same (Invoker.queueFlow.inj (beq_iff_eq.mp equal)).symm
    · intro other
      show Fifo.Accounted (Function.update thread.accepted flow _ other) (thread.emitted other)
        (Function.update thread.queue flow _ other).contents
      by_cases same : other = flow
      · rw [same, Function.update_self, Function.update_self, grown]
        exact (balanced.accounted flow).push message
      · rw [Function.update_of_ne same, Function.update_of_ne same]
        exact balanced.accounted other

/-- The token of a `ValueFlow` is nobody's message. -/
theorem onValue (balanced : thread.Balanced) (flow : ValueName) (value : Latest) :
    (thread.onValue flow value).Balanced := by
  refine ⟨fun other => ?_, balanced.accounted⟩
  have before := balanced.tokens other
  rw [MainThread.tokens] at before
  show List.count (Invoker.queueFlow other)
    (thread.workQueue.push thread.stats (.valueFlow flow)).2.1.contents = _
  cases full : thread.workQueue.full with
  | true =>
    rw [(thread.workQueue.contents_push_of_full thread.stats _ full).2]
    exact before
  | false =>
    rw [(thread.workQueue.contents_push_of_not_full thread.stats _ full).2, List.count_append,
      before, List.count_singleton, if_neg (by simp only [beq_iff_eq, reduceCtorEq,
        not_false_eq_true])]
    rfl

/-- One iteration of `loop` takes a token out of the work queue together with the message it
stands for. -/
theorem loop (balanced : thread.Balanced) (now : Nat) (expireTimes : List Nat) :
    (thread.loop now expireTimes).Balanced := by
  unfold MainThread.loop
  split
  · by_cases empty : thread.workQueue.count = 0
    · rw [thread.workQueue.pop_of_empty empty]
      exact ⟨balanced.tokens, balanced.accounted⟩
    · obtain ⟨invoker, taken, whole⟩ := thread.workQueue.contents_eq_of_pop empty
      simp only [taken]
      have before : ∀ other,
          List.count (Invoker.queueFlow other) (invoker :: thread.workQueue.pop.2.contents) =
            (thread.queue other).contents.length := by
        intro other
        rw [← whole]
        exact balanced.tokens other
      cases invoker with
      | valueFlow flow =>
        refine ⟨fun other => ?_, balanced.accounted⟩
        have different : Invoker.valueFlow flow ≠ Invoker.queueFlow other := nofun
        have count := before other
        rwa [List.count_cons_of_ne different] at count
      | queueFlow flow =>
        have some : (thread.queue flow).count ≠ 0 := by
          rw [← RingQueue.length_contents, ← before flow, List.count_cons_self]
          exact Nat.succ_ne_zero _
        obtain ⟨message, popped, contents⟩ := (thread.queue flow).contents_eq_of_pop some
        unfold MainThread.invoke
        simp only [popped]
        constructor
        · intro other
          show List.count (Invoker.queueFlow other) thread.workQueue.pop.2.contents =
            (Function.update thread.queue flow _ other).contents.length
          by_cases same : other = flow
          · have balance := before flow
            rw [contents, List.count_cons_self, List.length_cons] at balance
            rw [same, Function.update_self]
            exact Nat.succ.inj balance
          · rw [Function.update_of_ne same, ← before other, List.count_cons_of_ne]
            exact fun equal => same (Invoker.queueFlow.inj equal).symm
        · intro other
          show Fifo.Accounted (thread.accepted other) (Function.update thread.emitted flow _ other)
            (Function.update thread.queue flow _ other).contents
          by_cases same : other = flow
          · have accounted := balanced.accounted flow
            rw [contents] at accounted
            rw [same, Function.update_self, Function.update_self]
            exact accounted.pop
          · rw [Function.update_of_ne same, Function.update_of_ne same]
            exact balanced.accounted other
  · exact balanced

end MainThread.Balanced

/-! ### Runs -/

/-- In every run in which each accepted message finds a place for its token, each flow has as
many tokens as messages, and once the work queue is empty every flow has emitted, in order, what
it has accepted. -/
theorem mainThread_drained {positive : ∀ flow, 0 < size flow}
    {thread : MainThread QueueName ValueName Message Latest size}
    (reachable : ((mainMachine QueueName ValueName Message Latest size positive).restrict
      roomForToken).Reachable thread) (flow : QueueName) :
    thread.tokens flow = (thread.queue flow).contents.length ∧
    (thread.workQueue.contents = [] →
      (thread.queue flow).contents = [] ∧ thread.emitted flow = thread.accepted flow) := by
  have balanced : thread.Balanced := by
    refine Machine.Reachable.invariant ?_ ?_ reachable
    · rintro thread ⟨tokens, latest, messages, rfl⟩
      refine ⟨fun other => ?_, fun other => ?_⟩
      · show List.count _ (RingQueue.constructed _ tokens).contents =
          (RingQueue.constructed _ (messages other)).contents.length
        rw [RingQueue.contents_constructed, RingQueue.contents_constructed]
        rfl
      · show Fifo.Accounted [] [] (RingQueue.constructed _ (messages other)).contents
        rw [RingQueue.contents_constructed]
        exact Fifo.Accounted.start
    · intro thread label next _ balanced taken
      obtain ⟨room, stepped⟩ := Machine.restrict_step taken
      cases label with
      | on other message => exact Option.some.inj stepped ▸ balanced.on other message room
      | onValue other value => exact Option.some.inj stepped ▸ balanced.onValue other value
      | loop now expireTimes => exact Option.some.inj stepped ▸ balanced.loop now expireTimes
  refine ⟨balanced.tokens flow, fun empty => ?_⟩
  have none : (thread.queue flow).contents = [] := by
    have tokens := balanced.tokens flow
    rw [MainThread.tokens, empty, List.count_nil] at tokens
    exact List.length_eq_zero_iff.mp tokens.symm
  have accounted := balanced.accounted flow
  rw [none] at accounted
  exact ⟨none, accounted.of_empty⟩

/-- The `QueueFlow`s of `BrokerSerial`. -/
inductive BrokerQueue
  | outgoing
  | incoming
deriving DecidableEq

/-- The sizes that `BrokerSerial` gives its `QueueFlow`s. -/
def BrokerQueue.ringSize : BrokerQueue → Nat
  | .outgoing => 10
  | .incoming => 5

theorem BrokerQueue.ringSize_pos : ∀ flow : BrokerQueue, 0 < flow.ringSize
  | .outgoing => Nat.zero_lt_succ _
  | .incoming => Nat.zero_lt_succ _

/-- The main thread of `BrokerSerial`, whose only asynchronous `ValueFlow` is `connected`. A
message is a topic. -/
def brokerMachine : Machine (MainThread BrokerQueue Unit String Bool BrokerQueue.ringSize)
    (MainLabel BrokerQueue Unit String Bool) :=
  mainMachine BrokerQueue Unit String Bool BrokerQueue.ringSize BrokerQueue.ringSize_pos

/-- The main thread of `BrokerSerial` after its construction. -/
def brokerStart : MainThread BrokerQueue Unit String Bool BrokerQueue.ringSize where
  workQueue := RingQueue.constructed (Nat.zero_lt_succ _) fun _ => .valueFlow ()
  queue flow := RingQueue.constructed flow.ringSize_pos fun _ => ""
  latest _ := false
  stats := ⟨0⟩
  accepted _ := []
  emitted _ := []

theorem brokerMachine_initial : brokerMachine.initial brokerStart :=
  ⟨fun _ => .valueFlow (), fun _ => false, fun _ _ => "", rfl⟩

theorem mainThread_drained_one :
    ∃ thread, (brokerMachine.restrict roomForToken).Reachable thread ∧
      thread.workQueue.contents = [] ∧ thread.accepted .incoming = ["dst/node/a"] ∧
      thread.emitted .incoming = ["dst/node/a"] := by
  obtain ⟨thread, reachable, passed⟩ := Machine.exists_reachable_of_run
    (brokerMachine.restrict roomForToken) brokerMachine_initial
    [.on .incoming "dst/node/a", .onValue () true, .loop 0 [], .loop 0 []]
    (fun thread => decide (thread.workQueue.contents = [] ∧
      thread.accepted .incoming = ["dst/node/a"])) (by decide +kernel)
  obtain ⟨empty, accepted⟩ := of_decide_eq_true passed
  obtain ⟨-, emitted⟩ := (mainThread_drained reachable .incoming).2 empty
  exact ⟨thread, reachable, empty, accepted, emitted.trans accepted⟩

/-- Nine messages fill the work queue with their tokens, and the token of a tenth one for
another flow is dropped. -/
def burst : List (MainLabel BrokerQueue Unit String Bool) :=
  List.replicate 9 (.on .outgoing "src/node/a") ++ [.on .incoming "dst/node/a"] ++
    List.replicate 9 (.loop 0 [])

/-- A burst strands a message: the work queue is empty, and the message that `_incoming` accepted
is still in its queue. -/
theorem mainThread_stranded :
    ∃ thread, brokerMachine.Reachable thread ∧ thread.workQueue.contents = [] ∧
      thread.tokens .incoming ≠ (thread.queue .incoming).contents.length ∧
      thread.accepted .incoming = ["dst/node/a"] ∧ thread.emitted .incoming = [] := by
  obtain ⟨thread, reachable, passed⟩ := Machine.exists_reachable_of_run brokerMachine
    brokerMachine_initial burst
    (fun thread => decide (thread.workQueue.contents = [] ∧
      thread.tokens .incoming ≠ (thread.queue .incoming).contents.length ∧
      thread.accepted .incoming = ["dst/node/a"] ∧ thread.emitted .incoming = []))
    (by decide +kernel)
  exact ⟨thread, reachable, of_decide_eq_true passed⟩

end BrokerProxy.Limero
