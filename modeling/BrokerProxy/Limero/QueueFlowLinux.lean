/-
This file models an asynchronous `QueueFlow` on Linux: any number of producer threads
call `on`, one consumer thread runs `waitInvoker`, and the two meet in the flow's lock-free
queue and in the pipe of the consumer's thread.

A step is one atomic access of `push` or `pop`, one write of the flow's invoker to the
pipe, one read of it, or one emission. The pipe is never full. Only the tokens of this
flow are counted: the other invokers in the pipe do not touch it. The values emitted are
recorded in order.
-/

import BrokerProxy.Limero.ArrayQueueSafety
import Mathlib.Algebra.BigOperators.Group.Finset.Piecewise
import Mathlib.Algebra.Order.BigOperators.Group.Finset
import Mathlib.Data.Fintype.Option

namespace BrokerProxy.Limero

open Runs

/-- The queue of the flow, whose threads are the producers and, as `none`, the consumer; the
number of tokens in the pipe; and what `emit` has been given. -/
structure FlowState (Producer Value : Type) where
  queue : QueueState (Option Producer) Value
  tokens : Nat
  emitted : List Value

/-- What happens next: a producer enters `on`, makes an access of `push`, writes its token or
warns; the consumer reads a token and enters `invoke`, makes an access of `pop`, emits or
warns. -/
inductive FlowLabel (Producer Value : Type)
  | on (producer : Producer) (value : Value)
  | push (producer : Producer)
  | enqueue (producer : Producer)
  | pushFailed (producer : Producer)
  | waitInvoker
  | pop
  | emit
  | noData

variable {Producer Value : Type} [DecidableEq Producer]

/-- One step of one thread: `on` of a producer, `waitInvoker` and `invoke` of the consumer. -/
def flowStep (layout : Layout) (state : FlowState Producer Value) :
    FlowLabel Producer Value → Option (FlowState Producer Value)
  | .on producer value =>
      (queueStep layout state.queue (.push (some producer) value)).map
        fun queue => { state with queue := queue }
  | .push producer =>
      (queueStep layout state.queue (.advance (some producer))).map
        fun queue => { state with queue := queue }
  | .enqueue producer =>
      match state.queue.pc (some producer) with
      | .pushReturned true =>
          (queueStep layout state.queue (.leave (some producer))).map
            fun queue => { state with queue := queue, tokens := state.tokens + 1 }
      | _ => none
  | .pushFailed producer =>
      match state.queue.pc (some producer) with
      | .pushReturned false =>
          (queueStep layout state.queue (.leave (some producer))).map
            fun queue => { state with queue := queue }
      | _ => none
  | .waitInvoker =>
      match state.tokens with
      | 0 => none
      | tokens + 1 =>
          (queueStep layout state.queue (.pop none)).map
            fun queue => { state with queue := queue, tokens := tokens }
  | .pop =>
      (queueStep layout state.queue (.advance none)).map
        fun queue => { state with queue := queue }
  | .emit =>
      match state.queue.pc none with
      | .popReturned (some value) =>
          (queueStep layout state.queue (.leave none)).map
            fun queue => { state with queue := queue, emitted := state.emitted ++ [value] }
      | _ => none
  | .noData =>
      match state.queue.pc none with
      | .popReturned none =>
          (queueStep layout state.queue (.leave none)).map
            fun queue => { state with queue := queue }
      | _ => none

/-- The flow under any interleaving of its producers and its consumer. -/
def flowMachine (Producer Value : Type) [DecidableEq Producer] (layout : Layout) :
    Machine (FlowState Producer Value) (FlowLabel Producer Value) where
  initial state := ∃ value,
    state = { queue := QueueState.start layout value, tokens := 0, emitted := [] }
  step := flowStep layout

/-- No producer is inside `on`, the consumer is idle and no token of the flow is left in the
pipe. -/
structure FlowState.Quiet (state : FlowState Producer Value) : Prop where
  producers : ∀ producer, state.queue.pc (some producer) = .idle
  consumer : state.queue.pc none = .idle
  tokens : state.tokens = 0

/-- Where the consumer's `pop` checks a version, the push that won the index has already stored
it. -/
def oldestPublished (layout : Layout) (state : FlowState Producer Value) :
    FlowLabel Producer Value → Bool
  | .pop =>
      match state.queue.pc none with
      | .popLoadVersion head =>
          state.queue.memory.version (layout.slot head) = layout.wrap (head + 1)
      | _ => true
  | _ => true

/-- Every step of the flow is a step of its queue. -/
theorem flowStep_queueStep {layout : Layout} {state next : FlowState Producer Value}
    {label : FlowLabel Producer Value} (taken : flowStep layout state label = some next) :
    ∃ queueLabel, queueStep layout state.queue queueLabel = some next.queue := by
  have mapped : ∀ {queueLabel : QueueLabel (Option Producer) Value}
      {change : QueueState (Option Producer) Value → FlowState Producer Value},
      (∀ queue, (change queue).queue = queue) →
      (queueStep layout state.queue queueLabel).map change = some next →
        ∃ queueLabel, queueStep layout state.queue queueLabel = some next.queue := by
    intro queueLabel change keeps stepped
    obtain ⟨queue, queueTaken, rfl⟩ := Option.map_eq_some_iff.mp stepped
    exact ⟨queueLabel, by rw [queueTaken, keeps]⟩
  cases label with
  | on producer value | push producer | pop => exact mapped (fun _ => rfl) taken
  | enqueue producer | pushFailed producer | waitInvoker | emit | noData =>
    simp only [flowStep] at taken
    split at taken
    · first
      | exact mapped (fun _ => rfl) taken
      | cases taken
    · first
      | exact mapped (fun _ => rfl) taken
      | cases taken

/-- The queue of a reachable flow is a reachable queue. -/
theorem reachable_queue {layout : Layout} {state : FlowState Producer Value}
    (reachable : (flowMachine Producer Value layout).Reachable state) :
    (queueMachine (Option Producer) Value layout).Reachable state.queue := by
  refine Machine.Reachable.project FlowState.queue ?_ ?_ reachable
  · rintro state ⟨value, rfl⟩
    exact ⟨value, rfl⟩
  · intro state label next taken
    exact Or.inr (flowStep_queueStep taken)

/-! ### Roles and pending work -/

/-- The program counters of a producer. -/
def Pc.InPush : Pc Value → Prop
  | .idle | .pushLoadTail _ | .pushLoadVersion _ _ | .pushCompareExchange _ _
  | .pushCopyValue _ _ | .pushStoreVersion _ _ | .pushReturned _ => True
  | _ => False

/-- The program counters of the only consumer, when no version check of a pop fails: what it
has loaded from `m_head` is still there, and it never returns without a value. -/
def Pc.InPop (memory : Memory Value) : Pc Value → Prop
  | .idle | .popLoadHead | .popCopyValue _ | .popStoreVersion _ _ | .popReturned (some _) => True
  | .popLoadVersion head | .popCompareExchange head => head = memory.head
  | _ => False

theorem Pc.InPop.congr_head {memory next : Memory Value} {pc : Pc Value}
    (same : next.head = memory.head) : pc.InPop next ↔ pc.InPop memory := by
  unfold Pc.InPop
  rw [same]

/-- What a thread owes: a producer that has won an index a token, a consumer that has read a
token an index. -/
def Pc.pending : Pc Value → Nat
  | .pushCopyValue _ _ | .pushStoreVersion _ _ | .pushReturned true => 1
  | .popLoadHead | .popLoadVersion _ | .popCompareExchange _ => 1
  | _ => 0

/-- The value the consumer is about to emit. -/
def Pc.unemitted : Pc Value → Option Value
  | .popReturned out => out
  | _ => none

/-- The invariant of the flow when no version check of a pop fails: the pushes that have won,
the pops that have won and the tokens balance, and what was won is returned and emitted in
order. -/
structure FlowLedger [Fintype Producer] (layout : Layout) (state : FlowState Producer Value) :
    Prop where
  producers : ∀ producer, (state.queue.pc (some producer)).InPush
  consumer : (state.queue.pc none).InPop state.queue.memory
  tail : state.queue.memory.tail = layout.wrap state.queue.claimed.length
  head : state.queue.memory.head = layout.wrap state.queue.won.length
  balance : state.queue.claimed.length =
    state.queue.won.length + state.tokens + ∑ thread, (state.queue.pc thread).pending
  won : state.queue.returned.map Prod.fst ++ (state.queue.pc none).reading.toList =
    state.queue.won
  emitted : state.emitted ++ (state.queue.pc none).unemitted.toList =
    state.queue.returned.map Prod.snd

/-- The pending work after one thread moved. -/
theorem sum_pending_update [Fintype Producer] (pc : Option Producer → Pc Value)
    (thread : Option Producer) (new : Pc Value) :
    (∑ other, (Function.update pc thread new other).pending) + (pc thread).pending =
      (∑ other, (pc other).pending) + new.pending := by
  have updated : (fun other => (Function.update pc thread new other).pending) =
      Function.update (fun other => (pc other).pending) thread new.pending := by
    funext other
    exact Function.apply_update (fun _ => Pc.pending) pc thread new other
  have total := Finset.sum_update_of_mem (Finset.mem_univ thread)
    (fun other => (pc other).pending) new.pending
  have split := Finset.add_sum_erase Finset.univ (fun other => (pc other).pending)
    (Finset.mem_univ thread)
  rw [updated, total, ← split, Finset.sdiff_singleton_eq_erase]
  omega

/-! ### One step -/

namespace FlowLedger

variable [Fintype Producer] {layout : Layout} {state : FlowState Producer Value}

/-- A step of a producer leaves the consumer alone; what it wins and what it puts into the pipe
is what it owes. -/
theorem ofProducer (ledger : FlowLedger layout state) (producer : Producer)
    {queue : QueueState (Option Producer) Value} {tokens : Nat} (pc : Pc Value)
    (moved : queue.pc = Function.update state.queue.pc (some producer) pc) (role : pc.InPush)
    (head : queue.memory.head = state.queue.memory.head)
    (won : queue.won = state.queue.won) (returned : queue.returned = state.queue.returned)
    (tail : queue.memory.tail = layout.wrap queue.claimed.length)
    (owed : queue.claimed.length + state.tokens + (state.queue.pc (some producer)).pending =
      state.queue.claimed.length + tokens + pc.pending) :
    FlowLedger layout { state with queue := queue, tokens := tokens } := by
  have consumer : queue.pc none = state.queue.pc none := by
    rw [moved, Function.update_of_ne (Option.some_ne_none producer).symm]
  have total := sum_pending_update state.queue.pc (some producer) pc
  have balance := ledger.balance
  refine
    { producers := fun other => ?_, consumer := ?_, tail := tail, head := ?_, balance := ?_,
      won := ?_, emitted := ?_ }
  · show (queue.pc (some other)).InPush
    rw [moved]
    by_cases same : other = producer
    · rw [same, Function.update_self]
      exact role
    · rw [Function.update_of_ne (fun equal => same (Option.some.inj equal))]
      exact ledger.producers other
  · show (queue.pc none).InPop queue.memory
    rw [consumer, Pc.InPop.congr_head head]
    exact ledger.consumer
  · show queue.memory.head = layout.wrap queue.won.length
    rw [head, won]
    exact ledger.head
  · show queue.claimed.length = queue.won.length + tokens + ∑ thread, (queue.pc thread).pending
    rw [won, moved]
    omega
  · show queue.returned.map Prod.fst ++ (queue.pc none).reading.toList = queue.won
    rw [returned, consumer, won]
    exact ledger.won
  · show state.emitted ++ (queue.pc none).unemitted.toList = queue.returned.map Prod.snd
    rw [returned, consumer]
    exact ledger.emitted

/-- A step of the consumer leaves the producers alone; the tokens it has taken out of the pipe
are the indices it has won or is about to win. -/
theorem ofConsumer (ledger : FlowLedger layout state)
    {queue : QueueState (Option Producer) Value} {tokens : Nat} {emitted : List Value}
    (pc : Pc Value) (moved : queue.pc = Function.update state.queue.pc none pc)
    (role : pc.InPop queue.memory) (tail : queue.memory.tail = state.queue.memory.tail)
    (claimed : queue.claimed = state.queue.claimed)
    (head : queue.memory.head = layout.wrap queue.won.length)
    (owed : state.queue.won.length + state.tokens + (state.queue.pc none).pending =
      queue.won.length + tokens + pc.pending)
    (won : queue.returned.map Prod.fst ++ pc.reading.toList = queue.won)
    (emits : emitted ++ pc.unemitted.toList = queue.returned.map Prod.snd) :
    FlowLedger layout { queue := queue, tokens := tokens, emitted := emitted } := by
  have consumer : queue.pc none = pc := by rw [moved, Function.update_self]
  have total := sum_pending_update state.queue.pc none pc
  have balance := ledger.balance
  refine
    { producers := fun other => ?_, consumer := ?_, tail := ?_, head := head, balance := ?_,
      won := ?_, emitted := ?_ }
  · show (queue.pc (some other)).InPush
    rw [moved, Function.update_of_ne (Option.some_ne_none other)]
    exact ledger.producers other
  · show (queue.pc none).InPop queue.memory
    rw [consumer]
    exact role
  · show queue.memory.tail = layout.wrap queue.claimed.length
    rw [tail, claimed]
    exact ledger.tail
  · show queue.claimed.length = queue.won.length + tokens + ∑ thread, (queue.pc thread).pending
    rw [claimed, moved]
    omega
  · show queue.returned.map Prod.fst ++ (queue.pc none).reading.toList = queue.won
    rw [consumer]
    exact won
  · show emitted ++ (queue.pc none).unemitted.toList = queue.returned.map Prod.snd
    rw [consumer]
    exact emits

/-- An access of a producer. -/
theorem push (ledger : FlowLedger layout state) {producer : Producer}
    {queue : QueueState (Option Producer) Value}
    (taken : advance layout state.queue (some producer) = some queue) :
    FlowLedger layout { state with queue := queue } := by
  have role := ledger.producers producer
  have tail := ledger.tail
  have plain (pc : Pc Value) (pushing : pc.InPush)
      (owed : pc.pending = (state.queue.pc (some producer)).pending) :
      FlowLedger layout { state with queue := state.queue.setPc (some producer) pc } :=
    ledger.ofProducer producer pc rfl pushing rfl rfl rfl tail (by rw [owed]; rfl)
  unfold advance at taken
  cases now : state.queue.pc (some producer) with
  | idle | pushReturned _ => simp only [now, reduceCtorEq] at taken
  | pushLoadTail value =>
    simp only [now, Option.some_inj] at taken
    exact taken ▸ plain _ trivial (by rw [now]; rfl)
  | pushLoadVersion value index =>
    simp only [now] at taken
    split at taken <;> exact Option.some.inj taken ▸ plain _ trivial (by rw [now]; rfl)
  | pushCompareExchange value index =>
    simp only [now] at taken
    split at taken
    · rename_i same
      refine Option.some.inj taken ▸
        ledger.ofProducer producer _ rfl trivial rfl rfl rfl ?_ ?_
      · show layout.wrap (index + 1) = layout.wrap (state.queue.claimed ++ [value]).length
        rw [← same, tail, Layout.wrap_wrap_add, List.length_append]
        rfl
      · show (state.queue.claimed ++ [value]).length + _ + _ = _
        rw [now, List.length_append]
        simp only [Pc.pending, List.length_singleton]
        omega
    · exact Option.some.inj taken ▸ plain _ trivial (by rw [now]; rfl)
  | pushCopyValue value index | pushStoreVersion value index =>
    simp only [now, Option.some_inj] at taken
    exact taken ▸ ledger.ofProducer producer _ rfl trivial rfl rfl rfl tail (by rw [now]; rfl)
  | _ =>
    rw [now] at role
    exact role.elim

/-- An access of the consumer, where the version check of a pop passes. -/
theorem pop (ledger : FlowLedger layout state) {queue : QueueState (Option Producer) Value}
    (published : oldestPublished layout state .pop = true)
    (taken : advance layout state.queue none = some queue) :
    FlowLedger layout { state with queue := queue } := by
  have role := ledger.consumer
  have head := ledger.head
  have won := ledger.won
  have emitted := ledger.emitted
  unfold advance at taken
  unfold oldestPublished at published
  cases now : state.queue.pc none with
  | idle | popReturned _ => simp only [now, reduceCtorEq] at taken
  | popLoadHead =>
    simp only [now, Option.some_inj] at taken
    rw [now] at won emitted
    exact taken ▸ ledger.ofConsumer _ rfl rfl rfl rfl head (by rw [now]; rfl) won emitted
  | popLoadVersion loaded =>
    simp only [now, decide_eq_true_eq] at taken published
    rw [now] at won emitted role
    rw [if_neg (not_not.mpr published), Option.some_inj] at taken
    exact taken ▸ ledger.ofConsumer _ rfl role rfl rfl head (by rw [now]; rfl) won emitted
  | popCompareExchange loaded =>
    rw [now] at won emitted role
    have role : loaded = state.queue.memory.head := role
    simp only [now, role, if_true, Option.some_inj] at taken
    refine taken ▸ ledger.ofConsumer _ rfl trivial rfl rfl ?_ ?_ ?_ emitted
    · show layout.wrap (state.queue.memory.head + 1) =
        layout.wrap (state.queue.won ++ [state.queue.memory.head]).length
      rw [head, Layout.wrap_wrap_add, List.length_append]
      rfl
    · show _ = (state.queue.won ++ [state.queue.memory.head]).length + _ + _
      rw [now, List.length_append]
      simp only [Pc.pending, List.length_singleton]
      omega
    · show _ = state.queue.won ++ [state.queue.memory.head]
      rw [← won]
      simp only [Pc.reading, Option.toList, List.append_nil]
      rfl
  | popCopyValue index =>
    simp only [now, Option.some_inj] at taken
    rw [now] at won emitted
    exact taken ▸ ledger.ofConsumer _ rfl trivial rfl rfl head (by rw [now]; rfl) won emitted
  | popStoreVersion index out =>
    simp only [now, Option.some_inj] at taken
    rw [now] at won emitted
    refine taken ▸ ledger.ofConsumer _ rfl trivial rfl rfl head (by rw [now]; rfl) ?_ ?_
    · show (state.queue.returned ++ [(index, out)]).map Prod.fst ++ [] = state.queue.won
      rw [← won, List.map_append, List.append_nil]
      rfl
    · show state.emitted ++ [out] = (state.queue.returned ++ [(index, out)]).map Prod.snd
      rw [List.map_append, ← emitted]
      simp only [Pc.unemitted, Option.toList, List.append_nil, List.map_cons, List.map_nil]
  | _ =>
    rw [now] at role
    exact role.elim

/-- Every step in which no version check of a pop fails keeps the invariant. -/
theorem step (ledger : FlowLedger layout state) {label : FlowLabel Producer Value}
    {next : FlowState Producer Value} (published : oldestPublished layout state label = true)
    (taken : flowStep layout state label = some next) : FlowLedger layout next := by
  have head := ledger.head
  have tail := ledger.tail
  have won := ledger.won
  have emitted := ledger.emitted
  cases label with
  | on producer value =>
    simp only [flowStep, queueStep] at taken
    split at taken
    · rename_i now
      rw [← Option.some.inj taken]
      exact ledger.ofProducer producer _ rfl trivial rfl rfl rfl tail (by rw [now]; rfl)
    · cases taken
  | push producer =>
    obtain ⟨queue, accessed, rfl⟩ := Option.map_eq_some_iff.mp taken
    exact ledger.push accessed
  | enqueue producer | pushFailed producer =>
    simp only [flowStep] at taken
    split at taken
    · rename_i now
      simp only [queueStep, now, Option.map_some, Option.some_inj] at taken
      rw [← taken]
      exact ledger.ofProducer producer _ rfl trivial rfl rfl rfl tail (by rw [now]; rfl)
    · cases taken
  | waitInvoker =>
    simp only [flowStep] at taken
    split at taken
    · cases taken
    · rename_i tokens some
      simp only [queueStep] at taken
      split at taken
      · rename_i now
        rw [now] at won emitted
        rw [← Option.some.inj taken]
        exact ledger.ofConsumer _ rfl trivial rfl rfl head (by rw [now, some]; rfl) won emitted
      · cases taken
  | pop =>
    obtain ⟨queue, accessed, rfl⟩ := Option.map_eq_some_iff.mp taken
    exact ledger.pop published accessed
  | emit =>
    simp only [flowStep] at taken
    split at taken
    · rename_i value now
      simp only [queueStep, now, Option.map_some, Option.some_inj] at taken
      rw [now] at won emitted
      rw [← taken]
      exact ledger.ofConsumer _ rfl trivial rfl rfl head (by rw [now]; rfl) won
        ((List.append_nil _).trans emitted)
    · cases taken
  | noData =>
    have role := ledger.consumer
    simp only [flowStep] at taken
    split at taken
    · rename_i now
      rw [now] at role
      exact role.elim
    · cases taken

omit [DecidableEq Producer] in
/-- Nothing has been called, nothing is pending. -/
theorem start (layout : Layout) (value : Nat → Value) :
    FlowLedger layout ({ queue := QueueState.start layout value, tokens := 0, emitted := [] } :
      FlowState Producer Value) where
  producers _ := trivial
  consumer := trivial
  tail := (Nat.zero_mod _).symm
  head := (Nat.zero_mod _).symm
  balance := (Finset.sum_const_zero).symm.trans (Nat.zero_add _).symm
  won := rfl
  emitted := rfl

end FlowLedger

/-! ### Runs -/

section

variable [Fintype Producer] {layout : Layout} {state : FlowState Producer Value}

/-- The runs in which every version check of a pop meets a published index keep the
invariant. -/
theorem flowLedger_of_reachable
    (reachable :
      ((flowMachine Producer Value layout).restrict (oldestPublished layout)).Reachable state) :
    FlowLedger layout state := by
  refine Machine.Reachable.invariant ?_ ?_ reachable
  · rintro state ⟨value, rfl⟩
    exact FlowLedger.start layout value
  · intro state label next _ ledger taken
    obtain ⟨published, stepped⟩ := Machine.restrict_step taken
    exact ledger.step published stepped

/-- The version check of the consumer's pop meets a published index exactly when the producer
that has won the index is past its version store. -/
theorem oldestPublished_iff
    (reachable :
      ((flowMachine Producer Value layout).restrict (oldestPublished layout)).Reachable state)
    (few : state.queue.claimed.length < 2 ^ layout.width) {head : Nat}
    (checking : state.queue.pc none = .popLoadVersion head) :
    oldestPublished layout state .pop = true ↔
      ∀ producer, (state.queue.pc (some producer)).writing ≠ some head := by
  have flow := flowLedger_of_reachable reachable
  obtain ⟨phase, ledger⟩ := exists_ledger (reachable_queue reachable.of_restrict) few
  have loaded : head = state.queue.won.length := by
    have role := flow.consumer
    rw [checking] at role
    exact Eq.trans role ledger.head
  have behind : head < state.queue.claimed.length := by
    have own := Finset.single_le_sum (f := fun thread => (state.queue.pc thread).pending)
      (fun _ _ => Nat.zero_le _) (Finset.mem_univ none)
    have balance := flow.balance
    rw [checking] at own
    simp only [Pc.pending] at own balance
    omega
  have room : layout.wrap (head + 1) = head + 1 := Layout.wrap_of_lt (by omega)
  have unpopped : ¬ (phase head).popped := fun popped =>
    absurd ((ledger.popped head).mp popped) (by omega)
  simp only [oldestPublished, checking, decide_eq_true_eq, room]
  cases now : phase head with
  | free => exact absurd ((ledger.free head).mp now) (by omega)
  | writing thread =>
    have owner := ledger.writer thread head now
    have version := ledger.version head behind (ledger.latest (by rw [now]; nofun)
      (by rw [now]; nofun)).2
    rw [now] at version
    rw [version]
    refine ⟨fun wrong => absurd wrong (Nat.succ_ne_self head).symm, fun none => ?_⟩
    cases thread with
    | some producer => exact absurd owner (none producer)
    | none =>
      rw [checking] at owner
      cases owner
  | ready =>
    have version := ledger.version head behind (ledger.latest (by rw [now]; nofun)
      (by rw [now]; nofun)).2
    rw [now] at version
    refine ⟨fun _ producer claims => ?_, fun _ => version⟩
    rw [ledger.writing_iff, now] at claims
    cases claims
  | reading thread => exact absurd (by rw [now]; trivial) unpopped
  | released => exact absurd (by rw [now]; trivial) unpopped

omit [DecidableEq Producer] [Fintype Producer] in
/-- Pairs that are numbered from zero and each hold the element of a list at their number hold
the list. -/
theorem map_snd_eq_of_indexed {pairs : List (Nat × Value)} {list : List Value}
    (numbered : pairs.map Prod.fst = List.range list.length)
    (found : ∀ pair ∈ pairs, list[pair.1]? = some pair.2) : pairs.map Prod.snd = list := by
  have length : pairs.length = list.length := by
    rw [← List.length_map Prod.fst, numbered, List.length_range]
  refine List.ext_getElem ((List.length_map _).trans length) fun index early late => ?_
  have within : index < pairs.length := by rwa [List.length_map] at early
  have number : (pairs[index]).1 = index := by
    have := List.getElem_map Prod.fst (l := pairs) (i := index) (h := by rwa [List.length_map])
    simp only [numbered, List.getElem_range] at this
    exact this.symm
  have value := found pairs[index] (List.getElem_mem within)
  rw [number, List.getElem?_eq_getElem late, Option.some_inj] at value
  rw [List.getElem_map, value]

/-- As long as every version check of a pop meets a published index, the queue of a quiet flow
is empty: every index that was won has been popped, and, while the indices do not wrap around,
what was emitted is what was accepted, in order. -/
theorem queueFlow_drained
    (reachable :
      ((flowMachine Producer Value layout).restrict (oldestPublished layout)).Reachable state)
    (quiet : state.Quiet) :
    state.queue.memory.tail = state.queue.memory.head ∧
    state.queue.claimed.length = state.queue.won.length ∧
    (state.queue.claimed.length < 2 ^ layout.width → state.emitted = state.queue.claimed) := by
  have flow := flowLedger_of_reachable reachable
  have settled : state.queue.claimed.length = state.queue.won.length := by
    have idle : ∀ thread, (state.queue.pc thread).pending = 0 := by
      rintro (_ | producer)
      · rw [quiet.consumer]
        rfl
      · rw [quiet.producers]
        rfl
    have balance := flow.balance
    rw [Finset.sum_eq_zero fun thread _ => idle thread, quiet.tokens] at balance
    exact balance
  refine ⟨?_, settled, fun few => ?_⟩
  · rw [flow.tail, flow.head, settled]
  · obtain ⟨phase, ledger⟩ := exists_ledger (reachable_queue reachable.of_restrict) few
    have won := flow.won
    have emitted := flow.emitted
    rw [quiet.consumer] at won emitted
    have won : state.queue.returned.map Prod.fst = List.range state.queue.claimed.length := by
      rw [settled, ← ledger.won, ← won]
      exact (List.append_nil _).symm
    rw [show state.emitted = state.queue.returned.map Prod.snd from
      (List.append_nil _).symm.trans emitted]
    exact map_snd_eq_of_indexed won fun pair member => (ledger.finished member).2.1

end

/-- Decides `FlowState.Quiet` for two producers. -/
def FlowState.isQuiet (state : FlowState Bool Nat) : Bool :=
  decide ((∀ producer, state.queue.pc (some producer) = .idle) ∧ state.queue.pc none = .idle ∧
    state.tokens = 0)

theorem FlowState.quiet_of_isQuiet {state : FlowState Bool Nat} (quiet : state.isQuiet = true) :
    state.Quiet := by
  obtain ⟨producers, consumer, tokens⟩ := of_decide_eq_true quiet
  exact ⟨producers, consumer, tokens⟩

theorem flowMachine_initial :
    (flowMachine Bool Nat twoSlots).initial
      { queue := QueueState.start twoSlots fun _ => 0, tokens := 0, emitted := [] } := ⟨_, rfl⟩

/-- One producer hands over one message. -/
def oneMessage : List (FlowLabel Bool Nat) :=
  [.on false 7, .push false, .push false, .push false, .push false, .push false, .enqueue false,
    .waitInvoker, .pop, .pop, .pop, .pop, .pop, .emit]

theorem queueFlow_drained_oneMessage :
    ∃ state : FlowState Bool Nat,
      ((flowMachine Bool Nat twoSlots).restrict (oldestPublished twoSlots)).Reachable state ∧
        state.Quiet ∧ state.queue.claimed = [7] ∧ state.emitted = [7] ∧
        state.queue.memory.tail = state.queue.memory.head := by
  obtain ⟨state, reachable, passed⟩ := Machine.exists_reachable_of_run
    ((flowMachine Bool Nat twoSlots).restrict (oldestPublished twoSlots)) flowMachine_initial
    oneMessage
    (fun state => state.isQuiet && decide (state.queue.claimed = [7])) (by decide +kernel)
  obtain ⟨isQuiet, claimed⟩ := (Bool.and_eq_true _ _).mp passed
  have quiet := FlowState.quiet_of_isQuiet isQuiet
  have claimed := of_decide_eq_true claimed
  obtain ⟨drained, -, emitted⟩ := queueFlow_drained reachable quiet
  refine ⟨state, reachable, quiet, claimed, ?_, drained⟩
  rw [emitted (by rw [claimed]; decide), claimed]

/-- A producer wins the first index and is held up; another one wins the second index and sends
its token, which the consumer spends on the unpublished first index; the token of the first
producer then brings out the first message only. -/
def overtaken : List (FlowLabel Bool Nat) :=
  [.on false 7, .push false, .push false, .push false,
    .on true 8, .push true, .push true, .push true, .push true, .push true, .enqueue true,
    .waitInvoker, .pop, .pop, .noData,
    .push false, .push false, .enqueue false,
    .waitInvoker, .pop, .pop, .pop, .pop, .pop, .emit]

/-- Two producers can strand a message: everybody is idle, no token is left, and the second of
two accepted messages is still in the queue. -/
theorem queueFlow_stranded :
    ∃ state : FlowState Bool Nat, (flowMachine Bool Nat twoSlots).Reachable state ∧
      state.Quiet ∧ state.queue.memory.tail ≠ state.queue.memory.head ∧
      state.queue.claimed = [7, 8] ∧ state.emitted = [7] := by
  obtain ⟨state, reachable, passed⟩ := Machine.exists_reachable_of_run
    (flowMachine Bool Nat twoSlots) flowMachine_initial overtaken
    (fun state => state.isQuiet && decide (state.queue.memory.tail ≠ state.queue.memory.head ∧
      state.queue.claimed = [7, 8] ∧ state.emitted = [7])) (by decide +kernel)
  obtain ⟨isQuiet, left⟩ := (Bool.and_eq_true _ _).mp passed
  exact ⟨state, reachable, FlowState.quiet_of_isQuiet isQuiet, of_decide_eq_true left⟩

end BrokerProxy.Limero
