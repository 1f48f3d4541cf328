/-
This file shows that the lock-free `ArrayQueue` is linearizable: what its clients see,
the calls and their answers, is what a bounded first-in first-out queue shows whose calls
take effect at one moment each. The queue may refuse a call that another call has
overlapped, whatever it holds; a call nobody has overlapped is refused only for the
queue's own reason, a push when every place is taken and a pop when none is.

The moment of a call is its won compare-exchange, or the failed check that makes it
return. The contents at any moment are the values claimed by pushes less those whose
indices pops have won. A call that nobody has overlapped sees the index it has loaded
unchanged and no element half written or half read, and then the version of one slot says
whether there is room, or a value.
-/

import BrokerProxy.Library.Fifo
import BrokerProxy.Library.Linearizable
import BrokerProxy.Limero.ArrayQueueSafety

namespace BrokerProxy.Limero

open Runs Linearizability

variable {Thread Value : Type}

/-- The bounded queue whose calls may be refused when they are overlapped. -/
def refusingFifo (Value : Type) (places : Nat) :
    Object (List Value) (Fifo.Call Value) (Fifo.Answer Value) where
  serve := Fifo.serve places
  refusal
    | .push _ => .pushed false
    | .pop => .popped none

/-- What the caller of the queue sees of a step. -/
def queueSeen (state : QueueState Thread Value) :
    QueueLabel Thread Value → List (Event Thread (Fifo.Call Value) (Fifo.Answer Value))
  | .push thread value => [.invoke thread (.push value)]
  | .pop thread => [.invoke thread .pop]
  | .advance _ => []
  | .leave thread =>
      match state.pc thread with
      | .pushReturned accepted => [.respond thread (.pushed accepted)]
      | .popReturned out => [.respond thread (.popped out)]
      | _ => []

/-! ### What a program counter shows -/

/-- Where a call is, as the atomic queue sees it: a call takes effect when it wins its
compare-exchange, and a call that fails takes effect when it fails. -/
def Pc.status (claimed : List Value) (overlapped : Bool) :
    Pc Value → Status (Fifo.Call Value) (Fifo.Answer Value)
  | .idle => .idle
  | .pushLoadTail value | .pushLoadVersion value _ | .pushCompareExchange value _ =>
      .called (.push value) overlapped
  | .pushCopyValue _ _ | .pushStoreVersion _ _ => .answered (.pushed true)
  | .pushReturned accepted => .answered (.pushed accepted)
  | .popLoadHead | .popLoadVersion _ | .popCompareExchange _ => .called .pop overlapped
  | .popCopyValue head => .answered (.popped claimed[head]?)
  | .popStoreVersion _ out => .answered (.popped (some out))
  | .popReturned out => .answered (.popped out)

theorem Pc.status_overlap (claimed : List Value) (overlapped : Bool) (pc : Pc Value) :
    (pc.status claimed overlapped).overlap = pc.status claimed true := by
  cases pc <;> rfl

theorem Pc.idle_of_status {claimed : List Value} {overlapped : Bool} {pc : Pc Value}
    (idle : pc.status claimed overlapped = .idle) : pc = .idle := by
  cases pc with
  | idle => rfl
  | _ => cases idle

/-- A call that has not taken effect holds no index. -/
theorem Pc.not_holds_of_called {claimed : List Value} {overlapped marked : Bool} {pc : Pc Value}
    {op : Fifo.Call Value} (called : pc.status claimed overlapped = .called op marked)
    (index : Nat) : ¬ pc.Holds index := by
  cases pc with
  | pushCopyValue _ _ | pushStoreVersion _ _ | popCopyValue _ | popStoreVersion _ _ => cases called
  | _ => rintro (claims | claims) <;> cases claims

/-- The index a call has loaded is the current one. -/
def Pc.UpToDate (state : QueueState Thread Value) : Pc Value → Prop
  | .pushLoadVersion _ tail | .pushCompareExchange _ tail => tail = state.claimed.length
  | .popLoadVersion head | .popCompareExchange head => head = state.won.length
  | _ => True

/-- How the atomic queue follows the lock-free one: it holds what is claimed and not won, its
calls are where the program counters say, and a call that is not marked as overlapped has the
queue to itself. -/
structure Follows (layout : Layout) (state : QueueState Thread Value)
    (image : AtomicState Thread (List Value) (Fifo.Call Value) (Fifo.Answer Value)) : Prop where
  ledger : ∃ phase, Ledger layout state phase
  contents : image.contents = state.claimed.drop state.won.length
  status : ∀ thread, ∃ overlapped,
    image.status thread = (state.pc thread).status state.claimed overlapped
  active : ∀ thread, thread ∈ image.active ↔ state.pc thread ≠ .idle
  nodup : image.active.Nodup
  alone : ∀ thread op, image.status thread = .called op false →
    (∀ other, other ≠ thread → state.pc other = .idle) ∧ (state.pc thread).UpToDate state

namespace Ledger

variable {layout : Layout} {state : QueueState Thread Value} {phase : Nat → Phase Thread}

/-- A later claim does not change what a call shows. -/
theorem status_append (ledger : Ledger layout state phase) (more : List Value)
    (overlapped : Bool) (thread : Thread) :
    (state.pc thread).status (state.claimed ++ more) overlapped =
      (state.pc thread).status state.claimed overlapped := by
  have ok := ledger.threads thread
  cases pc : state.pc thread with
  | popCopyValue head =>
    have reading : phase head = .reading thread := by rwa [pc] at ok
    have claimed : head < state.claimed.length := by
      by_contra late
      have free := (ledger.free head).mpr (not_lt.mp late)
      rw [reading] at free
      cases free
    rw [Pc.status, Pc.status, List.getElem?_append_left claimed]
  | _ => rfl

/-- An index that is claimed and not won is ready, where no thread holds an index. -/
theorem ready_of_quiet (ledger : Ledger layout state phase)
    (quiet : ∀ thread index, ¬ (state.pc thread).Holds index) {index : Nat}
    (unpopped : state.won.length ≤ index) (claimed : index < state.claimed.length) :
    phase index = .ready := by
  cases now : phase index with
  | free => exact absurd ((ledger.free index).mp now) (not_le.mpr claimed)
  | ready => rfl
  | writing thread => exact absurd (Or.inl (ledger.writer thread index now)) (quiet thread index)
  | reading thread => exact absurd (Or.inr (ledger.reader thread index now)) (quiet thread index)
  | released =>
    have popped : (phase index).popped := by
      rw [now]
      trivial
    exact absurd ((ledger.popped index).mp popped) (not_lt.mpr unpopped)

/-- The version check of a push that has the queue to itself fails only when every place is
taken. -/
theorem full_of_quiet (ledger : Ledger layout state phase)
    (quiet : ∀ thread index, ¬ (state.pc thread).Holds index)
    (few : state.claimed.length < 2 ^ layout.width)
    (stale : state.memory.version (layout.slot state.claimed.length) ≠ state.claimed.length) :
    layout.capacity ≤ (state.claimed.drop state.won.length).length := by
  rw [List.length_drop]
  by_contra room
  have capacity := layout.two_le_capacity
  have behind := ledger.won_le_claimed
  refine stale (ledger.version_of_slotFree few ?_)
  rcases Nat.lt_or_ge state.claimed.length layout.capacity with small | large
  · exact Or.inl small
  · have popped : (phase (state.claimed.length - layout.capacity)).popped :=
      (ledger.popped _).mpr (by omega)
    refine Or.inr ?_
    cases now : phase (state.claimed.length - layout.capacity) with
    | reading thread => exact absurd (Or.inr (ledger.reader thread _ now)) (quiet thread _)
    | released => rfl
    | _ =>
      rw [now] at popped
      exact popped.elim

/-- The version check of a push that has the queue to itself passes only when a place is left. -/
theorem room_of_slotFree (ledger : Ledger layout state phase)
    (slotFree : SlotFree layout phase state.claimed.length) :
    (state.claimed.drop state.won.length).length < layout.capacity := by
  rw [List.length_drop]
  have capacity := layout.two_le_capacity
  rcases slotFree with small | released
  · omega
  · by_contra full
    have popped : (phase (state.claimed.length - layout.capacity)).popped := by
      rw [released]
      trivial
    have won := (ledger.popped _).mp popped
    omega

/-- The version check of a pop that has the queue to itself fails only when the queue is
empty. -/
theorem empty_of_quiet (ledger : Ledger layout state phase)
    (quiet : ∀ thread index, ¬ (state.pc thread).Holds index)
    (few : state.claimed.length < 2 ^ layout.width)
    (stale : state.memory.version (layout.slot state.won.length) ≠
      layout.wrap (state.won.length + 1)) : state.claimed.drop state.won.length = [] := by
  rw [List.drop_eq_nil_iff]
  by_contra behind
  have behind : state.won.length < state.claimed.length := not_le.mp behind
  have ready := ledger.ready_of_quiet quiet le_rfl behind
  have latest := ledger.latest (fun free => by rw [ready] at free; cases free)
    (fun released => by rw [ready] at released; cases released)
  have version := ledger.version _ latest.1 latest.2
  rw [ready, Phase.version] at version
  rw [version, Layout.wrap_of_lt (by omega)] at stale
  exact stale rfl

/-- The head of a ready queue is the value of its index. -/
theorem drop_of_ready (ledger : Ledger layout state phase)
    (ready : phase state.won.length = .ready) :
    ∃ value, state.claimed[state.won.length]? = some value ∧
      state.claimed.drop state.won.length =
        value :: state.claimed.drop (state.won.length + 1) := by
  have claimed : state.won.length < state.claimed.length := by
    by_contra late
    have free := (ledger.free state.won.length).mpr (not_lt.mp late)
    rw [ready] at free
    cases free
  exact ⟨_, List.getElem?_eq_getElem claimed, List.drop_eq_getElem_cons claimed⟩

end Ledger

/-! ### One step -/

namespace Follows

variable {layout : Layout} {state next : QueueState Thread Value}
  {image : AtomicState Thread (List Value) (Fifo.Call Value) (Fifo.Answer Value)}
  {thread : Thread} {pc : Pc Value}

/-- A call that nobody has overlapped sees no claimed index, before its own claim. -/
theorem quiet (follows : Follows layout state image) {op : Fifo.Call Value}
    (called : image.status thread = .called op false) (holder : Thread) (index : Nat) :
    ¬ (state.pc holder).Holds index := by
  by_cases same : holder = thread
  · obtain ⟨overlapped, status⟩ := follows.status thread
    rw [called] at status
    rw [same]
    exact Pc.not_holds_of_called status.symm index
  · rw [(follows.alone thread op called).1 holder same]
    rintro (claims | claims) <;> cases claims

/-- One thread's access: it stays inside its call, and the atomic queue follows with the contents
and the status that the access leaves. -/
theorem accessed [DecidableEq Thread] (follows : Follows layout state image)
    {nextImage : AtomicState Thread (List Value) (Fifo.Call Value) (Fifo.Answer Value)}
    (ledger : ∃ phase, Ledger layout next phase)
    (moved : next.pc = Function.update state.pc thread pc)
    (busy : state.pc thread ≠ .idle) (stays : pc ≠ .idle) {more : List Value}
    (claimed : next.claimed = state.claimed ++ more)
    (contents : nextImage.contents = next.claimed.drop next.won.length)
    {status : Status (Fifo.Call Value) (Fifo.Answer Value)}
    (marked : nextImage.status = Function.update image.status thread status)
    (active : nextImage.active = image.active)
    (shows : ∃ overlapped, status = pc.status next.claimed overlapped)
    (upToDate : ∀ op, status = .called op false →
      image.status thread = .called op false ∧ pc.UpToDate next) :
    Follows layout next nextImage := by
  obtain ⟨phase, before⟩ := follows.ledger
  have others : ∀ other, other ≠ thread → next.pc other = state.pc other := by
    intro other different
    rw [moved, Function.update_of_ne different]
  have own : next.pc thread = pc := by rw [moved, Function.update_self]
  refine
    { ledger := ledger, contents := contents, status := ?_, active := ?_,
      nodup := active ▸ follows.nodup, alone := ?_ }
  · intro other
    rw [marked]
    by_cases same : other = thread
    · rw [same, Function.update_self, own]
      exact shows
    · rw [Function.update_of_ne same, others other same, claimed]
      obtain ⟨overlapped, shown⟩ := follows.status other
      exact ⟨overlapped, shown.trans (before.status_append more overlapped other).symm⟩
  · intro other
    rw [active, follows.active]
    by_cases same : other = thread
    · rw [same, own]
      exact iff_of_true busy stays
    · rw [others other same]
  · intro other op called
    rw [marked] at called
    by_cases same : other = thread
    · rw [same, Function.update_self] at called
      obtain ⟨calledBefore, current⟩ := upToDate op called
      rw [same, own]
      refine ⟨fun another different => ?_, current⟩
      rw [others another different]
      exact (follows.alone thread op calledBefore).1 another different
    · -- a call that nobody has overlapped is the only one, so this thread is not inside one
      rw [Function.update_of_ne same] at called
      exact absurd ((follows.alone other op called).1 thread (Ne.symm same)) busy

/-- An access that the atomic queue does not see: the call has not taken effect, or has before. -/
theorem silent [DecidableEq Thread] (follows : Follows layout state image)
    (ledger : ∃ phase, Ledger layout next phase)
    (moved : next.pc = Function.update state.pc thread pc)
    (busy : state.pc thread ≠ .idle)
    (claimed : next.claimed = state.claimed) (won : next.won = state.won)
    (same : ∀ overlapped, pc.status state.claimed overlapped =
      (state.pc thread).status state.claimed overlapped)
    (upToDate : (state.pc thread).UpToDate state → pc.UpToDate next) :
    Follows layout next image := by
  have stays : pc ≠ .idle := by
    rintro rfl
    exact busy (Pc.idle_of_status (same false).symm)
  refine follows.accessed ledger moved busy stays (claimed.trans (List.append_nil _).symm) ?_
    (Function.update_eq_self thread image.status).symm rfl ?_ ?_
  · rw [follows.contents, claimed, won]
  · obtain ⟨overlapped, shown⟩ := follows.status thread
    exact ⟨overlapped, by rw [shown, claimed, same]⟩
  · exact fun op called => ⟨called, upToDate (follows.alone thread op called).2⟩

/-- A thread starts a call: every call already under way is overlapped from now on, and so is the
new one if there is any. -/
theorem invoked [DecidableEq Thread] (follows : Follows layout state image)
    {nextImage : AtomicState Thread (List Value) (Fifo.Call Value) (Fifo.Answer Value)}
    (ledger : ∃ phase, Ledger layout (state.setPc thread pc) phase)
    (idle : state.pc thread = .idle) {op : Fifo.Call Value}
    (called : ∀ overlapped, pc.status state.claimed overlapped = .called op overlapped)
    (upToDate : pc.UpToDate (state.setPc thread pc))
    (contents : nextImage.contents = image.contents)
    (marked : nextImage.status = Function.update (fun other => (image.status other).overlap) thread
      (.called op !image.active.isEmpty))
    (active : nextImage.active = thread :: image.active) :
    Follows layout (state.setPc thread pc) nextImage := by
  have own : (state.setPc thread pc).pc thread = pc := Function.update_self _ _ _
  have others : ∀ other, other ≠ thread → (state.setPc thread pc).pc other = state.pc other :=
    fun other different => state.setPc_of_ne pc different
  have outside : thread ∉ image.active := fun inside => (follows.active thread).mp inside idle
  refine
    { ledger := ledger, contents := contents.trans follows.contents, status := ?_, active := ?_,
      nodup := active ▸ List.nodup_cons.mpr ⟨outside, follows.nodup⟩, alone := ?_ }
  · intro other
    rw [marked]
    by_cases same : other = thread
    · rw [same, Function.update_self, own]
      exact ⟨!image.active.isEmpty, (called _).symm⟩
    · obtain ⟨overlapped, shown⟩ := follows.status other
      rw [Function.update_of_ne same, others other same, shown, Pc.status_overlap]
      exact ⟨true, rfl⟩
  · intro other
    rw [active, List.mem_cons, follows.active]
    by_cases same : other = thread
    · have stays : pc ≠ .idle := by
        rintro rfl
        cases called true
      rw [same, own]
      exact iff_of_true (Or.inl rfl) stays
    · rw [others other same]
      exact or_iff_right same
  · intro other op alone
    rw [marked] at alone
    by_cases same : other = thread
    · rw [same, Function.update_self, Status.called.injEq, Bool.not_eq_false',
        List.isEmpty_iff] at alone
      rw [same, own]
      refine ⟨fun another different => ?_, upToDate⟩
      rw [others another different]
      by_contra busy
      have inside := (follows.active another).mpr busy
      rw [alone.2] at inside
      cases inside
    · rw [Function.update_of_ne same] at alone
      cases status : image.status other <;> rw [status] at alone <;> cases alone

/-- A thread leaves a call that has returned. -/
theorem returned [DecidableEq Thread] (follows : Follows layout state image)
    {nextImage : AtomicState Thread (List Value) (Fifo.Call Value) (Fifo.Answer Value)}
    (ledger : ∃ phase, Ledger layout (state.setPc thread .idle) phase)
    (busy : state.pc thread ≠ .idle) (contents : nextImage.contents = image.contents)
    (marked : nextImage.status = Function.update image.status thread .idle)
    (active : nextImage.active = image.active.erase thread) :
    Follows layout (state.setPc thread .idle) nextImage := by
  have own : (state.setPc thread .idle).pc thread = .idle := Function.update_self _ _ _
  have others : ∀ other, other ≠ thread → (state.setPc thread .idle).pc other = state.pc other :=
    fun other different => state.setPc_of_ne .idle different
  refine
    { ledger := ledger, contents := contents.trans follows.contents, status := ?_, active := ?_,
      nodup := active ▸ follows.nodup.erase thread, alone := ?_ }
  · intro other
    rw [marked]
    by_cases same : other = thread
    · rw [same, Function.update_self, own]
      exact ⟨false, rfl⟩
    · rw [others other same, Function.update_of_ne same]
      exact follows.status other
  · intro other
    rw [active, follows.nodup.mem_erase_iff, follows.active]
    by_cases same : other = thread
    · rw [same, own]
      exact iff_of_false (fun apart => apart.1 rfl) (fun wrong => wrong rfl)
    · rw [others other same]
      exact and_iff_right same
  · intro other op called
    rw [marked] at called
    by_cases same : other = thread
    · rw [same, Function.update_self] at called
      cases called
    · rw [Function.update_of_ne same] at called
      exact absurd ((follows.alone other op called).1 thread (Ne.symm same)) busy

end Follows

variable {layout : Layout} {state next : QueueState Thread Value}
  {image : AtomicState Thread (List Value) (Fifo.Call Value) (Fifo.Answer Value)}
  {thread : Thread} {pc : Pc Value}

/-! ### The atomic queue follows every step -/

/-- From an image the atomic queue shows something and ends in an image of the next state. -/
def Simulated [DecidableEq Thread] (layout : Layout)
    (image : AtomicState Thread (List Value) (Fifo.Call Value) (Fifo.Answer Value))
    (next : QueueState Thread Value)
    (shown : List (Event Thread (Fifo.Call Value) (Fifo.Answer Value))) : Prop :=
  ∃ labels nextImage,
    ((refusingFifo Value layout.capacity).atomic Thread []).run image labels = some nextImage ∧
      Follows layout next nextImage ∧
      ((refusingFifo Value layout.capacity).atomic Thread []).observed AtomicState.seen image
        labels = shown

section

variable [DecidableEq Thread]

theorem Follows.simulated (follows : Follows layout next image) :
    Simulated layout image next [] := ⟨[], image, rfl, follows, rfl⟩

theorem simulated_of_step
    {nextImage : AtomicState Thread (List Value) (Fifo.Call Value) (Fifo.Answer Value)}
    {label : AtomicLabel Thread (Fifo.Call Value)}
    (taken : (refusingFifo Value layout.capacity).step image label = some nextImage)
    (follows : Follows layout next nextImage) :
    Simulated layout image next (image.seen label) :=
  ⟨[label], nextImage, (run_observed_single taken).1, follows, (run_observed_single taken).2⟩

/-- A call fails: it was overlapped, or the bounded queue refuses it. -/
theorem Follows.failed (follows : Follows layout state image) {op : Fifo.Call Value}
    (ledger : ∃ phase, Ledger layout (state.setPc thread pc) phase)
    (called : ∀ overlapped, (state.pc thread).status state.claimed overlapped =
      .called op overlapped)
    (answered : ∀ overlapped, pc.status state.claimed overlapped =
      .answered ((refusingFifo Value layout.capacity).refusal op))
    (reason : image.status thread = .called op false →
      Fifo.serve layout.capacity image.contents op =
        ((refusingFifo Value layout.capacity).refusal op, image.contents)) :
    Simulated layout image (state.setPc thread pc) [] := by
  have busy : state.pc thread ≠ .idle := fun idle => by
    have wrong := called true
    rw [idle] at wrong
    cases wrong
  have stays : pc ≠ .idle := by
    rintro rfl
    cases answered true
  obtain ⟨overlapped, status⟩ := follows.status thread
  rw [called] at status
  cases overlapped with
  | true =>
    refine simulated_of_step (step_refuse status) (follows.accessed ledger rfl busy stays
      (List.append_nil _).symm follows.contents rfl rfl ⟨true, (answered true).symm⟩ ?_)
    rintro other ⟨⟩
  | false =>
    have served : (refusingFifo Value layout.capacity).serve image.contents op =
        ((refusingFifo Value layout.capacity).refusal op, image.contents) := reason status
    refine simulated_of_step (step_serve status) (follows.accessed ledger rfl busy stays
      (List.append_nil _).symm ?_ rfl rfl ⟨true, ?_⟩ ?_)
    · rw [served]
      exact follows.contents
    · rw [served]
      exact (answered true).symm
    · rintro other ⟨⟩

/-- A call wins its compare-exchange: the bounded queue serves it. -/
theorem Follows.served (follows : Follows layout state image) {op : Fifo.Call Value}
    (ledger : ∃ phase, Ledger layout next phase)
    (moved : next.pc = Function.update state.pc thread pc)
    (called : ∀ overlapped, (state.pc thread).status state.claimed overlapped =
      .called op overlapped) {more : List Value} (claimed : next.claimed = state.claimed ++ more)
    {answer : Fifo.Answer Value}
    (answered : ∀ overlapped, pc.status next.claimed overlapped = .answered answer)
    (serves : Fifo.serve layout.capacity image.contents op =
      (answer, next.claimed.drop next.won.length)) : Simulated layout image next [] := by
  have busy : state.pc thread ≠ .idle := fun idle => by
    have wrong := called true
    rw [idle] at wrong
    cases wrong
  have stays : pc ≠ .idle := by
    rintro rfl
    cases answered true
  obtain ⟨overlapped, status⟩ := follows.status thread
  rw [called] at status
  have served : (refusingFifo Value layout.capacity).serve image.contents op =
      (answer, next.claimed.drop next.won.length) := serves
  refine simulated_of_step (step_serve status) (follows.accessed ledger moved busy stays claimed
    ?_ rfl rfl ⟨true, ?_⟩ ?_)
  · rw [served]
  · rw [served]
    exact (answered true).symm
  · rintro other ⟨⟩

/-- The atomic queue follows every access of a thread inside a call. -/
theorem Follows.advance (follows : Follows layout state image)
    (few : next.claimed.length < 2 ^ layout.width)
    (taken : Limero.advance layout state thread = some next) : Simulated layout image next [] := by
  obtain ⟨phase, before⟩ := follows.ledger
  have ledger : ∃ nextPhase, Ledger layout next nextPhase := before.advance few taken
  have fewBefore := lt_of_le_of_lt (advance_claimed_le taken) few
  have ok := before.threads thread
  have busy : state.pc thread ≠ .idle := by
    intro idle
    simp only [Limero.advance, idle, reduceCtorEq] at taken
  unfold Limero.advance at taken
  cases own : state.pc thread with
  | idle | pushReturned _ | popReturned _ => simp only [own, reduceCtorEq] at taken
  | pushLoadTail value =>
    simp only [own, Option.some_inj] at taken
    subst taken
    exact (follows.silent ledger rfl busy rfl rfl (fun _ => by rw [own]; rfl)
      fun _ => before.tail).simulated
  | pushLoadVersion value tail =>
    simp only [own] at taken
    have alone : image.status thread = .called (.push value) false →
        tail = state.claimed.length := fun called => by
      have current := (follows.alone thread _ called).2
      rwa [own] at current
    split at taken
    · rename_i stale
      cases taken
      refine follows.failed ledger (fun _ => by rw [own]; rfl) (fun _ => rfl) fun called => ?_
      rw [alone called] at stale
      have full := before.full_of_quiet (follows.quiet called) fewBefore stale
      rw [← follows.contents] at full
      rw [Fifo.serve, Fifo.push_of_not_lt (not_lt.mpr full)]
      rfl
    · cases taken
      refine (follows.silent ledger rfl busy rfl rfl (fun _ => by rw [own]; rfl)
        fun current => ?_).simulated
      rwa [own] at current
  | pushCompareExchange value tail =>
    simp only [own] at taken
    split at taken
    · rename_i level
      have level : tail = state.claimed.length := level.symm.trans before.tail
      cases taken
      rw [own] at ok
      have room : (state.claimed.drop state.won.length).length < layout.capacity := by
        rcases ok with behind | ⟨-, slotFree⟩
        · exact absurd level (ne_of_lt behind)
        · exact before.room_of_slotFree (level ▸ slotFree)
      refine follows.served ledger rfl (fun _ => by rw [own]; rfl) rfl (fun _ => rfl) ?_
      rw [Fifo.serve, follows.contents, Fifo.push_of_lt room]
      exact congrArg (Prod.mk _) (List.drop_append_of_le_length before.won_le_claimed).symm
    · rename_i lost
      cases taken
      refine follows.failed ledger (fun _ => by rw [own]; rfl) (fun _ => rfl) fun called => ?_
      have current := (follows.alone thread _ called).2
      rw [own] at current
      exact absurd (before.tail.trans (Eq.symm current)) lost
  | pushCopyValue value tail =>
    simp only [own, Option.some_inj] at taken
    subst taken
    exact (follows.silent ledger rfl busy rfl rfl (fun _ => by rw [own]; rfl)
      fun _ => trivial).simulated
  | pushStoreVersion value tail =>
    simp only [own, Option.some_inj] at taken
    subst taken
    exact (follows.silent ledger rfl busy rfl rfl (fun _ => by rw [own]; rfl)
      fun _ => trivial).simulated
  | popLoadHead =>
    simp only [own, Option.some_inj] at taken
    subst taken
    exact (follows.silent ledger rfl busy rfl rfl (fun _ => by rw [own]; rfl)
      fun _ => before.head).simulated
  | popLoadVersion head =>
    simp only [own] at taken
    split at taken
    · rename_i stale
      cases taken
      refine follows.failed ledger (fun _ => by rw [own]; rfl) (fun _ => rfl) fun called => ?_
      have current := (follows.alone thread _ called).2
      rw [own] at current
      have current : head = state.won.length := current
      rw [current] at stale
      have empty := before.empty_of_quiet (follows.quiet called) fewBefore stale
      rw [← follows.contents] at empty
      rw [Fifo.serve, empty]
      rfl
    · cases taken
      refine (follows.silent ledger rfl busy rfl rfl (fun _ => by rw [own]; rfl)
        fun current => ?_).simulated
      rwa [own] at current
  | popCompareExchange head =>
    simp only [own] at taken
    split at taken
    · rename_i level
      have level : head = state.won.length := level.symm.trans before.head
      cases taken
      rw [own] at ok
      have ready : phase state.won.length = .ready := by
        rcases ok with behind | ready
        · exact absurd level (ne_of_lt behind)
        · exact level ▸ ready
      obtain ⟨value, found, contents⟩ := before.drop_of_ready ready
      have shown : ∀ overlapped, (Pc.popCopyValue head : Pc Value).status state.claimed overlapped =
          .answered (.popped (some value)) := fun _ =>
        congrArg (fun out => Status.answered (Fifo.Answer.popped out)) (level ▸ found)
      refine follows.served ledger rfl (fun _ => by rw [own]; rfl) (List.append_nil _).symm
        shown ?_
      rw [Fifo.serve, follows.contents, contents]
      show _ = (_, state.claimed.drop (state.won ++ [head]).length)
      rw [List.length_append]
      rfl
    · rename_i lost
      cases taken
      refine follows.failed ledger (fun _ => by rw [own]; rfl) (fun _ => rfl) fun called => ?_
      have current := (follows.alone thread _ called).2
      rw [own] at current
      exact absurd (before.head.trans (Eq.symm current)) lost
  | popCopyValue head =>
    simp only [own, Option.some_inj] at taken
    subst taken
    refine (follows.silent ledger rfl busy rfl rfl (fun _ => ?_) fun _ => trivial).simulated
    rw [own, Pc.status, Pc.status, before.copied own]
  | popStoreVersion head out =>
    simp only [own, Option.some_inj] at taken
    subst taken
    exact (follows.silent ledger rfl busy rfl rfl (fun _ => by rw [own]; rfl)
      fun _ => trivial).simulated

/-- The atomic queue follows every step, and shows the same calls and answers. -/
theorem Follows.step (follows : Follows layout state image) {label : QueueLabel Thread Value}
    (few : next.claimed.length < 2 ^ layout.width)
    (taken : queueStep layout state label = some next) :
    Simulated layout image next (queueSeen state label) := by
  obtain ⟨phase, before⟩ := follows.ledger
  have ledger : ∃ nextPhase, Ledger layout next nextPhase := before.step few taken
  cases label with
  | push thread value =>
    simp only [queueStep] at taken
    split at taken
    · rename_i idle
      cases taken
      obtain ⟨overlapped, status⟩ := follows.status thread
      rw [idle] at status
      exact simulated_of_step (step_invoke (.push value) status)
        (follows.invoked ledger idle (fun _ => rfl) trivial rfl rfl rfl)
    · cases taken
  | pop thread =>
    simp only [queueStep] at taken
    split at taken
    · rename_i idle
      cases taken
      obtain ⟨overlapped, status⟩ := follows.status thread
      rw [idle] at status
      exact simulated_of_step (step_invoke .pop status)
        (follows.invoked ledger idle (fun _ => rfl) trivial rfl rfl rfl)
    · cases taken
  | advance thread => exact follows.advance few taken
  | leave thread =>
    obtain ⟨overlapped, status⟩ := follows.status thread
    have left : ∀ {answer : Fifo.Answer Value},
        (state.pc thread).status state.claimed overlapped = .answered answer →
          queueSeen state (.leave thread) = [.respond thread answer] →
            next = state.setPc thread .idle →
              Simulated layout image next (queueSeen state (.leave thread)) := by
      rintro answer answered seen rfl
      have busy : state.pc thread ≠ .idle := fun idle => by
        rw [idle] at answered
        cases answered
      rw [seen, ← seen_respond (status.trans answered)]
      exact simulated_of_step (step_respond (status.trans answered))
        (follows.returned ledger busy rfl rfl rfl)
    simp only [queueStep] at taken
    split at taken
    · rename_i own
      exact left (by rw [own]; rfl) (by rw [queueSeen, own]) (Option.some.inj taken).symm
    · rename_i own
      exact left (by rw [own]; rfl) (by rw [queueSeen, own]) (Option.some.inj taken).symm
    · cases taken

omit [DecidableEq Thread] in
/-- Before the first call the atomic queue is empty. -/
theorem Follows.start (layout : Layout) (value : Nat → Value) :
    Follows layout (QueueState.start layout value : QueueState Thread Value) (.start []) where
  ledger := ⟨_, Ledger.start layout value⟩
  contents := rfl
  status _ := ⟨false, rfl⟩
  active _ := iff_of_false List.not_mem_nil fun busy => busy rfl
  nodup := List.nodup_nil
  alone _ _ called := by cases called

end

/-- The queue is linearizable: for any number of threads and any interleaving of their accesses,
the calls and answers of a run in which fewer than two to the index width pushes win are what the
bounded first-in first-out queue shows that may refuse overlapped calls. -/
theorem arrayQueue_linearizable [DecidableEq Thread] (layout : Layout)
    {start final : QueueState Thread Value} (labels : List (QueueLabel Thread Value))
    (initial : (queueMachine Thread Value layout).initial start)
    (ended : (queueMachine Thread Value layout).run start labels = some final)
    (few : final.claimed.length < 2 ^ layout.width) :
    (refusingFifo Value layout.capacity).Linearizable []
      ((queueMachine Thread Value layout).observed queueSeen start labels) := by
  obtain ⟨value, rfl⟩ := initial
  obtain ⟨events, image, run, -, shown⟩ :=
    Machine.exists_abstract_run (Follows layout)
      (fun state => state.claimed.length < 2 ^ layout.width)
      (fun _ _ _ taken small => lt_of_le_of_lt (queueStep_claimed_le taken) small)
      (fun _ _ _ _ follows few taken => follows.step few taken) labels
      (Follows.start layout value) ended few
  exact ⟨events, image, run, shown⟩

/-- A push loads the tail and is overtaken by another push before it looks at the slot. -/
def losingPush : List (QueueLabel Bool Nat) :=
  [.push false 7, .push true 8, .advance false, .advance true, .advance false, .advance false,
    .advance false, .advance false, .leave false, .advance true, .leave true]

theorem arrayQueue_linearizable_losingPush :
    (refusingFifo Nat 2).Linearizable []
      [.invoke false (.push 7), .invoke true (.push 8), .respond false (.pushed true),
        .respond true (.pushed false)] := by
  have passes : ((queueMachine Bool Nat twoSlots).run (.start twoSlots fun _ => 0) losingPush).any
      (fun state => decide (state.claimed.length < 2 ^ twoSlots.width)) = true := by
    decide +kernel
  obtain ⟨final, ended, few⟩ := (Option.any_eq_true _ _).mp passes
  exact arrayQueue_linearizable twoSlots losingPush twoSlots_initial ended (of_decide_eq_true few)

end BrokerProxy.Limero
