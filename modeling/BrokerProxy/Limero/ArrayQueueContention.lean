/-
This file studies when calls of the lock-free queue fail under contention. A run is
recorded, so that the states during a call can be looked at when it returns: a refused
push should have seen, at some moment, as many claimed and unreleased elements as the
queue has places, and a pop without a value should have seen a moment at which no fully
pushed element was waiting.

The code keeps neither: it makes a single compare-exchange, so a call that another one
has overtaken fails whatever the queue holds, and it looks at one slot only, so an
element that is still being written, or still being read, hides those behind it. In the
runs without overtaking, in which the version stores are made in the order of the
claims, every failed call has its moment.
-/

import BrokerProxy.Limero.ArrayQueueSafety

namespace BrokerProxy.Limero

open Runs

variable {Thread Value : Type}

/-- The thread is outside any call. -/
def Pc.isIdle : Pc Value → Bool
  | .idle => true
  | _ => false

/-- The states during the current call of a thread, latest first: those since it was last
outside any call. -/
def moments (recording : QueueState Thread Value × List (QueueState Thread Value))
    (thread : Thread) : List (QueueState Thread Value) :=
  (recording.1 :: recording.2).takeWhile fun moment => !(moment.pc thread).isIdle

/-- As many elements as the queue has places are claimed by pushes and not yet released by
pops. -/
def Full (layout : Layout) (state : QueueState Thread Value) : Prop :=
  layout.capacity ≤ state.claimed.length - state.returned.length

instance (layout : Layout) (state : QueueState Thread Value) : Decidable (Full layout state) :=
  inferInstanceAs (Decidable (_ ≤ _))

/-- No fully pushed element is waiting: every element that no pop has claimed is still being
written. -/
def NoneWaiting (state : QueueState Thread Value) : Prop :=
  ∀ index, state.won.length ≤ index → index < state.claimed.length →
    ∃ thread, (state.pc thread).writing = some index

/-- A call that has failed had its moment. -/
def FailureJustified (layout : Layout)
    (recording : QueueState Thread Value × List (QueueState Thread Value)) : Prop :=
  ∀ thread,
    (recording.1.pc thread = .pushReturned false →
      ∃ moment ∈ moments recording thread, Full layout moment) ∧
    (recording.1.pc thread = .popReturned none →
      ∃ moment ∈ moments recording thread, NoneWaiting moment)

/-- The steps that neither overtake nor get overtaken: at its version check and at its
compare-exchange a call finds the index as it loaded it, a push stores its version after all
older pushes whose elements are waiting, a pop after all older pops. The indices do not wrap
around. -/
def orderly [DecidableEq Thread] (layout : Layout) (state : QueueState Thread Value) :
    QueueLabel Thread Value → Bool
  | .advance thread =>
      match state.pc thread with
      | .pushLoadVersion _ tail => state.memory.tail = tail
      | .pushCompareExchange _ tail =>
          state.memory.tail = tail && state.claimed.length + 1 < 2 ^ layout.width
      | .pushStoreVersion _ tail =>
          (List.range tail).all fun index => index < state.won.length ||
            state.memory.version (layout.slot index) = layout.wrap (index + 1)
      | .popLoadVersion head | .popCompareExchange head => state.memory.head = head
      | .popStoreVersion head _ => state.returned.length = head
      | _ => true
  | _ => true

/-- What the orderly runs keep: the elements still being written are the latest ones, and the
pops have released the elements in order, each of the others being read. -/
structure InOrder (state : QueueState Thread Value) : Prop where
  writing : ∀ thread first second, (state.pc thread).writing = some first → first ≤ second →
    second < state.claimed.length → ∃ other, (state.pc other).writing = some second
  released : state.returned.map Prod.fst = List.range state.returned.length
  reading : ∀ index, state.returned.length ≤ index → index < state.won.length →
    ∃ thread, (state.pc thread).reading = some index

/-! ### One step -/

namespace InOrder

/-- A step that changes one program counter and none of its claims, and none of the histories. -/
theorem setPc [DecidableEq Thread] {state next : QueueState Thread Value} (order : InOrder state)
    (thread : Thread) (pc : Pc Value) (moved : next.pc = Function.update state.pc thread pc)
    (writing : pc.writing = (state.pc thread).writing)
    (reading : pc.reading = (state.pc thread).reading) (claimed : next.claimed = state.claimed)
    (won : next.won = state.won) (returned : next.returned = state.returned) : InOrder next := by
  have sameWriting : ∀ other, (next.pc other).writing = (state.pc other).writing := by
    rw [moved]
    exact (Function.forall_update_iff state.pc fun other pc =>
      pc.writing = (state.pc other).writing).mpr ⟨writing, fun _ _ => rfl⟩
  have sameReading : ∀ other, (next.pc other).reading = (state.pc other).reading := by
    rw [moved]
    exact (Function.forall_update_iff state.pc fun other pc =>
      pc.reading = (state.pc other).reading).mpr ⟨reading, fun _ _ => rfl⟩
  refine ⟨fun other first second writes ordered small => ?_, ?_, fun index unreleased popped => ?_⟩
  · rw [sameWriting] at writes
    rw [claimed] at small
    obtain ⟨writer, found⟩ := order.writing other first second writes ordered small
    exact ⟨writer, (sameWriting writer).trans found⟩
  · rw [returned]
    exact order.released
  · rw [returned] at unreleased
    rw [won] at popped
    obtain ⟨reader, found⟩ := order.reading index unreleased popped
    exact ⟨reader, (sameReading reader).trans found⟩

/-- A claim of one thread on top of the claims of the others. -/
theorem exists_update {claim : Pc Value → Option Nat} [DecidableEq Thread]
    {pc : Thread → Pc Value} {thread : Thread} (new : Pc Value) {index : Nat}
    (other : claim (pc thread) ≠ some index) (claims : ∃ owner, claim (pc owner) = some index) :
    ∃ owner, claim (Function.update pc thread new owner) = some index := by
  obtain ⟨owner, owns⟩ := claims
  have different : owner ≠ thread := by
    rintro rfl
    exact other owns
  exact ⟨owner, by rw [Function.update_of_ne different, owns]⟩

theorem exists_update_of_none {claim : Pc Value → Option Nat} [DecidableEq Thread]
    {pc : Thread → Pc Value} {thread : Thread} (new : Pc Value) {index : Nat}
    (silent : claim (pc thread) = none) (claims : ∃ owner, claim (pc owner) = some index) :
    ∃ owner, claim (Function.update pc thread new owner) = some index :=
  exists_update new (by rw [silent]; nofun) claims

variable [DecidableEq Thread] {layout : Layout} {state : QueueState Thread Value}
  {phase : Nat → Phase Thread}

/-- The writers after a step of a thread that has no element to write, before it and after it. -/
theorem writing_update (order : InOrder state) {thread other : Thread} {new : Pc Value}
    {first second : Nat} (quiet : new.writing = none) (silent : (state.pc thread).writing = none)
    (writes : (Function.update state.pc thread new other).writing = some first)
    (ordered : first ≤ second) (small : second < state.claimed.length) :
    ∃ writer, (Function.update state.pc thread new writer).writing = some second := by
  have different : other ≠ thread := by
    rintro rfl
    rw [Function.update_self, quiet] at writes
    cases writes
  rw [Function.update_of_ne different] at writes
  exact exists_update_of_none _ silent (order.writing other first second writes ordered small)

/-- A push wins its compare-exchange. -/
theorem pushWin (order : InOrder state) {thread : Thread} {value : Value} {tail : Nat}
    (pc : state.pc thread = .pushCompareExchange value tail)
    (current : tail = state.claimed.length) (memory : Memory Value) :
    InOrder { (state.setPc thread (.pushCopyValue value tail)).setMemory memory with
      claimed := state.claimed ++ [value] } := by
  have length : (state.claimed ++ [value]).length = state.claimed.length + 1 :=
    List.length_append
  refine ⟨fun other first second writes ordered small => ?_, order.released,
    fun index unreleased popped =>
      exists_update_of_none _ (by rw [pc]; rfl) (order.reading index unreleased popped)⟩
  have small : second < (state.claimed ++ [value]).length := small
  show ∃ writer, (Function.update state.pc thread (.pushCopyValue value tail) writer).writing = _
  by_cases last : second = tail
  · exact ⟨thread, by rw [Function.update_self, last]; rfl⟩
  · have writes : (Function.update state.pc thread (.pushCopyValue value tail) other).writing =
        some first := writes
    have different : other ≠ thread := by
      rintro rfl
      rw [Function.update_self] at writes
      have start := Option.some_inj.mp writes
      omega
    rw [Function.update_of_ne different] at writes
    exact exists_update_of_none _ (by rw [pc]; rfl) (order.writing other first second writes ordered
      (by omega))

/-- A push stores its version after all older ones. -/
theorem pushPublish (order : InOrder state) (ledger : Ledger layout state phase)
    (few : state.claimed.length < 2 ^ layout.width) {thread : Thread} {value : Value} {tail : Nat}
    (pc : state.pc thread = .pushStoreVersion value tail)
    (oldest : ∀ index, index < tail → state.won.length ≤ index →
      state.memory.version (layout.slot index) = layout.wrap (index + 1)) (memory : Memory Value) :
    InOrder ((state.setPc thread (.pushReturned true)).setMemory memory) := by
  refine ⟨fun other first second writes ordered small => ?_, order.released,
    fun index unreleased popped =>
      exists_update_of_none _ (by rw [pc]; rfl) (order.reading index unreleased popped)⟩
  have writes : (Function.update state.pc thread (.pushReturned true) other).writing =
      some first := writes
  have different : other ≠ thread := by
    rintro rfl
    rw [Function.update_self] at writes
    cases writes
  rw [Function.update_of_ne different] at writes
  refine exists_update _ ?_ (order.writing other first second writes ordered small)
  -- the writer of an older element would have its version still to store
  rw [pc]
  intro same
  have same : tail = second := Option.some_inj.mp same
  have owner := (ledger.writing_iff other first).mp writes
  have own := (ledger.writing_iff thread tail).mp (by rw [pc]; rfl)
  have apart : first ≠ tail := by
    rintro rfl
    rw [owner] at own
    exact different (Phase.writing.inj own)
  have unpopped : state.won.length ≤ first := by
    by_contra popped
    have claimed := (ledger.popped first).mpr (by omega)
    rw [owner] at claimed
    exact claimed
  have latest : first < state.claimed.length ∧ state.claimed.length ≤ first + layout.capacity :=
    ledger.latest (by rw [owner]; nofun) (by rw [owner]; nofun)
  have version := ledger.version first latest.1 latest.2
  rw [oldest first (by omega) unpopped, owner, Layout.wrap_of_lt (by omega)] at version
  exact absurd version (Nat.succ_ne_self first)

/-- A pop wins its compare-exchange. -/
theorem popWin (order : InOrder state) {thread : Thread} {head : Nat}
    (pc : state.pc thread = .popCompareExchange head) (current : head = state.won.length)
    (memory : Memory Value) :
    InOrder { (state.setPc thread (.popCopyValue head)).setMemory memory with
      won := state.won ++ [head] } := by
  refine ⟨fun other first second writes ordered small => ?_, order.released,
    fun index unreleased popped => ?_⟩
  · exact order.writing_update rfl (by rw [pc]; rfl) writes ordered small
  · have popped : index < (state.won ++ [head]).length := popped
    rw [List.length_append, List.length_singleton] at popped
    show ∃ reader, (Function.update state.pc thread (.popCopyValue head) reader).reading = _
    by_cases last : index = head
    · exact ⟨thread, by rw [Function.update_self, last]; rfl⟩
    · exact exists_update_of_none _ (by rw [pc]; rfl) (order.reading index unreleased (by omega))

/-- A pop releases its element after all older ones. -/
theorem popRelease (order : InOrder state) {thread : Thread} {head : Nat} {out : Value}
    (pc : state.pc thread = .popStoreVersion head out) (oldest : state.returned.length = head)
    (memory : Memory Value) :
    InOrder { (state.setPc thread (.popReturned (some out))).setMemory memory with
      returned := state.returned ++ [(head, out)] } := by
  have length : (state.returned ++ [(head, out)]).length = state.returned.length + 1 :=
    List.length_append
  refine ⟨fun other first second writes ordered small => ?_, ?_,
    fun index unreleased popped => ?_⟩
  · exact order.writing_update rfl (by rw [pc]; rfl) writes ordered small
  · show (state.returned ++ [(head, out)]).map Prod.fst = List.range _
    rw [length, List.map_append, order.released, List.range_succ, oldest]
    rfl
  · have unreleased : (state.returned ++ [(head, out)]).length ≤ index := unreleased
    have different : (state.pc thread).reading ≠ some index := by
      rw [pc]
      intro same
      have same : head = index := Option.some_inj.mp same
      omega
    exact exists_update _ different (order.reading index (by omega) popped)

/-- Every orderly step keeps the order. -/
theorem step (order : InOrder state) (ledger : Ledger layout state phase)
    (few : state.claimed.length < 2 ^ layout.width) {label : QueueLabel Thread Value}
    {next : QueueState Thread Value} (met : orderly layout state label = true)
    (taken : queueStep layout state label = some next) : InOrder next := by
  have plain : ∀ {thread : Thread} {pc : Pc Value} {next : QueueState Thread Value},
      some (state.setPc thread pc) = some next → pc.writing = (state.pc thread).writing →
        pc.reading = (state.pc thread).reading → InOrder next := by
    intro thread pc next moved writing reading
    exact Option.some.inj moved ▸ order.setPc thread pc rfl writing reading rfl rfl rfl
  cases label with
  | push thread value | pop thread | leave thread =>
    simp only [queueStep] at taken
    split at taken
    all_goals first
      | rename_i now
        exact plain taken (by rw [now]; rfl) (by rw [now]; rfl)
      | cases taken
  | advance thread =>
    simp only [queueStep] at taken
    unfold Limero.advance at taken
    unfold orderly at met
    cases now : state.pc thread with
    | idle | pushReturned _ | popReturned _ => simp only [now, reduceCtorEq] at taken
    | pushLoadTail _ | popLoadHead | popCopyValue _ =>
      simp only [now] at taken
      exact plain taken (by rw [now]; rfl) (by rw [now]; rfl)
    | pushLoadVersion _ _ | popLoadVersion _ =>
      simp only [now] at taken
      split at taken <;> exact plain taken (by rw [now]; rfl) (by rw [now]; rfl)
    | pushCompareExchange value tail =>
      simp only [now, Bool.and_eq_true, decide_eq_true_eq] at met taken
      rw [if_pos met.1, Option.some_inj] at taken
      exact taken ▸ order.pushWin now (met.1.symm.trans ledger.tail) _
    | pushCopyValue value tail =>
      simp only [now, Option.some_inj] at taken
      exact taken ▸ order.setPc thread (.pushStoreVersion value tail) rfl (by rw [now]; rfl)
        (by rw [now]; rfl) rfl rfl rfl
    | pushStoreVersion value tail =>
      simp only [now, Option.some_inj] at taken
      simp only [now, List.all_eq_true, List.mem_range, Bool.or_eq_true, decide_eq_true_eq] at met
      refine taken ▸ order.pushPublish ledger few now (fun index older unpopped => ?_) _
      exact (met index older).resolve_left (Nat.not_lt.mpr unpopped)
    | popCompareExchange head =>
      simp only [now, decide_eq_true_eq] at met taken
      rw [if_pos met, Option.some_inj] at taken
      exact taken ▸ order.popWin now (met.symm.trans ledger.head) _
    | popStoreVersion head out =>
      simp only [now, decide_eq_true_eq, Option.some_inj] at met taken
      exact taken ▸ order.popRelease now met _

omit [DecidableEq Thread]

/-- Nobody has called. -/
theorem start (layout : Layout) (value : Nat → Value) :
    InOrder (QueueState.start layout value : QueueState Thread Value) where
  writing _ _ _ writes _ _ := by cases writes
  released := rfl
  reading index _ popped := absurd popped (Nat.not_lt_zero index)

/-! ### Failed calls -/

/-- The version check of a push that has loaded the current tail fails only when the queue is
full. -/
theorem full_of_version (order : InOrder state) (ledger : Ledger layout state phase)
    (few : state.claimed.length < 2 ^ layout.width)
    (stale : state.memory.version (layout.slot state.claimed.length) ≠ state.claimed.length) :
    Full layout state := by
  by_contra room
  have room : state.claimed.length < state.returned.length + layout.capacity := by
    have := layout.two_le_capacity
    rw [Full] at room
    omega
  refine stale (ledger.version_of_slotFree few ?_)
  rcases Nat.lt_or_ge state.claimed.length layout.capacity with small | large
  · exact Or.inl small
  · -- the element that used the slot last has been released
    have early : state.claimed.length - layout.capacity ∈ state.returned.map Prod.fst := by
      rw [order.released, List.mem_range]
      omega
    obtain ⟨pair, member, index⟩ := List.mem_map.mp early
    have released := (ledger.returned pair member).1
    rw [index] at released
    exact Or.inr released

/-- The version check of a pop that has loaded the current head fails only when no fully pushed
element is waiting. -/
theorem noneWaiting_of_version (order : InOrder state) (ledger : Ledger layout state phase)
    (few : state.claimed.length < 2 ^ layout.width)
    (stale : state.memory.version (layout.slot state.won.length) ≠
      layout.wrap (state.won.length + 1)) : NoneWaiting state := by
  intro index unpopped claimed
  have behind : state.won.length < state.claimed.length := by omega
  have notPopped : ¬ (phase state.won.length).popped := fun popped =>
    absurd ((ledger.popped _).mp popped) (Nat.lt_irrefl _)
  have needed : phase state.won.length ≠ .free := fun free =>
    absurd ((ledger.free _).mp free) (Nat.not_le.mpr behind)
  have unreleased : phase state.won.length ≠ .released := fun released =>
    notPopped (by rw [released]; trivial)
  have version := ledger.version _ behind (ledger.latest needed unreleased).2
  cases now : phase state.won.length with
  | free => exact absurd now needed
  | ready =>
    rw [now, Phase.version] at version
    rw [version, Layout.wrap_of_lt (by omega)] at stale
    exact absurd rfl stale
  | writing thread =>
    exact order.writing thread _ index ((ledger.writing_iff thread _).mpr now) unpopped claimed
  | reading thread => exact absurd (by rw [now]; trivial) notPopped
  | released => exact absurd now unreleased

end InOrder

/-! ### The states during a call -/

theorem moments_of_step {recording next : QueueState Thread Value × List (QueueState Thread Value)}
    {thread : Thread} (kept : next.2 = recording.1 :: recording.2)
    (inside : (next.1.pc thread).isIdle = false) :
    moments next thread = next.1 :: moments recording thread := by
  rw [moments, kept, List.takeWhile_cons_of_pos (by rw [inside]; rfl)]
  rfl

theorem mem_moments {recording : QueueState Thread Value × List (QueueState Thread Value)}
    {thread : Thread} (inside : (recording.1.pc thread).isIdle = false) :
    recording.1 ∈ moments recording thread := by
  rw [moments, List.takeWhile_cons_of_pos (by rw [inside]; rfl)]
  exact List.mem_cons_self

/-- A moment of a call stays one as long as the call has not ended. -/
theorem exists_moment {recording next : QueueState Thread Value × List (QueueState Thread Value)}
    {thread : Thread} (kept : next.2 = recording.1 :: recording.2)
    (inside : (next.1.pc thread).isIdle = false) {property : QueueState Thread Value → Prop}
    (before : (∃ moment ∈ moments recording thread, property moment) ∨
      ((recording.1.pc thread).isIdle = false ∧ property recording.1)) :
    ∃ moment ∈ moments next thread, property moment := by
  rw [moments_of_step kept inside]
  rcases before with ⟨moment, member, holds⟩ | ⟨called, holds⟩
  · exact ⟨moment, List.mem_cons_of_mem _ member, holds⟩
  · exact ⟨recording.1, List.mem_cons_of_mem _ (mem_moments called), holds⟩

/-- The thread a label is about. -/
def QueueLabel.thread : QueueLabel Thread Value → Thread
  | .push thread _ | .pop thread | .advance thread | .leave thread => thread

variable [DecidableEq Thread] {layout : Layout} {state next : QueueState Thread Value}
  {phase : Nat → Phase Thread} {label : QueueLabel Thread Value}

/-- The program counters of a call that returns without success. -/
def Pc.failed : Pc Value → Bool
  | .pushReturned false | .popReturned none => true
  | _ => false

/-- A step of one thread to a program counter of no failed call. -/
theorem update_of_not_failed {state next : QueueState Thread Value} {thread : Thread}
    {pc : Pc Value} (same : next.pc = Function.update state.pc thread pc)
    (succeeds : pc.failed = false) {Push Pop : Prop} :
    ∃ pc, next.pc = Function.update state.pc thread pc ∧ (pc = .pushReturned false → Push) ∧
      (pc = .popReturned none → Pop) := by
  refine ⟨pc, same, fun failed => ?_, fun failed => ?_⟩
  · rw [failed] at succeeds
    cases succeeds
  · rw [failed] at succeeds
    cases succeeds

/-- An orderly step changes one program counter, and to a failed return only from inside a call,
a push when the queue is full and a pop when no fully pushed element is waiting. -/
theorem orderly_step (order : InOrder state) (ledger : Ledger layout state phase)
    (few : state.claimed.length < 2 ^ layout.width) (met : orderly layout state label = true)
    (taken : queueStep layout state label = some next) :
    ∃ pc, next.pc = Function.update state.pc label.thread pc ∧
      (pc = .pushReturned false →
        (state.pc label.thread).isIdle = false ∧ Full layout state) ∧
      (pc = .popReturned none →
        (state.pc label.thread).isIdle = false ∧ NoneWaiting state) := by
  cases label with
  | push thread value | pop thread | leave thread =>
    simp only [queueStep] at taken
    split at taken
    all_goals first
      | exact Option.some.inj taken ▸ update_of_not_failed rfl rfl
      | cases taken
  | advance thread =>
    simp only [queueStep] at taken
    unfold advance at taken
    unfold orderly at met
    cases now : state.pc thread with
    | idle | pushReturned _ | popReturned _ => simp only [now, reduceCtorEq] at taken
    | pushLoadTail _ | popLoadHead | popCopyValue _ | pushCopyValue _ _ | pushStoreVersion _ _
    | popStoreVersion _ _ =>
      simp only [now] at taken
      exact Option.some.inj taken ▸ update_of_not_failed rfl rfl
    | pushLoadVersion value tail =>
      simp only [now, decide_eq_true_eq] at met taken
      have current : tail = state.claimed.length := met.symm.trans ledger.tail
      split at taken
      · rename_i stale
        rw [current] at stale
        refine Option.some.inj taken ▸ ⟨_, rfl,
          fun _ => ⟨?_, order.full_of_version ledger few stale⟩, fun wrong => by cases wrong⟩
        rw [QueueLabel.thread, now]
        rfl
      · exact Option.some.inj taken ▸ update_of_not_failed rfl rfl
    | popLoadVersion head =>
      simp only [now, decide_eq_true_eq] at met taken
      have current : head = state.won.length := met.symm.trans ledger.head
      split at taken
      · rename_i stale
        rw [current] at stale
        refine Option.some.inj taken ▸ ⟨_, rfl, (fun wrong => by cases wrong),
          fun _ => ⟨?_, order.noneWaiting_of_version ledger few stale⟩⟩
        rw [QueueLabel.thread, now]
        rfl
      · exact Option.some.inj taken ▸ update_of_not_failed rfl rfl
    | pushCompareExchange value tail =>
      simp only [now, Bool.and_eq_true, decide_eq_true_eq] at met taken
      rw [if_pos met.1] at taken
      exact Option.some.inj taken ▸ update_of_not_failed rfl rfl
    | popCompareExchange head =>
      simp only [now, decide_eq_true_eq] at met taken
      rw [if_pos met] at taken
      exact Option.some.inj taken ▸ update_of_not_failed rfl rfl

/-- An orderly step does not wrap an index around. -/
theorem few_of_orderly (few : state.claimed.length < 2 ^ layout.width)
    (met : orderly layout state label = true)
    (taken : queueStep layout state label = some next) :
    next.claimed.length < 2 ^ layout.width := by
  cases label with
  | push thread value | pop thread | leave thread =>
    simp only [queueStep] at taken
    split at taken
    all_goals first
      | exact Option.some.inj taken ▸ few
      | cases taken
  | advance thread =>
    simp only [queueStep] at taken
    unfold advance at taken
    unfold orderly at met
    cases now : state.pc thread with
    | idle | pushReturned _ | popReturned _ => simp only [now, reduceCtorEq] at taken
    | pushCompareExchange value tail =>
      simp only [now, Bool.and_eq_true, decide_eq_true_eq] at met taken
      rw [if_pos met.1] at taken
      refine Option.some.inj taken ▸ ?_
      show (state.claimed ++ [value]).length < _
      rw [List.length_append]
      exact met.2
    | pushLoadVersion _ _ | popLoadVersion _ | popCompareExchange _ =>
      simp only [now] at taken
      split at taken <;> exact Option.some.inj taken ▸ few
    | _ =>
      simp only [now] at taken
      exact Option.some.inj taken ▸ few

/-! ### Runs -/

/-- The recorded runs all of whose steps are orderly. -/
def orderlyMachine (Thread Value : Type) [DecidableEq Thread] (layout : Layout) :
    Machine (QueueState Thread Value × List (QueueState Thread Value))
      (QueueLabel Thread Value) :=
  (queueMachine Thread Value layout).recorded.restrict fun recording label =>
    orderly layout recording.1 label

/-- What an orderly run keeps: the order, the bound on the indices, and the moments of the calls
that have failed. -/
def OrderlyRun (layout : Layout)
    (recording : QueueState Thread Value × List (QueueState Thread Value)) : Prop :=
  InOrder recording.1 ∧ recording.1.claimed.length < 2 ^ layout.width ∧
    FailureJustified layout recording

/-- In every run whose steps are all orderly, for any number of threads: a push returns false
only if at some moment of its call the queue was full, and a pop returns false only if at some
moment of its call no fully pushed element was waiting. -/
theorem failures_justified
    {recording : QueueState Thread Value × List (QueueState Thread Value)}
    (reachable : (orderlyMachine Thread Value layout).Reachable recording) :
    FailureJustified layout recording := by
  suffices kept : OrderlyRun layout recording from kept.2.2
  refine Machine.Reachable.invariant ?_ ?_ reachable
  · rintro recording ⟨⟨value, start⟩, -⟩
    rw [OrderlyRun, start]
    refine ⟨InOrder.start layout value, Nat.two_pow_pos _, fun thread => ?_⟩
    rw [start]
    exact ⟨nofun, nofun⟩
  · rintro recording label next before ⟨order, few, justified⟩ taken
    obtain ⟨met, recorded⟩ := Machine.restrict_step taken
    obtain ⟨stepped, kept⟩ := Machine.recorded_step recorded
    obtain ⟨phase, ledger⟩ := exists_ledger before.of_restrict.of_recorded few
    refine ⟨order.step ledger few met stepped, few_of_orderly few met stepped, fun thread => ?_⟩
    obtain ⟨pc, moved, refused, nothing⟩ := orderly_step order ledger few met stepped
    by_cases same : thread = label.thread
    · rw [moved, same, Function.update_self]
      refine ⟨fun failed => ?_, fun failed => ?_⟩
      · exact exists_moment kept (by rw [moved, Function.update_self, failed]; rfl)
          (Or.inr (refused failed))
      · exact exists_moment kept (by rw [moved, Function.update_self, failed]; rfl)
          (Or.inr (nothing failed))
    · rw [moved, Function.update_of_ne same]
      refine ⟨fun failed => ?_, fun failed => ?_⟩
      · exact exists_moment kept (by rw [moved, Function.update_of_ne same, failed]; rfl)
          (Or.inl ((justified thread).1 failed))
      · exact exists_moment kept (by rw [moved, Function.update_of_ne same, failed]; rfl)
          (Or.inl ((justified thread).2 failed))

/-! ### Two runs of two producers -/

theorem twoSlots_recorded :
    (queueMachine Bool Nat twoSlots).recorded.initial
      (QueueState.start twoSlots fun _ => 0, []) := ⟨twoSlots_initial, rfl⟩

/-- One producer fills a queue of two slots and pushes once more. -/
def thirdPush : List (QueueLabel Bool Nat) :=
  [.push false 7, .advance false, .advance false, .advance false, .advance false, .advance false,
    .leave false, .push true 8, .advance true, .advance true, .advance true, .advance true,
    .advance true, .leave true, .push false 9, .advance false, .advance false]

theorem failures_justified_thirdPush :
    ∃ recording, (orderlyMachine Bool Nat twoSlots).Reachable recording ∧
      recording.1.pc false = .pushReturned false ∧
      ∃ moment ∈ moments recording false, Full twoSlots moment := by
  obtain ⟨recording, reachable, passed⟩ := Machine.exists_reachable_of_run
    (orderlyMachine Bool Nat twoSlots) twoSlots_recorded thirdPush
    (fun recording => decide (recording.1.pc false = .pushReturned false)) (by decide +kernel)
  have refused := of_decide_eq_true passed
  exact ⟨recording, reachable, refused, (failures_justified reachable false).1 refused⟩

/-- Two producers load the same tail of an empty queue, and both pass the version check; one
wins the compare-exchange. -/
def overtakenPush : List (QueueLabel Bool Nat) :=
  [.push false 7, .advance false, .advance false, .push true 8, .advance true, .advance true,
    .advance true, .advance false]

/-- The push that loses the compare-exchange is refused, although at most one of the two places
was taken during its call. -/
theorem push_refused_with_room :
    ∃ recording, (queueMachine Bool Nat twoSlots).recorded.Reachable recording ∧
      recording.1.pc false = .pushReturned false ∧
      (∀ moment ∈ moments recording false, ¬ Full twoSlots moment) ∧
      ¬ FailureJustified twoSlots recording := by
  obtain ⟨recording, reachable, passed⟩ := Machine.exists_reachable_of_run
    (queueMachine Bool Nat twoSlots).recorded twoSlots_recorded overtakenPush
    (fun recording => decide (recording.1.pc false = .pushReturned false) &&
      (moments recording false).all fun moment => decide (¬ Full twoSlots moment))
    (by decide +kernel)
  obtain ⟨refused, room⟩ := (Bool.and_eq_true _ _).mp passed
  have refused := of_decide_eq_true refused
  have room : ∀ moment ∈ moments recording false, ¬ Full twoSlots moment :=
    fun moment member => of_decide_eq_true (List.all_eq_true.mp room moment member)
  refine ⟨recording, reachable, refused, room, fun justified => ?_⟩
  obtain ⟨moment, member, full⟩ := (justified false).1 refused
  exact room moment member full

end BrokerProxy.Limero
