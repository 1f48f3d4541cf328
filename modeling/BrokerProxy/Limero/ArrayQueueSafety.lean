/-
This file proves that the lock-free queue is safe under every interleaving: every
reachable state has a ledger, and the safety properties are read off it.

The runs are bounded by the number of pushes that have won: as long as fewer than two to
the index width have, no index and no compared version wraps around.
-/

import BrokerProxy.Limero.ArrayQueueLedger

namespace BrokerProxy.Limero

open Runs

/-! ### The claims only grow -/

section

variable {Thread Value : Type} [DecidableEq Thread] {layout : Layout}
  {state next : QueueState Thread Value}

theorem advance_claimed_le {thread : Thread} (taken : advance layout state thread = some next) :
    state.claimed.length ≤ next.claimed.length := by
  unfold advance at taken
  cases pc : state.pc thread with
  | idle | pushReturned _ | popReturned _ => simp only [pc, reduceCtorEq] at taken
  | pushCompareExchange value tail =>
    simp only [pc] at taken
    split at taken
    · rw [← Option.some.inj taken]
      show state.claimed.length ≤ (state.claimed ++ [value]).length
      rw [List.length_append]
      exact Nat.le_add_right _ _
    · rw [← Option.some.inj taken]
      exact le_rfl
  | pushLoadVersion _ _ | popLoadVersion _ | popCompareExchange _ =>
    simp only [pc] at taken
    split at taken <;> rw [← Option.some.inj taken] <;> exact le_rfl
  | _ =>
    simp only [pc, Option.some_inj] at taken
    rw [← taken]
    exact le_rfl

theorem queueStep_claimed_le {label : QueueLabel Thread Value}
    (taken : queueStep layout state label = some next) :
    state.claimed.length ≤ next.claimed.length := by
  cases label with
  | advance thread => exact advance_claimed_le taken
  | push _ _ | pop _ | leave _ =>
    simp only [queueStep] at taken
    split at taken
    all_goals
      cases taken
      try exact le_rfl

end

/-! ### Steps -/

namespace Ledger

variable {Thread Value : Type} [DecidableEq Thread] {layout : Layout}
  {state : QueueState Thread Value} {phase : Nat → Phase Thread}

/-- A step that only changes a program counter outside the claimed parts of a call. -/
theorem setPc_taken (ledger : Ledger layout state phase) {thread : Thread} {pc : Pc Value}
    {next : QueueState Thread Value} (taken : some (state.setPc thread pc) = some next)
    (oldWriting : (state.pc thread).writing = none)
    (oldReading : (state.pc thread).reading = none) (ok : PcOk layout state phase thread pc) :
    ∃ nextPhase, Ledger layout next nextPhase :=
  Option.some.inj taken ▸ ⟨phase, ledger.setPc thread pc oldWriting oldReading ok⟩

/-- Every access of a thread keeps the ledger, with at most one index in another phase. -/
theorem advance (ledger : Ledger layout state phase) {thread : Thread}
    {next : QueueState Thread Value} (few : next.claimed.length < 2 ^ layout.width)
    (taken : Limero.advance layout state thread = some next) :
    ∃ nextPhase, Ledger layout next nextPhase := by
  have grown := advance_claimed_le taken
  have ok := ledger.threads thread
  unfold Limero.advance at taken
  cases pc : state.pc thread with
  | idle | pushReturned _ | popReturned _ => simp only [pc, reduceCtorEq] at taken
  | pushLoadTail value =>
    simp only [pc] at taken
    exact ledger.setPc_taken taken (by rw [pc]; rfl) (by rw [pc]; rfl) ledger.tail.le
  | pushLoadVersion value tail =>
    simp only [pc] at taken
    rw [pc] at ok
    split at taken
    · exact ledger.setPc_taken taken (by rw [pc]; rfl) (by rw [pc]; rfl) trivial
    · rename_i passed
      refine ledger.setPc_taken taken (by rw [pc]; rfl) (by rw [pc]; rfl) ?_
      rcases Nat.eq_or_lt_of_le (show tail ≤ state.claimed.length from ok) with level | behind
      · refine Or.inr ⟨level, ?_⟩
        rw [level] at passed ⊢
        exact ledger.slotFree_of_version (not_not.mp passed)
      · exact Or.inl behind
  | pushCompareExchange value tail =>
    simp only [pc] at taken
    split at taken
    · rename_i level
      have level : tail = state.claimed.length := level.symm.trans ledger.tail
      rw [level] at taken pc
      have room : state.claimed.length + 1 < 2 ^ layout.width := by
        rw [← Option.some.inj taken] at few
        have grown : (state.claimed ++ [value]).length < 2 ^ layout.width := few
        rwa [List.length_append] at grown
      exact Option.some.inj taken ▸ ⟨_, ledger.pushWin thread value room pc⟩
    · exact ledger.setPc_taken taken (by rw [pc]; rfl) (by rw [pc]; rfl) trivial
  | pushCopyValue value tail =>
    simp only [pc, Option.some_inj] at taken
    exact taken ▸ ⟨_, ledger.pushCopy thread value tail pc⟩
  | pushStoreVersion value tail =>
    simp only [pc, Option.some_inj] at taken
    exact taken ▸ ⟨_, ledger.pushPublish thread value tail (lt_of_le_of_lt grown few) pc⟩
  | popLoadHead =>
    simp only [pc] at taken
    exact ledger.setPc_taken taken (by rw [pc]; rfl) (by rw [pc]; rfl) ledger.head.le
  | popLoadVersion head =>
    simp only [pc] at taken
    rw [pc] at ok
    split at taken
    · exact ledger.setPc_taken taken (by rw [pc]; rfl) (by rw [pc]; rfl) trivial
    · rename_i passed
      refine ledger.setPc_taken taken (by rw [pc]; rfl) (by rw [pc]; rfl) ?_
      rcases Nat.eq_or_lt_of_le (show head ≤ state.won.length from ok) with level | behind
      · refine Or.inr ?_
        rw [level] at passed ⊢
        exact ledger.ready_of_version (lt_of_le_of_lt grown few) (not_not.mp passed)
      · exact Or.inl behind
  | popCompareExchange head =>
    simp only [pc] at taken
    split at taken
    · rename_i level
      have level : head = state.won.length := level.symm.trans ledger.head
      rw [level] at taken pc
      exact Option.some.inj taken ▸
        ⟨_, ledger.popWin thread (lt_of_le_of_lt grown few) pc⟩
    · exact ledger.setPc_taken taken (by rw [pc]; rfl) (by rw [pc]; rfl) trivial
  | popCopyValue head =>
    simp only [pc, Option.some_inj] at taken
    exact taken ▸ ⟨_, ledger.popCopy thread head pc⟩
  | popStoreVersion head out =>
    simp only [pc, Option.some_inj] at taken
    exact taken ▸ ⟨_, ledger.popRelease thread head out pc⟩

/-- Every step keeps the ledger. -/
theorem step (ledger : Ledger layout state phase) {label : QueueLabel Thread Value}
    {next : QueueState Thread Value} (few : next.claimed.length < 2 ^ layout.width)
    (taken : queueStep layout state label = some next) :
    ∃ nextPhase, Ledger layout next nextPhase := by
  cases label with
  | push thread value =>
    simp only [queueStep] at taken
    split at taken
    · rename_i pc
      exact ledger.setPc_taken taken (by rw [pc]; rfl) (by rw [pc]; rfl) trivial
    · cases taken
  | pop thread =>
    simp only [queueStep] at taken
    split at taken
    · rename_i pc
      exact ledger.setPc_taken taken (by rw [pc]; rfl) (by rw [pc]; rfl) trivial
    · cases taken
  | advance thread => exact ledger.advance few taken
  | leave thread =>
    simp only [queueStep] at taken
    split at taken
    · rename_i pc
      exact ledger.setPc_taken taken (by rw [pc]; rfl) (by rw [pc]; rfl) trivial
    · rename_i pc
      exact ledger.setPc_taken taken (by rw [pc]; rfl) (by rw [pc]; rfl) trivial
    · cases taken

end Ledger

/-- Every reachable state has a ledger, as long as the indices do not wrap around. -/
theorem exists_ledger [DecidableEq Thread] {layout : Layout} {state : QueueState Thread Value}
    (reachable : (queueMachine Thread Value layout).Reachable state)
    (few : state.claimed.length < 2 ^ layout.width) : ∃ phase, Ledger layout state phase := by
  induction reachable with
  | initial start =>
    obtain ⟨value, rfl⟩ := start
    exact ⟨_, Ledger.start layout value⟩
  | step label before taken inductionHypothesis =>
    obtain ⟨phase, ledger⟩ :=
      inductionHypothesis (lt_of_le_of_lt (queueStep_claimed_le taken) few)
    exact ledger.step few taken

/-! ### Safety -/

/-- A thread holds an index: it is between its successful compare-exchange and its version
store. -/
def Pc.Holds {Value : Type} (pc : Pc Value) (index : Nat) : Prop :=
  pc.writing = some index ∨ pc.reading = some index

namespace Ledger

variable {Thread Value : Type} {layout : Layout} {state : QueueState Thread Value}
  {phase : Nat → Phase Thread}

theorem writing_iff (ledger : Ledger layout state phase) (thread : Thread) (index : Nat) :
    (state.pc thread).writing = some index ↔ phase index = .writing thread := by
  refine ⟨fun claims => ?_, ledger.writer thread index⟩
  have ok := ledger.threads thread
  cases pc : state.pc thread with
  | pushCopyValue value tail | pushStoreVersion value tail =>
    rw [pc] at ok claims
    rw [← Option.some.inj claims]
    exact ok.1
  | _ =>
    rw [pc] at claims
    cases claims

theorem reading_iff (ledger : Ledger layout state phase) (thread : Thread) (index : Nat) :
    (state.pc thread).reading = some index ↔ phase index = .reading thread := by
  refine ⟨fun claims => ?_, ledger.reader thread index⟩
  have ok := ledger.threads thread
  cases pc : state.pc thread with
  | popCopyValue head =>
    rw [pc] at ok claims
    rw [← Option.some.inj claims]
    exact ok
  | popStoreVersion head out =>
    rw [pc] at ok claims
    rw [← Option.some.inj claims]
    exact ok.1
  | _ =>
    rw [pc] at claims
    cases claims

theorem holds_iff (ledger : Ledger layout state phase) (thread : Thread) (index : Nat) :
    (state.pc thread).Holds index ↔
      phase index = .writing thread ∨ phase index = .reading thread :=
  or_congr (ledger.writing_iff thread index) (ledger.reading_iff thread index)

/-- At most one thread holds an index of a slot. -/
theorem exclusive (ledger : Ledger layout state phase) {first second : Thread}
    {firstIndex secondIndex : Nat} (firstHolds : (state.pc first).Holds firstIndex)
    (secondHolds : (state.pc second).Holds secondIndex)
    (same : layout.slot firstIndex = layout.slot secondIndex) : first = second := by
  rw [ledger.holds_iff] at firstHolds secondHolds
  have claimed : ∀ {thread : Thread} {index : Nat},
      phase index = .writing thread ∨ phase index = .reading thread →
        phase index ≠ .free ∧ phase index ≠ .released := by
    rintro thread index (now | now) <;> rw [now] <;> exact ⟨nofun, nofun⟩
  have equal : firstIndex = secondIndex :=
    ledger.slot_injective (claimed firstHolds).1 (claimed firstHolds).2 (claimed secondHolds).1
      (claimed secondHolds).2 same
  rw [equal] at firstHolds
  rcases firstHolds with first | first <;> rcases secondHolds with second | second <;>
    rw [first] at second <;> cases second <;> rfl

/-- A finished pop has returned the value of a push that has finished. -/
theorem finished (ledger : Ledger layout state phase) {pair : Nat × Value}
    (member : pair ∈ state.returned) :
    pair.1 ∈ state.won ∧ state.claimed[pair.1]? = some pair.2 ∧
      ∀ thread, ¬ (state.pc thread).Holds pair.1 := by
  obtain ⟨released, found⟩ := ledger.returned pair member
  refine ⟨?_, found, fun thread holds => ?_⟩
  · rw [ledger.won, List.mem_range, ← ledger.popped, released]
    trivial
  · rw [ledger.holds_iff, released] at holds
    rcases holds with wrong | wrong <;> cases wrong

/-- The value of a push stays in its slot until it is popped. -/
theorem kept (ledger : Ledger layout state phase) {index : Nat}
    (unpopped : state.won.length ≤ index) (claimed : index < state.claimed.length)
    (written : ∀ thread, (state.pc thread).writing ≠ some index) :
    state.claimed[index]? = some (state.memory.value (layout.slot index)) := by
  refine ledger.stored index ?_
  cases now : phase index with
  | free => exact absurd ((ledger.free index).mp now) (not_le.mpr claimed)
  | writing thread => exact absurd (ledger.writer thread index now) (written thread)
  | ready => trivial
  | reading thread => trivial
  | released =>
    have popped := (ledger.popped index).mp (by rw [now]; trivial)
    exact absurd popped (not_lt.mpr unpopped)

/-- The value of a push is still in its slot when its pop copies it. -/
theorem copied (ledger : Ledger layout state phase) {thread : Thread} {head : Nat}
    (pc : state.pc thread = .popCopyValue head) :
    state.claimed[head]? = some (state.memory.value (layout.slot head)) := by
  refine ledger.stored head ?_
  rw [(ledger.reading_iff thread head).mp (by rw [pc]; rfl)]
  trivial

end Ledger

/-- Safety under every interleaving, for any number of threads, while fewer than two to the
index width pushes have won: at most one thread at a time is between its compare-exchange and
its version store for a slot; the pops win the indices one after the other, in the order in
which the pushes won them; each finished pop has returned the value of another finished push;
and a pushed value stays in its slot until its pop has copied it. -/
theorem arrayQueue_safe {Thread Value : Type} [DecidableEq Thread] {layout : Layout}
    {state : QueueState Thread Value}
    (reachable : (queueMachine Thread Value layout).Reachable state)
    (few : state.claimed.length < 2 ^ layout.width) :
    (∀ first second firstIndex secondIndex, (state.pc first).Holds firstIndex →
      (state.pc second).Holds secondIndex →
        layout.slot firstIndex = layout.slot secondIndex → first = second) ∧
    state.won = List.range state.won.length ∧
    (state.returned.map Prod.fst).Nodup ∧
    (∀ pair ∈ state.returned, pair.1 ∈ state.won ∧ state.claimed[pair.1]? = some pair.2 ∧
      ∀ thread, ¬ (state.pc thread).Holds pair.1) ∧
    (∀ index, state.won.length ≤ index → index < state.claimed.length →
      (∀ thread, (state.pc thread).writing ≠ some index) →
        state.claimed[index]? = some (state.memory.value (layout.slot index))) ∧
    (∀ thread head, state.pc thread = .popCopyValue head →
      state.claimed[head]? = some (state.memory.value (layout.slot head))) := by
  obtain ⟨phase, ledger⟩ := exists_ledger reachable few
  refine ⟨fun _ _ _ _ firstHolds secondHolds same => ?_, ledger.won, ledger.distinct,
    fun _ member => ledger.finished member,
    fun _ unpopped claimed written => ledger.kept unpopped claimed written,
    fun _ _ pc => ledger.copied pc⟩
  exact ledger.exclusive firstHolds secondHolds same

/-- Two slots and 64-bit indices, as on Linux. -/
def twoSlots : Layout where
  capacity := 2
  width := 64
  two_le_capacity := le_rfl
  width_pos := by decide

theorem twoSlots_initial :
    (queueMachine Bool Nat twoSlots).initial (QueueState.start twoSlots fun _ => 0) := ⟨_, rfl⟩

/-- One thread pushes a value that another one pops, and then claims the second slot. -/
def pushThenPop : List (QueueLabel Bool Nat) :=
  [.push false 7, .advance false, .advance false, .advance false, .advance false, .advance false,
    .leave false, .pop true, .advance true, .advance true, .advance true, .advance true,
    .advance true, .push false 8, .advance false, .advance false, .advance false]

theorem arrayQueue_safe_pushThenPop :
    ∃ state : QueueState Bool Nat, (queueMachine Bool Nat twoSlots).Reachable state ∧
      state.claimed = [7, 8] ∧ state.returned = [(0, 7)] ∧
      (state.pc false).Holds 1 ∧ ¬ (state.pc true).Holds 1 := by
  obtain ⟨state, reachable, passed⟩ := Machine.exists_reachable_of_run
    (queueMachine Bool Nat twoSlots) twoSlots_initial pushThenPop
    (fun state => decide (state.claimed = [7, 8] ∧ state.returned = [(0, 7)] ∧
      (state.pc false).writing = some 1)) (by decide +kernel)
  obtain ⟨claimed, returned, writing⟩ := of_decide_eq_true passed
  have few : state.claimed.length < 2 ^ twoSlots.width := by
    rw [claimed]
    decide
  have exclusive := (arrayQueue_safe reachable few).1
  refine ⟨state, reachable, claimed, returned, Or.inl writing, fun holds => ?_⟩
  exact Bool.false_ne_true (exclusive false true 1 1 (Or.inl writing) holds rfl)

end BrokerProxy.Limero
