/-
This file develops the invariant of the lock-free queue and shows that every access of
the code keeps it.

A ledger is kept beside the state: every index is free, being written by one thread,
ready, being read by one thread, or released. It says how the phase of an index shows in
the version of its slot, as long as no later index has been claimed for that slot, and
what each thread may rely on at each point of its call. Because the capacity is at least
two, the versions of the different phases and rounds of a slot never coincide, so a
version that passes a check always means the right phase. Every access moves at most one
index to its next phase.

The histories are bounded by the number of pushes that have won: as long as fewer than
two to the index width have, no index and no compared version wraps around.
-/

import BrokerProxy.Limero.ArrayQueue
import Mathlib.Data.List.Nodup
import Mathlib.Data.Nat.ModEq

namespace BrokerProxy.Limero

/-! ### The ledger -/

/-- The life of an index. -/
inductive Phase (Thread : Type)
  | free
  | writing (thread : Thread)
  | ready
  | reading (thread : Thread)
  | released

/-- A pop has claimed the index. -/
def Phase.popped {Thread : Type} : Phase Thread → Prop
  | .reading _ | .released => True
  | _ => False

/-- The value of the index is in its slot, for a pop to copy. -/
def Phase.holds {Thread : Type} : Phase Thread → Prop
  | .ready | .reading _ => True
  | _ => False

/-- How the phase of an index shows in the version of its slot. -/
def Phase.version {Thread : Type} (layout : Layout) (index : Nat) : Phase Thread → Nat
  | .free | .writing _ => index
  | .ready | .reading _ => index + 1
  | .released => layout.wrap (index + layout.capacity)

variable {Thread Value : Type}

/-- The slot of an index that is claimed next is unused, or the index that used it last has been
released. -/
def SlotFree (layout : Layout) (phase : Nat → Phase Thread) (index : Nat) : Prop :=
  index < layout.capacity ∨ phase (index - layout.capacity) = .released

/-- What a thread may rely on at each point of its call. -/
def PcOk (layout : Layout) (state : QueueState Thread Value) (phase : Nat → Phase Thread)
    (thread : Thread) : Pc Value → Prop
  | .pushLoadVersion _ tail => tail ≤ state.claimed.length
  | .pushCompareExchange _ tail =>
      tail < state.claimed.length ∨ (tail = state.claimed.length ∧ SlotFree layout phase tail)
  | .pushCopyValue value tail =>
      phase tail = .writing thread ∧ state.claimed[tail]? = some value
  | .pushStoreVersion value tail =>
      phase tail = .writing thread ∧ state.claimed[tail]? = some value ∧
        state.memory.value (layout.slot tail) = value
  | .popLoadVersion head => head ≤ state.won.length
  | .popCompareExchange head => head < state.won.length ∨ phase head = .ready
  | .popCopyValue head => phase head = .reading thread
  | .popStoreVersion head out =>
      phase head = .reading thread ∧ state.claimed[head]? = some out
  | _ => True

/-- The invariant: how the phases of the indices, the shared memory, the program counters and
the histories fit together. -/
structure Ledger (layout : Layout) (state : QueueState Thread Value)
    (phase : Nat → Phase Thread) : Prop where
  tail : state.memory.tail = state.claimed.length
  head : state.memory.head = state.won.length
  won : state.won = List.range state.won.length
  free : ∀ index, phase index = .free ↔ state.claimed.length ≤ index
  popped : ∀ index, (phase index).popped ↔ index < state.won.length
  overwritten : ∀ index, index + layout.capacity < state.claimed.length → phase index = .released
  version : ∀ index, index < state.claimed.length →
    state.claimed.length ≤ index + layout.capacity →
      state.memory.version (layout.slot index) = (phase index).version layout index
  fresh : ∀ index, index < layout.capacity → state.claimed.length ≤ index →
    state.memory.version index = layout.wrap index
  stored : ∀ index, (phase index).holds →
    state.claimed[index]? = some (state.memory.value (layout.slot index))
  writer : ∀ thread index, phase index = .writing thread →
    (state.pc thread).writing = some index
  reader : ∀ thread index, phase index = .reading thread →
    (state.pc thread).reading = some index
  threads : ∀ thread, PcOk layout state phase thread (state.pc thread)
  returned : ∀ pair ∈ state.returned,
    phase pair.1 = .released ∧ state.claimed[pair.1]? = some pair.2
  distinct : (state.returned.map Prod.fst).Nodup

/-! ### Slots and versions -/

/-- Two indices of one slot are equal or at least the capacity apart. -/
theorem Layout.slot_eq {layout : Layout} {first second : Nat}
    (same : layout.slot first = layout.slot second) (ordered : first ≤ second) :
    first = second ∨ first + layout.capacity ≤ second := by
  have divides : layout.capacity ∣ second - first :=
    (Nat.modEq_iff_dvd' ordered).mp same
  rcases Nat.eq_zero_or_pos (second - first) with equal | apart
  · exact Or.inl (by omega)
  · have far := Nat.le_of_dvd apart divides
    exact Or.inr (by omega)

namespace Ledger

variable {layout : Layout} {state : QueueState Thread Value} {phase : Nat → Phase Thread}

theorem won_le_claimed (ledger : Ledger layout state phase) :
    state.won.length ≤ state.claimed.length := by
  by_contra more
  have popped := (ledger.popped state.claimed.length).mpr (by omega)
  rw [(ledger.free state.claimed.length).mpr le_rfl] at popped
  exact popped

/-- An index whose value is still needed is the latest one of its slot. -/
theorem latest (ledger : Ledger layout state phase) {index : Nat}
    (needed : phase index ≠ .free) (unreleased : phase index ≠ .released) :
    index < state.claimed.length ∧ state.claimed.length ≤ index + layout.capacity := by
  constructor
  · by_contra late
    exact needed ((ledger.free index).mpr (by omega))
  · by_contra early
    exact unreleased (ledger.overwritten index (by omega))

/-- Two unreleased indices of one slot are equal. -/
theorem slot_injective (ledger : Ledger layout state phase) {first second : Nat}
    (firstNeeded : phase first ≠ .free) (firstUnreleased : phase first ≠ .released)
    (secondNeeded : phase second ≠ .free) (secondUnreleased : phase second ≠ .released)
    (same : layout.slot first = layout.slot second) : first = second := by
  have firstLatest := ledger.latest firstNeeded firstUnreleased
  have secondLatest := ledger.latest secondNeeded secondUnreleased
  rcases Nat.le_total first second with ordered | ordered
  · rcases Layout.slot_eq same ordered with equal | far
    · exact equal
    · omega
  · rcases Layout.slot_eq same.symm ordered with equal | far
    · exact equal.symm
    · omega

/-- The slot of the next index shows the version of the index one round before. -/
theorem version_round_before (ledger : Ledger layout state phase)
    (large : layout.capacity ≤ state.claimed.length) :
    state.memory.version (layout.slot state.claimed.length) =
      (phase (state.claimed.length - layout.capacity)).version layout
        (state.claimed.length - layout.capacity) := by
  have capacity := layout.two_le_capacity
  have version := ledger.version (state.claimed.length - layout.capacity) (by omega) (by omega)
  rwa [← layout.slot_add_capacity, Nat.sub_add_cancel large] at version

/-- The version check of a push passes only on a slot that is free for its index. -/
theorem slotFree_of_version (ledger : Ledger layout state phase)
    (passed : state.memory.version (layout.slot state.claimed.length) = state.claimed.length) :
    SlotFree layout phase state.claimed.length := by
  have capacity := layout.two_le_capacity
  rcases Nat.lt_or_ge state.claimed.length layout.capacity with small | large
  · exact Or.inl small
  · refine Or.inr ?_
    have version := ledger.version_round_before large
    rw [passed] at version
    cases now : phase (state.claimed.length - layout.capacity) with
    | free => exact absurd ((ledger.free _).mp now) (by omega)
    | released => rfl
    | _ =>
      rw [now] at version
      simp only [Phase.version] at version
      omega

/-- A slot that is free for the next index shows that index, in either way it can be free. -/
theorem version_of_slotFree (ledger : Ledger layout state phase)
    (few : state.claimed.length < 2 ^ layout.width)
    (slotFree : SlotFree layout phase state.claimed.length) :
    state.memory.version (layout.slot state.claimed.length) = state.claimed.length := by
  rcases Nat.lt_or_ge state.claimed.length layout.capacity with small | large
  · rw [Layout.slot_of_lt small, ledger.fresh _ small le_rfl, Layout.wrap_of_lt few]
  · have released := slotFree.resolve_left (not_lt.mpr large)
    rw [ledger.version_round_before large, released, Phase.version, Nat.sub_add_cancel large,
      Layout.wrap_of_lt few]

/-- The version check of a pop passes only on a ready index. -/
theorem ready_of_version (ledger : Ledger layout state phase)
    (few : state.claimed.length < 2 ^ layout.width)
    (passed : state.memory.version (layout.slot state.won.length) =
      layout.wrap (state.won.length + 1)) : phase state.won.length = .ready := by
  have capacity := layout.two_le_capacity
  have notPopped : ¬ (phase state.won.length).popped := fun popped =>
    absurd ((ledger.popped _).mp popped) (by omega)
  rcases Nat.lt_or_ge state.won.length state.claimed.length with behind | level
  · have window : state.claimed.length ≤ state.won.length + layout.capacity := by
      by_contra early
      have released := ledger.overwritten state.won.length (by omega)
      exact notPopped (by rw [released]; trivial)
    have version := ledger.version state.won.length behind window
    rw [passed, Layout.wrap_of_lt (by omega)] at version
    cases now : phase state.won.length with
    | free => exact absurd ((ledger.free _).mp now) (by omega)
    | writing thread =>
      rw [now] at version
      simp only [Phase.version] at version
      omega
    | ready => rfl
    | reading thread => exact absurd (by rw [now]; trivial) notPopped
    | released => exact absurd (by rw [now]; trivial) notPopped
  · -- The queue is empty: the slot shows an older round, whose version is never one ahead.
    exfalso
    have equal : state.won.length = state.claimed.length :=
      le_antisymm ledger.won_le_claimed level
    have nonzero : 2 ≤ 2 ^ layout.width := by
      calc 2 = 2 ^ 1 := rfl
        _ ≤ 2 ^ layout.width := Nat.pow_le_pow_right (by omega) layout.width_pos
    have shifted : layout.wrap (state.claimed.length + 1) ≠ state.claimed.length ∧
        ∀ index, index + 1 ≤ state.claimed.length →
          layout.wrap (state.claimed.length + 1) ≠ index + 1 ∨
            state.claimed.length + 1 < 2 ^ layout.width := by
      unfold Layout.wrap
      rcases Nat.lt_or_ge (state.claimed.length + 1) (2 ^ layout.width) with room | full
      · rw [Nat.mod_eq_of_lt room]
        exact ⟨by omega, fun index _ => Or.inr room⟩
      · rw [show state.claimed.length + 1 = 2 ^ layout.width by omega, Nat.mod_self]
        exact ⟨by omega, fun index _ => Or.inl (by omega)⟩
    rw [equal] at passed notPopped
    rcases Nat.lt_or_ge state.claimed.length layout.capacity with small | large
    · rw [Layout.slot_of_lt small, ledger.fresh _ small le_rfl, Layout.wrap_of_lt few] at passed
      exact shifted.1 passed.symm
    · have version := ledger.version_round_before large
      have popped := (ledger.popped (state.claimed.length - layout.capacity)).mpr (by omega)
      rw [passed] at version
      cases now : phase (state.claimed.length - layout.capacity) with
      | reading thread =>
        rw [now] at version
        simp only [Phase.version] at version
        rcases shifted.2 (state.claimed.length - layout.capacity) (by omega) with different | room
        · exact different version
        · rw [Layout.wrap_of_lt room] at version
          omega
      | released =>
        rw [now] at version
        simp only [Phase.version, Nat.sub_add_cancel large, Layout.wrap_of_lt few] at version
        exact shifted.1 version
      | _ =>
        rw [now] at popped
        exact popped

/-- The ledger of a queue nobody has called: every index is free. -/
theorem start (layout : Layout) (value : Nat → Value) :
    Ledger layout (QueueState.start layout value : QueueState Thread Value) fun _ => .free where
  tail := rfl
  head := rfl
  won := rfl
  free index := ⟨fun _ => Nat.zero_le _, fun _ => rfl⟩
  popped index := ⟨fun popped => popped.elim, fun early => absurd early (Nat.not_lt_zero _)⟩
  overwritten index early := absurd early (Nat.not_lt_zero _)
  version index early := absurd early (Nat.not_lt_zero _)
  fresh index _ _ := rfl
  stored index holds := holds.elim
  writer thread index owns := by cases owns
  reader thread index owns := by cases owns
  threads thread := trivial
  returned pair member := absurd member (List.not_mem_nil)
  distinct := List.nodup_nil

end Ledger

/-! ### One access of one thread -/

/-- What a thread relies on survives a step of another thread: the claims and the pops only
grow, this thread's indices keep their phase, a released slot stays released, a ready index
stays ready or is popped, and a slot this thread is writing keeps its value. -/
theorem PcOk.mono {layout : Layout} {state next : QueueState Thread Value}
    {phase nextPhase : Nat → Phase Thread} {thread : Thread} {pc : Pc Value}
    (ok : PcOk layout state phase thread pc)
    (claimed : ∃ more, next.claimed = state.claimed ++ more)
    (won : state.won.length ≤ next.won.length)
    (writing : ∀ index, phase index = .writing thread → nextPhase index = .writing thread)
    (reading : ∀ index, phase index = .reading thread → nextPhase index = .reading thread)
    (released : ∀ index, phase index = .released → nextPhase index = .released)
    (ready : ∀ index, phase index = .ready →
      nextPhase index = .ready ∨ index < next.won.length)
    (value : ∀ index, phase index = .writing thread →
      next.memory.value (layout.slot index) = state.memory.value (layout.slot index)) :
    PcOk layout next nextPhase thread pc := by
  obtain ⟨more, claimed⟩ := claimed
  have longer : state.claimed.length ≤ next.claimed.length := by
    rw [claimed, List.length_append]
    omega
  have kept : ∀ {index : Nat} {value : Value}, state.claimed[index]? = some value →
      next.claimed[index]? = some value := by
    intro index value found
    rw [claimed, List.getElem?_append_left (List.getElem?_eq_some_iff.mp found).1, found]
  cases pc with
  | pushLoadVersion _ tail => exact le_trans ok longer
  | pushCompareExchange _ tail =>
    rcases ok with behind | ⟨level, free⟩
    · exact Or.inl (by omega)
    · rcases Nat.eq_or_lt_of_le longer with same | more
      · exact Or.inr ⟨by omega, free.imp id (released _)⟩
      · exact Or.inl (by omega)
  | pushCopyValue _ tail => exact ⟨writing _ ok.1, kept ok.2⟩
  | pushStoreVersion _ tail =>
    exact ⟨writing _ ok.1, kept ok.2.1, by rw [value _ ok.1]; exact ok.2.2⟩
  | popLoadVersion head => exact le_trans ok won
  | popCompareExchange head =>
    rcases ok with behind | waiting
    · exact Or.inl (by omega)
    · exact (ready _ waiting).symm
  | popCopyValue head => exact reading _ ok
  | popStoreVersion head out => exact ⟨reading _ ok.1, kept ok.2⟩
  | _ => trivial

namespace Ledger

variable {layout : Layout} {state : QueueState Thread Value} {phase : Nat → Phase Thread}

/-- The versions after the version store of one claimed index. -/
theorem version_update (ledger : Ledger layout state phase) (moved : Nat)
    (claimed : moved < state.claimed.length)
    (window : state.claimed.length ≤ moved + layout.capacity) (next : Phase Thread)
    (version : Nat) (shown : version = next.version layout moved) (index : Nat)
    (indexClaimed : index < state.claimed.length)
    (indexWindow : state.claimed.length ≤ index + layout.capacity) :
    Function.update state.memory.version (layout.slot moved) version (layout.slot index) =
      (Function.update phase moved next index).version layout index := by
  by_cases same : index = moved
  · rw [same, Function.update_self, Function.update_self, shown]
  · have apart : layout.slot index ≠ layout.slot moved := by
      intro slots
      rcases Nat.le_total index moved with ordered | ordered
      · have far := (Layout.slot_eq slots ordered).resolve_left same
        omega
      · have far := (Layout.slot_eq slots.symm ordered).resolve_left (Ne.symm same)
        omega
    rw [Function.update_of_ne apart, Function.update_of_ne same]
    exact ledger.version index indexClaimed indexWindow

/-- The version store of a claimed index leaves the unused slots alone. -/
theorem fresh_update (ledger : Ledger layout state phase) (moved : Nat)
    (claimed : moved < state.claimed.length) (version : Nat) (index : Nat)
    (small : index < layout.capacity) (unused : state.claimed.length ≤ index) :
    Function.update state.memory.version (layout.slot moved) version index =
      layout.wrap index := by
  have apart : index ≠ layout.slot moved := by
    rw [Layout.slot_of_lt (show moved < layout.capacity by omega)]
    omega
  rw [Function.update_of_ne apart]
  exact ledger.fresh index small unused

/-- A phase other than the one that changes is kept. -/
theorem update_kept {moved index : Nat} {old next : Phase Thread} (now : phase index = old)
    (different : old ≠ phase moved) : Function.update phase moved next index = old := by
  rw [Function.update_of_ne (fun same => different (by rw [← now, same])), now]

theorem free_update (ledger : Ledger layout state phase) {moved : Nat} {next : Phase Thread}
    (needed : phase moved ≠ .free) (claimed : next ≠ .free) (index : Nat) :
    Function.update phase moved next index = .free ↔ state.claimed.length ≤ index := by
  by_cases same : index = moved
  · rw [same, Function.update_self]
    exact ⟨fun now => absurd now claimed, fun late => absurd ((ledger.free moved).mpr late) needed⟩
  · rw [Function.update_of_ne same]
    exact ledger.free index

theorem popped_update (ledger : Ledger layout state phase) {moved : Nat} {next : Phase Thread}
    (alike : next.popped ↔ (phase moved).popped) (index : Nat) :
    (Function.update phase moved next index).popped ↔ index < state.won.length := by
  by_cases same : index = moved
  · rw [same, Function.update_self]
    exact alike.trans (ledger.popped moved)
  · rw [Function.update_of_ne same]
    exact ledger.popped index

theorem overwritten_update (ledger : Ledger layout state phase) {moved : Nat}
    (latest : state.claimed.length ≤ moved + layout.capacity) (next : Phase Thread) (index : Nat)
    (early : index + layout.capacity < state.claimed.length) :
    Function.update phase moved next index = .released := by
  rw [Function.update_of_ne (by omega)]
  exact ledger.overwritten index early

/-- What has been returned stays released. -/
theorem returned_update (ledger : Ledger layout state phase) {moved : Nat}
    (unreleased : phase moved ≠ .released) (next : Phase Thread) :
    ∀ pair ∈ state.returned, Function.update phase moved next pair.1 = .released ∧
      state.claimed[pair.1]? = some pair.2 := by
  intro pair member
  obtain ⟨released, found⟩ := ledger.returned pair member
  exact ⟨update_kept released unreleased.symm, found⟩

end Ledger

theorem PcOk.setPc_iff [DecidableEq Thread] (layout : Layout) (state : QueueState Thread Value)
    (phase : Nat → Phase Thread) (thread other : Thread) (new pc : Pc Value) :
    PcOk layout (state.setPc thread new) phase other pc ↔ PcOk layout state phase other pc := by
  cases pc <;> rfl

namespace Ledger

variable [DecidableEq Thread] {layout : Layout} {state : QueueState Thread Value}
  {phase : Nat → Phase Thread}

/-- An access that only changes the thread's program counter, outside the two claimed parts of
a call. -/
theorem setPc (ledger : Ledger layout state phase) (thread : Thread) (pc : Pc Value)
    (oldWriting : (state.pc thread).writing = none)
    (oldReading : (state.pc thread).reading = none)
    (ok : PcOk layout state phase thread pc) : Ledger layout (state.setPc thread pc) phase where
  tail := ledger.tail
  head := ledger.head
  won := ledger.won
  free := ledger.free
  popped := ledger.popped
  overwritten := ledger.overwritten
  version := ledger.version
  fresh := ledger.fresh
  stored := ledger.stored
  writer other index owns := by
    have before := ledger.writer other index owns
    by_cases same : other = thread
    · rw [same, oldWriting] at before
      cases before
    · rwa [state.setPc_of_ne pc same]
  reader other index owns := by
    have before := ledger.reader other index owns
    by_cases same : other = thread
    · rw [same, oldReading] at before
      cases before
    · rwa [state.setPc_of_ne pc same]
  threads := by
    refine (Function.forall_update_iff state.pc (PcOk layout _ _)).mpr ⟨?_, fun other _ => ?_⟩
    · exact (PcOk.setPc_iff layout state phase thread thread pc pc).mpr ok
    · exact (PcOk.setPc_iff layout state phase thread other pc _).mpr (ledger.threads other)
  returned := ledger.returned
  distinct := ledger.distinct

/-- The thread that holds a claim, after one thread moved one index to its next phase. The two
kinds of claim, for writing and for reading, are the two instances. -/
theorem owner_update {claim : Pc Value → Option Nat} {owner : Thread → Phase Thread}
    {pc : Thread → Pc Value}
    (owns : ∀ other index, phase index = owner other → claim (pc other) = some index)
    (thread : Thread) (new : Pc Value) (moved : Nat) (next : Phase Thread)
    (left : ∀ index, claim (pc thread) = some index → index = moved)
    (entered : ∀ other, next = owner other → other = thread ∧ claim new = some moved) :
    ∀ other index, Function.update phase moved next index = owner other →
      claim (Function.update pc thread new other) = some index := by
  intro other index now
  by_cases same : index = moved
  · rw [same, Function.update_self] at now
    obtain ⟨rfl, claimed⟩ := entered other now
    rw [Function.update_self, claimed, same]
  · rw [Function.update_of_ne same] at now
    have before := owns other index now
    by_cases self : other = thread
    · rw [self] at before
      exact absurd (left index before) same
    · rwa [Function.update_of_ne self]

theorem getElem?_append_of_some {list more : List Value} {index : Nat} {value : Value}
    (found : list[index]? = some value) : (list ++ more)[index]? = some value := by
  rw [List.getElem?_append_left (List.getElem?_eq_some_iff.mp found).1, found]

/-- A push wins its compare-exchange: the next index goes from free to writing. -/
theorem pushWin (ledger : Ledger layout state phase) (thread : Thread) (value : Value)
    (few : state.claimed.length + 1 < 2 ^ layout.width)
    (pc : state.pc thread = .pushCompareExchange value state.claimed.length) :
    Ledger layout
      { (state.setPc thread (.pushCopyValue value state.claimed.length)).setMemory
          { state.memory with tail := layout.wrap (state.claimed.length + 1) } with
          claimed := state.claimed ++ [value] }
      (Function.update phase state.claimed.length (.writing thread)) := by
  have capacity := layout.two_le_capacity
  have slotFree : SlotFree layout phase state.claimed.length := by
    have ok := ledger.threads thread
    rw [pc] at ok
    rcases ok with behind | ⟨-, free⟩
    · exact absurd behind (lt_irrefl _)
    · exact free
  have unclaimed : phase state.claimed.length = .free := (ledger.free _).mpr le_rfl
  have length : (state.claimed ++ [value]).length = state.claimed.length + 1 :=
    List.length_append
  have notWon := ledger.won_le_claimed
  refine
    { tail := ?_, head := ledger.head, won := ledger.won, free := ?_, popped := ?_,
      overwritten := ?_, version := ?_, fresh := ?_, stored := ?_, writer := ?_, reader := ?_,
      threads := ?_, returned := ?_, distinct := ledger.distinct }
  · exact (Layout.wrap_of_lt few).trans length.symm
  · intro index
    rw [length]
    by_cases same : index = state.claimed.length
    · rw [same, Function.update_self]
      exact ⟨fun wrong => (by cases wrong), fun wrong => absurd wrong (by omega)⟩
    · rw [Function.update_of_ne same, ledger.free]
      omega
  · intro index
    by_cases same : index = state.claimed.length
    · rw [same, Function.update_self]
      exact ⟨fun wrong => wrong.elim,
        fun (wrong : state.claimed.length < state.won.length) => absurd wrong (by omega)⟩
    · rw [Function.update_of_ne same]
      exact ledger.popped index
  · intro index early
    rw [length] at early
    rw [Function.update_of_ne (by omega)]
    rcases Nat.lt_or_ge (index + layout.capacity) state.claimed.length with earlier | last
    · exact ledger.overwritten index earlier
    · rcases slotFree with small | released
      · omega
      · rwa [show state.claimed.length - layout.capacity = index by omega] at released
  · intro index claimed window
    rw [length] at claimed window
    by_cases same : index = state.claimed.length
    · rw [same, Function.update_self]
      exact ledger.version_of_slotFree (by omega) slotFree
    · rw [Function.update_of_ne same]
      exact ledger.version index (by omega) (by omega)
  · intro index small unused
    rw [length] at unused
    exact ledger.fresh index small (by omega)
  · intro index holds
    by_cases same : index = state.claimed.length
    · rw [same, Function.update_self] at holds
      exact holds.elim
    · rw [Function.update_of_ne same] at holds
      exact getElem?_append_of_some (ledger.stored index holds)
  · refine owner_update ledger.writer thread _ state.claimed.length _ ?_ ?_
    · rw [pc]
      exact fun _ wrong => by cases wrong
    · rintro other ⟨⟩
      exact ⟨rfl, rfl⟩
  · refine owner_update ledger.reader thread _ state.claimed.length _ ?_ ?_
    · rw [pc]
      exact fun _ wrong => by cases wrong
    · rintro other ⟨⟩
  · refine (Function.forall_update_iff state.pc (PcOk layout _ _)).mpr ⟨?_, fun other self => ?_⟩
    · exact ⟨Function.update_self _ _ _, List.getElem?_concat_length⟩
    · have kept : ∀ {index : Nat} {old : Phase Thread}, phase index = old → old ≠ .free →
          Function.update phase state.claimed.length (.writing thread) index = old :=
        fun now needed => update_kept now (by rw [unclaimed]; exact needed)
      exact (ledger.threads other).mono ⟨[value], rfl⟩ le_rfl (fun _ now => kept now nofun)
        (fun _ now => kept now nofun) (fun _ now => kept now nofun)
        (fun _ now => Or.inl (kept now nofun)) (fun _ _ => rfl)
  · intro pair member
    obtain ⟨released, found⟩ := ledger.returned pair member
    exact ⟨update_kept released (by rw [unclaimed]; nofun), getElem?_append_of_some found⟩

/-- The claims of the other threads do not change while one thread moves on inside its own
claim. -/
theorem owner_kept {claim : Pc Value → Option Nat} {owner : Thread → Phase Thread}
    {pc : Thread → Pc Value}
    (owns : ∀ other index, phase index = owner other → claim (pc other) = some index)
    (thread : Thread) (new : Pc Value) (same : claim new = claim (pc thread)) :
    ∀ other index, phase index = owner other →
      claim (Function.update pc thread new other) = some index := by
  intro other index now
  by_cases self : other = thread
  · rw [self, Function.update_self, same]
    exact owns thread index (self ▸ now)
  · rw [Function.update_of_ne self]
    exact owns other index now

/-- A push copies its value into its slot. No other index that still needs its slot shares
it. -/
theorem pushCopy (ledger : Ledger layout state phase) (thread : Thread) (value : Value)
    (tail : Nat) (pc : state.pc thread = .pushCopyValue value tail) :
    Ledger layout
      ((state.setPc thread (.pushStoreVersion value tail)).setMemory
        { state.memory with
          value := Function.update state.memory.value (layout.slot tail) value }) phase := by
  have ok := ledger.threads thread
  rw [pc] at ok
  obtain ⟨writing, claimed⟩ := ok
  have apart : ∀ {index : Nat}, phase index ≠ .free → phase index ≠ .released →
      index ≠ tail → layout.slot index ≠ layout.slot tail := fun needed unreleased different same =>
    different (ledger.slot_injective needed unreleased (by rw [writing]; nofun)
      (by rw [writing]; nofun) same)
  refine
    { tail := ledger.tail, head := ledger.head, won := ledger.won, free := ledger.free,
      popped := ledger.popped, overwritten := ledger.overwritten, version := ledger.version,
      fresh := ledger.fresh, stored := ?_, writer := ?_, reader := ?_, threads := ?_,
      returned := ledger.returned, distinct := ledger.distinct }
  · intro index holds
    have different : index ≠ tail := by
      rintro rfl
      rw [writing] at holds
      exact holds
    have needed : phase index ≠ .free := fun now => by rw [now] at holds; exact holds
    have unreleased : phase index ≠ .released := fun now => by rw [now] at holds; exact holds
    show _ = some (Function.update state.memory.value (layout.slot tail) value (layout.slot index))
    rw [Function.update_of_ne (apart needed unreleased different)]
    exact ledger.stored index holds
  · exact owner_kept ledger.writer thread _ (by rw [pc]; rfl)
  · exact owner_kept ledger.reader thread _ (by rw [pc]; rfl)
  · refine (Function.forall_update_iff state.pc (PcOk layout _ _)).mpr ⟨?_, fun other self => ?_⟩
    · exact ⟨writing, claimed, Function.update_self _ _ _⟩
    · refine (ledger.threads other).mono ⟨[], (List.append_nil _).symm⟩ le_rfl (fun _ => id)
        (fun _ => id) (fun _ => id) (fun _ => Or.inl) fun index owns => ?_
      have different : index ≠ tail := by
        rintro rfl
        rw [writing] at owns
        exact self (Phase.writing.inj owns).symm
      exact Function.update_of_ne
        (apart (by rw [owns]; nofun) (by rw [owns]; nofun) different) _ _

/-- A push stores the version: its index becomes ready. -/
theorem pushPublish (ledger : Ledger layout state phase) (thread : Thread) (value : Value)
    (tail : Nat) (few : state.claimed.length < 2 ^ layout.width)
    (pc : state.pc thread = .pushStoreVersion value tail) :
    Ledger layout
      ((state.setPc thread (.pushReturned true)).setMemory
        { state.memory with
          version := Function.update state.memory.version (layout.slot tail)
            (layout.wrap (tail + 1)) })
      (Function.update phase tail .ready) := by
  have ok := ledger.threads thread
  rw [pc] at ok
  obtain ⟨writing, claimed, stored⟩ := ok
  have needed : phase tail ≠ .free := by rw [writing]; nofun
  have unreleased : phase tail ≠ .released := by rw [writing]; nofun
  have latest := ledger.latest needed unreleased
  refine
    { tail := ledger.tail, head := ledger.head, won := ledger.won, free := ?_, popped := ?_,
      overwritten := ?_, version := ?_, fresh := ?_, stored := ?_, writer := ?_, reader := ?_,
      threads := ?_, returned := ?_, distinct := ledger.distinct }
  · exact ledger.free_update needed nofun
  · exact ledger.popped_update (by rw [writing]; exact Iff.rfl)
  · exact ledger.overwritten_update latest.2 _
  · intro index
    exact ledger.version_update tail latest.1 latest.2 .ready _
      (Layout.wrap_of_lt (show tail + 1 < 2 ^ layout.width by omega)) index
  · exact ledger.fresh_update tail latest.1 _
  · intro index holds
    by_cases same : index = tail
    · rw [same]
      exact claimed.trans (congrArg some stored.symm)
    · rw [Function.update_of_ne same] at holds
      exact ledger.stored index holds
  · refine owner_update ledger.writer thread _ tail _ ?_ nofun
    rw [pc]
    exact fun _ now => (Option.some.inj now).symm
  · refine owner_update ledger.reader thread _ tail _ ?_ nofun
    rw [pc]
    exact nofun
  · refine (Function.forall_update_iff state.pc (PcOk layout _ _)).mpr ⟨?_, fun other self => ?_⟩
    · trivial
    · have kept : ∀ {index : Nat} {old : Phase Thread}, phase index = old →
          old ≠ .writing thread → Function.update phase tail .ready index = old :=
        fun now different => update_kept now (by rw [writing]; exact different)
      exact (ledger.threads other).mono ⟨[], (List.append_nil _).symm⟩ le_rfl
        (fun _ now => kept now (fun same => self (Phase.writing.inj same)))
        (fun _ now => kept now nofun) (fun _ now => kept now nofun)
        (fun _ now => Or.inl (kept now nofun)) (fun _ _ => rfl)
  · exact ledger.returned_update unreleased _

/-- A pop wins its compare-exchange: the oldest ready index goes to reading. -/
theorem popWin (ledger : Ledger layout state phase) (thread : Thread)
    (few : state.claimed.length < 2 ^ layout.width)
    (pc : state.pc thread = .popCompareExchange state.won.length) :
    Ledger layout
      { (state.setPc thread (.popCopyValue state.won.length)).setMemory
          { state.memory with head := layout.wrap (state.won.length + 1) } with
          won := state.won ++ [state.won.length] }
      (Function.update phase state.won.length (.reading thread)) := by
  have ready : phase state.won.length = .ready := by
    have ok := ledger.threads thread
    rw [pc] at ok
    rcases ok with behind | ready
    · exact absurd behind (lt_irrefl _)
    · exact ready
  have needed : phase state.won.length ≠ .free := by rw [ready]; nofun
  have unreleased : phase state.won.length ≠ .released := by rw [ready]; nofun
  have latest := ledger.latest needed unreleased
  have length : (state.won ++ [state.won.length]).length = state.won.length + 1 :=
    List.length_append
  refine
    { tail := ledger.tail, head := ?_, won := ?_, free := ?_, popped := ?_, overwritten := ?_,
      version := ?_, fresh := ledger.fresh, stored := ?_, writer := ?_, reader := ?_,
      threads := ?_, returned := ?_, distinct := ledger.distinct }
  · refine (Layout.wrap_of_lt ?_).trans length.symm
    omega
  · show state.won ++ [state.won.length] = List.range (state.won ++ [state.won.length]).length
    rw [length, List.range_succ, ← ledger.won]
  · exact ledger.free_update needed nofun
  · intro index
    show _ ↔ index < (state.won ++ [state.won.length]).length
    rw [length]
    by_cases same : index = state.won.length
    · rw [same, Function.update_self]
      exact ⟨fun _ => Nat.lt_succ_self _, fun _ => trivial⟩
    · rw [Function.update_of_ne same, ledger.popped]
      omega
  · exact ledger.overwritten_update latest.2 _
  · intro index claimed window
    by_cases same : index = state.won.length
    · have version := ledger.version _ latest.1 latest.2
      rw [ready] at version
      rw [same, Function.update_self]
      exact version
    · rw [Function.update_of_ne same]
      exact ledger.version index claimed window
  · intro index holds
    by_cases same : index = state.won.length
    · rw [same]
      exact ledger.stored state.won.length (by rw [ready]; trivial)
    · rw [Function.update_of_ne same] at holds
      exact ledger.stored index holds
  · refine owner_update ledger.writer thread _ state.won.length _ ?_ nofun
    rw [pc]
    exact nofun
  · refine owner_update ledger.reader thread _ state.won.length _ ?_ ?_
    · rw [pc]
      exact nofun
    · rintro other ⟨⟩
      exact ⟨rfl, rfl⟩
  · refine (Function.forall_update_iff state.pc (PcOk layout _ _)).mpr ⟨?_, fun other self => ?_⟩
    · exact Function.update_self _ _ _
    · have kept : ∀ {index : Nat} {old : Phase Thread}, phase index = old → old ≠ .ready →
          Function.update phase state.won.length (.reading thread) index = old :=
        fun now different => update_kept now (by rw [ready]; exact different)
      refine (ledger.threads other).mono ⟨[], (List.append_nil _).symm⟩ ?_
        (fun _ now => kept now nofun) (fun _ now => kept now nofun) (fun _ now => kept now nofun)
        (fun index now => ?_) (fun _ _ => rfl)
      · show _ ≤ (state.won ++ [state.won.length]).length
        omega
      · show _ ∨ index < (state.won ++ [state.won.length]).length
        by_cases same : index = state.won.length
        · exact Or.inr (by omega)
        · exact Or.inl (by rw [Function.update_of_ne same, now])
  · exact ledger.returned_update unreleased _

/-- A pop copies the value out of its slot. -/
theorem popCopy (ledger : Ledger layout state phase) (thread : Thread) (head : Nat)
    (pc : state.pc thread = .popCopyValue head) :
    Ledger layout
      (state.setPc thread (.popStoreVersion head (state.memory.value (layout.slot head))))
      phase := by
  have reading : phase head = .reading thread := by
    have ok := ledger.threads thread
    rwa [pc] at ok
  refine
    { tail := ledger.tail, head := ledger.head, won := ledger.won, free := ledger.free,
      popped := ledger.popped, overwritten := ledger.overwritten, version := ledger.version,
      fresh := ledger.fresh, stored := ledger.stored, writer := ?_, reader := ?_, threads := ?_,
      returned := ledger.returned, distinct := ledger.distinct }
  · exact owner_kept ledger.writer thread _ (by rw [pc]; rfl)
  · exact owner_kept ledger.reader thread _ (by rw [pc]; rfl)
  · refine (Function.forall_update_iff state.pc (PcOk layout _ _)).mpr ⟨?_, fun other self => ?_⟩
    · exact ⟨reading, ledger.stored head (by rw [reading]; trivial)⟩
    · exact (PcOk.setPc_iff layout state phase thread other _ _).mpr (ledger.threads other)

/-- A pop stores the version of the next round: its index is released. -/
theorem popRelease (ledger : Ledger layout state phase) (thread : Thread) (head : Nat)
    (out : Value) (pc : state.pc thread = .popStoreVersion head out) :
    Ledger layout
      { (state.setPc thread (.popReturned (some out))).setMemory
          { state.memory with
            version := Function.update state.memory.version (layout.slot head)
              (layout.wrap (head + layout.capacity)) } with
          returned := state.returned ++ [(head, out)] }
      (Function.update phase head .released) := by
  have ok := ledger.threads thread
  rw [pc] at ok
  obtain ⟨reading, found⟩ := ok
  have needed : phase head ≠ .free := by rw [reading]; nofun
  have unreleased : phase head ≠ .released := by rw [reading]; nofun
  have latest := ledger.latest needed unreleased
  refine
    { tail := ledger.tail, head := ledger.head, won := ledger.won, free := ?_, popped := ?_,
      overwritten := ?_, version := ?_, fresh := ?_, stored := ?_, writer := ?_, reader := ?_,
      threads := ?_, returned := ?_, distinct := ?_ }
  · exact ledger.free_update needed nofun
  · exact ledger.popped_update (by rw [reading]; exact Iff.rfl)
  · exact ledger.overwritten_update latest.2 _
  · exact ledger.version_update head latest.1 latest.2 .released _ rfl
  · exact ledger.fresh_update head latest.1 _
  · intro index holds
    by_cases same : index = head
    · rw [same, Function.update_self] at holds
      exact holds.elim
    · rw [Function.update_of_ne same] at holds
      exact ledger.stored index holds
  · refine owner_update ledger.writer thread _ head _ ?_ nofun
    rw [pc]
    exact nofun
  · refine owner_update ledger.reader thread _ head _ ?_ nofun
    rw [pc]
    exact fun _ now => (Option.some.inj now).symm
  · refine (Function.forall_update_iff state.pc (PcOk layout _ _)).mpr ⟨?_, fun other self => ?_⟩
    · trivial
    · have kept : ∀ {index : Nat} {old : Phase Thread}, phase index = old →
          old ≠ .reading thread → Function.update phase head .released index = old :=
        fun now different => update_kept now (by rw [reading]; exact different)
      exact (ledger.threads other).mono ⟨[], (List.append_nil _).symm⟩ le_rfl
        (fun _ now => kept now nofun)
        (fun _ now => kept now (fun same => self (Phase.reading.inj same)))
        (fun _ now => kept now nofun) (fun _ now => Or.inl (kept now nofun)) (fun _ _ => rfl)
  · intro pair member
    rcases List.mem_append.mp member with old | new
    · exact ledger.returned_update unreleased _ pair old
    · rw [List.mem_singleton] at new
      rw [new]
      exact ⟨Function.update_self _ _ _, found⟩
  · show ((state.returned ++ [(head, out)]).map Prod.fst).Nodup
    rw [List.map_append, List.nodup_append']
    refine ⟨ledger.distinct, List.nodup_singleton _, ?_⟩
    intro index old new
    obtain ⟨pair, member, rfl⟩ := List.mem_map.mp old
    have released := (ledger.returned pair member).1
    rw [List.mem_singleton.mp new] at released
    exact unreleased released

end Ledger

end BrokerProxy.Limero
