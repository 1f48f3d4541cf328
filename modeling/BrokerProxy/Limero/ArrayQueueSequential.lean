/-
This file models the lock-free `ArrayQueue` when its calls do not overlap: then the
compare-exchange of a call never fails, and `push` and `pop` are functions on the shared
memory. Running the accesses of one call on an otherwise idle queue gives these functions.

A window describes what the memory holds in terms of an unbounded head index: the
positions from there on hold the stored values with the versions that make them
readable, the remaining positions of one revolution have the versions that make them
writable. Both calls keep it as long as reducing an index to `INDEX_TYPE` keeps its
position in the array. That is so at every index exactly when the capacity divides two
to the width; otherwise the queue stops being a queue once an index has wrapped.
-/

import BrokerProxy.Library.Fifo
import BrokerProxy.Library.Serving
import BrokerProxy.Limero.ArrayQueue
import Mathlib.Data.Nat.ModEq

namespace BrokerProxy.Limero

open Runs Serving

variable {Thread Value : Type}

namespace Memory

/-- `push` with no other call under way. -/
def push (layout : Layout) (memory : Memory Value) (value : Value) : Bool × Memory Value :=
  if memory.version (layout.slot memory.tail) ≠ memory.tail then (false, memory)
  else
    (true,
      { memory with
        tail := layout.wrap (memory.tail + 1)
        value := Function.update memory.value (layout.slot memory.tail) value
        version := Function.update memory.version (layout.slot memory.tail)
          (layout.wrap (memory.tail + 1)) })

/-- `pop` with no other call under way. -/
def pop (layout : Layout) (memory : Memory Value) : Option Value × Memory Value :=
  if memory.version (layout.slot memory.head) ≠ layout.wrap (memory.head + 1) then (none, memory)
  else
    (some (memory.value (layout.slot memory.head)),
      { memory with
        head := layout.wrap (memory.head + 1)
        version := Function.update memory.version (layout.slot memory.head)
          (layout.wrap (memory.head + layout.capacity)) })

/-- `size`: the difference of the indices. -/
def size (layout : Layout) (memory : Memory Value) : Nat :=
  layout.wrap (memory.tail + 2 ^ layout.width - memory.head)

/-- The values stored, oldest first. -/
def contents (layout : Layout) (memory : Memory Value) : List Value :=
  (List.range (memory.size layout)).map fun place =>
    memory.value (layout.slot (layout.wrap (memory.head + place)))

/-- One call on the queue. -/
def serve (layout : Layout) (memory : Memory Value) :
    Fifo.Call Value → Fifo.Answer Value × Memory Value
  | .push value => (.pushed (memory.push layout value).1, (memory.push layout value).2)
  | .pop => (.popped (memory.pop layout).1, (memory.pop layout).2)

end Memory

/-! ### The accesses of one call -/

/-- The labels of a `push` that no other call overlaps. -/
def pushCall (thread : Thread) (value : Value) (accepted : Bool) :
    List (QueueLabel Thread Value) :=
  .push thread value :: List.replicate (if accepted then 5 else 2) (.advance thread)

/-- The labels of a `pop` that no other call overlaps. -/
def popCall (thread : Thread) (found : Bool) : List (QueueLabel Thread Value) :=
  .pop thread :: List.replicate (if found then 5 else 2) (.advance thread)

/-- The accesses of a `push`, made one after the other, change the memory and answer as the
function does. -/
theorem run_pushCall [DecidableEq Thread] (layout : Layout) (state : QueueState Thread Value)
    (thread : Thread) (value : Value) (idle : state.pc thread = .idle) :
    ∃ final, (queueMachine Thread Value layout).run state
        (pushCall thread value (state.memory.push layout value).1) = some final ∧
      final.memory = (state.memory.push layout value).2 ∧
      final.pc = Function.update state.pc thread
        (.pushReturned (state.memory.push layout value).1) := by
  by_cases fresh : state.memory.version (layout.slot state.memory.tail) = state.memory.tail
  · have accepted : (state.memory.push layout value).1 = true := by
      rw [Memory.push, if_neg (not_not.mpr fresh)]
    refine ⟨{ state with
      memory := (state.memory.push layout value).2
      pc := Function.update state.pc thread (.pushReturned true)
      claimed := state.claimed ++ [value] }, ?_, rfl, by rw [accepted]⟩
    rw [accepted, Memory.push, if_neg (not_not.mpr fresh)]
    simp [pushCall, Machine.run, queueMachine, queueStep, advance, QueueState.setPc,
      QueueState.setMemory, idle, fresh]
  · have refused : state.memory.push layout value = (false, state.memory) := if_pos fresh
    rw [refused]
    refine ⟨state.setPc thread (.pushReturned false), ?_, rfl, rfl⟩
    simp [pushCall, Machine.run, queueMachine, queueStep, advance, QueueState.setPc, idle, fresh]

/-- The accesses of a `pop`, made one after the other, change the memory and answer as the
function does. -/
theorem run_popCall [DecidableEq Thread] (layout : Layout) (state : QueueState Thread Value)
    (thread : Thread) (idle : state.pc thread = .idle) :
    ∃ final, (queueMachine Thread Value layout).run state
        (popCall thread (state.memory.pop layout).1.isSome) = some final ∧
      final.memory = (state.memory.pop layout).2 ∧
      final.pc = Function.update state.pc thread (.popReturned (state.memory.pop layout).1) := by
  by_cases fresh : state.memory.version (layout.slot state.memory.head) =
      layout.wrap (state.memory.head + 1)
  · have found : state.memory.pop layout =
        (some (state.memory.value (layout.slot state.memory.head)),
          (state.memory.pop layout).2) := by
      rw [Memory.pop, if_neg (not_not.mpr fresh)]
    rw [found]
    refine ⟨{ state with
      memory := (state.memory.pop layout).2
      pc := Function.update state.pc thread
        (.popReturned (some (state.memory.value (layout.slot state.memory.head))))
      won := state.won ++ [state.memory.head]
      returned := state.returned ++ [(state.memory.head,
        state.memory.value (layout.slot state.memory.head))] }, ?_, rfl, rfl⟩
    rw [Memory.pop, if_neg (not_not.mpr fresh)]
    simp [popCall, Machine.run, queueMachine, queueStep, advance, QueueState.setPc,
      QueueState.setMemory, idle, fresh]
  · have nothing : state.memory.pop layout = (none, state.memory) := if_pos fresh
    rw [nothing]
    refine ⟨state.setPc thread (.popReturned none), ?_, rfl, rfl⟩
    simp [popCall, Machine.run, queueMachine, queueStep, advance, QueueState.setPc, idle, fresh]

/-! ### Indices and positions -/

namespace Layout

theorem capacity_pos (layout : Layout) : 0 < layout.capacity :=
  Nat.lt_of_lt_of_le Nat.zero_lt_two layout.two_le_capacity

/-- Two indices of one revolution are at different positions. -/
theorem slot_add_ne (layout : Layout) (start : Nat) {first second : Nat}
    (firstSmall : first < layout.capacity) (secondSmall : second < layout.capacity)
    (different : first ≠ second) : layout.slot (start + first) ≠ layout.slot (start + second) :=
  fun same => different
    (Nat.ModEq.eq_of_lt_of_lt (Nat.ModEq.add_left_cancel' start same) firstSmall secondSmall)

/-- Two indices less than two to the width apart are different when reduced. -/
theorem wrap_ne (layout : Layout) {first second : Nat} (before : first < second)
    (near : second < first + 2 ^ layout.width) : layout.wrap second ≠ layout.wrap first := by
  intro same
  have divides := (Nat.modEq_iff_dvd' (Nat.le_of_lt before)).mp same.symm
  have far := Nat.le_of_dvd (Nat.sub_pos_of_lt before) divides
  omega

theorem one_lt_range (layout : Layout) : 1 < 2 ^ layout.width :=
  Nat.one_lt_two_pow (Nat.pos_iff_ne_zero.mp layout.width_pos)

/-- An index whose reduction to `INDEX_TYPE` is at the index's own position. -/
def Aligned (layout : Layout) (index : Nat) : Prop :=
  layout.slot (layout.wrap index) = layout.slot index

theorem aligned_of_dvd (layout : Layout) (divides : layout.capacity ∣ 2 ^ layout.width)
    (index : Nat) : layout.Aligned index := Nat.mod_mod_of_dvd index divides

theorem aligned_of_lt (layout : Layout) {index : Nat} (small : index < 2 ^ layout.width) :
    layout.Aligned index := by
  rw [Aligned, Layout.wrap_of_lt small]

end Layout

/-! ### What the memory holds -/

/-- The memory holds the given values from an unbounded head index on. -/
structure Window (layout : Layout) (memory : Memory Value) (start : Nat) (items : List Value) :
    Prop where
  head_eq : memory.head = layout.wrap start
  tail_eq : memory.tail = layout.wrap (start + items.length)
  fits : items.length ≤ layout.capacity
  stored : ∀ place value, items[place]? = some value →
    memory.version (layout.slot (start + place)) = layout.wrap (start + place + 1) ∧
      memory.value (layout.slot (start + place)) = value
  writable : ∀ place, items.length ≤ place → place < layout.capacity →
    memory.version (layout.slot (start + place)) = layout.wrap (start + place)

namespace Window

variable {layout : Layout} {memory : Memory Value} {start : Nat} {items : List Value}

/-- The constructor leaves a window without values at index zero. -/
theorem constructed (layout : Layout) (value : Nat → Value) :
    Window layout (Memory.constructed layout value) 0 [] where
  head_eq := (Nat.zero_mod _).symm
  tail_eq := (Nat.zero_mod _).symm
  fits := Nat.zero_le _
  stored place value read := by rw [List.getElem?_nil] at read; cases read
  writable place _ small := by
    rw [Nat.zero_add, Layout.slot_of_lt small]
    rfl

/-- The position at which `push` looks is writable exactly when a place is left. -/
theorem writable_iff (window : Window layout memory start items)
    (aligned : layout.Aligned (start + items.length))
    (covered : items.length = layout.capacity → layout.capacity ≤ 2 ^ layout.width) :
    memory.version (layout.slot memory.tail) = memory.tail ↔ items.length < layout.capacity := by
  have two := layout.two_le_capacity
  rw [window.tail_eq, aligned]
  constructor
  · intro fresh
    refine lt_of_le_of_ne window.fits fun full => ?_
    have nonempty : 0 < items.length := by omega
    have read : items[0]? = some items[0] := List.getElem?_eq_getElem nonempty
    have revolution : layout.slot (start + items.length) = layout.slot (start + 0) := by
      rw [full, layout.slot_add_capacity, Nat.add_zero]
    rw [revolution, (window.stored 0 _ read).1, full] at fresh
    have small := covered full
    exact layout.wrap_ne (by omega) (by omega) fresh.symm
  · exact window.writable _ (Nat.le_refl _)

/-- The position at which `pop` looks is readable exactly when a value is stored. -/
theorem readable_iff (window : Window layout memory start items)
    (aligned : layout.Aligned start) :
    memory.version (layout.slot memory.head) = layout.wrap (memory.head + 1) ↔ items ≠ [] := by
  rw [window.head_eq, aligned, layout.wrap_wrap_add]
  cases items with
  | nil =>
    have old := window.writable 0 (Nat.le_refl _) layout.capacity_pos
    have range := layout.one_lt_range
    rw [Nat.add_zero] at old
    rw [old]
    exact iff_of_false (layout.wrap_ne (Nat.lt_succ_self _) (by omega)).symm
      (not_not.mpr rfl)
  | cons oldest rest =>
    exact iff_of_true (window.stored 0 oldest rfl).1 (List.cons_ne_nil _ _)

/-- A push into a window with a place left appends the value. -/
theorem push_of_lt (window : Window layout memory start items)
    (aligned : layout.Aligned (start + items.length)) (room : items.length < layout.capacity)
    (value : Value) :
    (memory.push layout value).1 = true ∧
      Window layout (memory.push layout value).2 start (items ++ [value]) := by
  have fresh := (window.writable_iff aligned fun full => absurd full (by omega)).mpr room
  rw [Memory.push, if_neg (not_not.mpr fresh), window.tail_eq, aligned, layout.wrap_wrap_add]
  have length : (items ++ [value]).length = items.length + 1 := List.length_append
  have other : ∀ place, place ≠ items.length → place < layout.capacity →
      layout.slot (start + place) ≠ layout.slot (start + items.length) :=
    fun place different small => layout.slot_add_ne start small room different
  refine ⟨rfl, window.head_eq, ?_, by omega, fun place stored read => ?_,
    fun place beyond small => ?_⟩
  · rw [length]
    rfl
  · rcases Nat.lt_or_ge place items.length with old | new
    · rw [List.getElem?_append_left old] at read
      have different := other place (Nat.ne_of_lt old) (old.trans room)
      obtain ⟨version, held⟩ := window.stored place stored read
      exact ⟨(Function.update_of_ne different _ _).trans version,
        (Function.update_of_ne different _ _).trans held⟩
    · have inside := (List.getElem?_eq_some_iff.mp read).1
      obtain rfl : place = items.length := by omega
      rw [List.getElem?_append_right (Nat.le_refl _), Nat.sub_self] at read
      exact ⟨Function.update_self _ _ _,
        (Function.update_self _ _ _).trans (Option.some_inj.mp read)⟩
  · rw [length] at beyond
    show Function.update memory.version _ _ _ = _
    rw [Function.update_of_ne (other place (by omega) small)]
    exact window.writable place (by omega) small

/-- A push into a window without a place left is refused. -/
theorem push_of_full (window : Window layout memory start items)
    (aligned : layout.Aligned (start + items.length))
    (covered : layout.capacity ≤ 2 ^ layout.width) (full : ¬ items.length < layout.capacity)
    (value : Value) : memory.push layout value = (false, memory) :=
  if_pos fun fresh => full ((window.writable_iff aligned fun _ => covered).mp fresh)

/-- A pop from a window with a value takes the oldest one. -/
theorem pop_of_cons {oldest : Value} {rest : List Value}
    (window : Window layout memory start (oldest :: rest)) (aligned : layout.Aligned start) :
    (memory.pop layout).1 = some oldest ∧
      Window layout (memory.pop layout).2 (start + 1) rest := by
  have fresh := (window.readable_iff aligned).mpr (List.cons_ne_nil _ _)
  have other : ∀ place, place + 1 < layout.capacity →
      layout.slot (start + (place + 1)) ≠ layout.slot start := fun place inside =>
    layout.slot_add_ne start inside layout.capacity_pos (Nat.succ_ne_zero place)
  have fits : rest.length + 1 ≤ layout.capacity := window.fits
  rw [Memory.pop, if_neg (not_not.mpr fresh), window.head_eq, aligned, layout.wrap_wrap_add,
    layout.wrap_wrap_add]
  refine ⟨congrArg some (window.stored 0 oldest rfl).2, rfl, ?_, by omega,
    fun place stored read => ?_, fun place beyond small => ?_⟩
  · rw [window.tail_eq, List.length_cons, Nat.add_right_comm, Nat.add_assoc]
  · have inside := (List.getElem?_eq_some_iff.mp read).1
    obtain ⟨version, held⟩ := window.stored (place + 1) stored read
    rw [Nat.add_right_comm start 1 place, Nat.add_assoc start place 1]
    exact ⟨(Function.update_of_ne (other place (by omega)) _ _).trans version, held⟩
  · show Function.update memory.version _ _ _ = _
    rcases Nat.lt_or_ge (place + 1) layout.capacity with inside | last
    · rw [Nat.add_right_comm start 1 place, Nat.add_assoc start place 1,
        Function.update_of_ne (other place inside)]
      exact window.writable (place + 1) (by rw [List.length_cons]; omega) inside
    · have whole : start + 1 + place = start + layout.capacity := by omega
      rw [whole, layout.slot_add_capacity, Function.update_self]

/-- A pop from a window without a value fails. -/
theorem pop_of_nil (window : Window layout memory start []) (aligned : layout.Aligned start) :
    memory.pop layout = (none, memory) :=
  if_pos fun fresh => (window.readable_iff aligned).mp fresh rfl

/-- The difference of the indices is the number of values stored, while no index has wrapped. -/
theorem size_eq (window : Window layout memory start items)
    (small : start + items.length < 2 ^ layout.width) : memory.size layout = items.length := by
  have startSmall : start < 2 ^ layout.width := by omega
  rw [Memory.size, window.tail_eq, window.head_eq, Layout.wrap_of_lt small,
    Layout.wrap_of_lt startSmall, show start + items.length + 2 ^ layout.width - start =
      items.length + 2 ^ layout.width by omega, Layout.wrap, Nat.add_mod_right,
    Nat.mod_eq_of_lt (by omega)]

/-- The values of the window are those the indices delimit, while no index has wrapped. -/
theorem contents_eq (window : Window layout memory start items)
    (small : start + items.length < 2 ^ layout.width) : memory.contents layout = items := by
  refine List.ext_getElem? fun place => ?_
  rw [Memory.contents, window.size_eq small, List.getElem?_map]
  by_cases inside : place < items.length
  · have aligned : layout.Aligned (start + place) := layout.aligned_of_lt (by omega)
    have held := (window.stored place _ (List.getElem?_eq_getElem inside)).2
    rw [List.getElem?_range inside, List.getElem?_eq_getElem inside, Option.map_some,
      window.head_eq, layout.wrap_wrap_add, aligned, held]
  · rw [List.getElem?_eq_none (Nat.le_of_not_lt inside),
      List.getElem?_eq_none (by rw [List.length_range]; exact Nat.le_of_not_lt inside)]
    rfl

/-- A call on a window that the indices in use are aligned with is the call on the bounded
queue, and the tail index grows by one at most. -/
theorem serve (window : Window layout memory start items) (headAligned : layout.Aligned start)
    (tailAligned : layout.Aligned (start + items.length))
    (covered : items.length = layout.capacity → layout.capacity ≤ 2 ^ layout.width)
    (call : Fifo.Call Value) :
    (memory.serve layout call).1 = (Fifo.serve layout.capacity items call).1 ∧
      ∃ next, Window layout (memory.serve layout call).2 next
          (Fifo.serve layout.capacity items call).2 ∧
        next + (Fifo.serve layout.capacity items call).2.length ≤ start + items.length + 1 := by
  cases call with
  | push value =>
    rw [Memory.serve, Fifo.serve]
    by_cases room : items.length < layout.capacity
    · obtain ⟨accepted, grown⟩ := window.push_of_lt tailAligned room value
      rw [Fifo.push_of_lt room, accepted]
      exact ⟨rfl, start, grown, by rw [List.length_append]; rfl⟩
    · have full : items.length = layout.capacity := Nat.le_antisymm window.fits (by omega)
      rw [Fifo.push_of_not_lt room, window.push_of_full tailAligned (covered full) room]
      exact ⟨rfl, start, window, Nat.le_succ _⟩
  | pop =>
    cases items with
    | nil =>
      rw [Memory.serve, Fifo.serve, window.pop_of_nil headAligned]
      exact ⟨rfl, start, window, Nat.le_succ _⟩
    | cons oldest rest =>
      obtain ⟨found, shrunk⟩ := window.pop_of_cons headAligned
      rw [Memory.serve, Fifo.serve, found]
      refine ⟨rfl, start + 1, shrunk, ?_⟩
      show start + 1 + rest.length ≤ start + (rest.length + 1) + 1
      omega

end Window

/-! ### Whole runs -/

/-- When the capacity divides two to the width, every sequence of calls is answered as by the
bounded queue. -/
theorem answers_eq_of_dvd (layout : Layout) (divides : layout.capacity ∣ 2 ^ layout.width)
    (value : Nat → Value) (calls : List (Fifo.Call Value)) :
    answers (Memory.serve layout) (Memory.constructed layout value) calls =
      answers (Fifo.serve layout.capacity) [] calls := by
  refine answers_eq (fun _ memory items => ∃ start, Window layout memory start items) ?_ calls
    ⟨0, Window.constructed layout value⟩
  rintro memory items call rest ⟨start, window⟩
  obtain ⟨same, next, kept, -⟩ := window.serve (layout.aligned_of_dvd divides _)
    (layout.aligned_of_dvd divides _) (fun _ => Nat.le_of_dvd (Nat.two_pow_pos _) divides) call
  exact ⟨same, next, kept⟩

/-- A push and a pop, a number of times. -/
def pairs (value : Value) : Nat → List (Fifo.Call Value)
  | 0 => []
  | count + 1 => pairs value count ++ [.push value, .pop]

/-- As long as no index has wrapped, every push is taken out by the pop after it. -/
theorem window_after_pairs (layout : Layout) (initial : Nat → Value) (value : Value) {count : Nat}
    (small : count ≤ 2 ^ layout.width) :
    Window layout (after (Memory.serve layout) (Memory.constructed layout initial)
      (pairs value count)) count [] := by
  induction count with
  | zero => exact Window.constructed layout initial
  | succ count inductionHypothesis =>
    have aligned := layout.aligned_of_lt (Nat.lt_of_succ_le small)
    rw [pairs, after, List.foldl_append]
    have before := inductionHypothesis (Nat.le_of_succ_le small)
    have pushed := (before.push_of_lt aligned layout.capacity_pos value).2
    exact (pushed.pop_of_cons aligned).2

theorem fifo_after_pairs (places : Nat) (room : 0 < places) (value : Value) (count : Nat) :
    after (Fifo.serve places) [] (pairs value count) = [] := by
  induction count with
  | zero => rfl
  | succ count inductionHypothesis =>
    rw [after] at inductionHypothesis
    rw [pairs, after, List.foldl_append, inductionHypothesis]
    show (Fifo.pop (Fifo.push places [] value).2).2 = []
    rw [Fifo.push_of_lt room]
    rfl

/-- As long as no index has wrapped and a place is left, the pushes are stored. -/
theorem window_after_pushes (layout : Layout) (initial : Nat → Value) (value : Value)
    {count : Nat} (small : count ≤ 2 ^ layout.width) (fits : count ≤ layout.capacity) :
    Window layout (after (Memory.serve layout) (Memory.constructed layout initial)
      (List.replicate count (.push value))) 0 (List.replicate count value) := by
  induction count with
  | zero => exact Window.constructed layout initial
  | succ count inductionHypothesis =>
    have before := inductionHypothesis (Nat.le_of_succ_le small) (Nat.le_of_succ_le fits)
    have length : (List.replicate count value).length = count := List.length_replicate
    rw [List.replicate_succ', List.replicate_succ', after, List.foldl_append]
    refine (before.push_of_lt ?_ ?_ value).2
    · rw [length, Nat.zero_add]
      exact layout.aligned_of_lt (Nat.lt_of_succ_le small)
    · rw [length]
      exact fits

theorem fifo_after_pushes (places : Nat) (value : Value) {count : Nat} (fits : count ≤ places) :
    after (Fifo.serve places) [] (List.replicate count (.push value)) =
      List.replicate count value := by
  induction count with
  | zero => rfl
  | succ count inductionHypothesis =>
    have before := inductionHypothesis (Nat.le_of_succ_le fits)
    rw [after] at before
    rw [List.replicate_succ', List.replicate_succ', after, List.foldl_append, before]
    show (Fifo.push places _ value).2 = _
    rw [Fifo.push_of_lt (by rw [List.length_replicate]; exact fits)]

/-- When the capacity is below two to the width and does not divide it, then after as many
pairs as there are indices the empty queue refuses a push. -/
theorem push_after_pairs (layout : Layout) (initial : Nat → Value) (value : Value)
    (small : layout.capacity < 2 ^ layout.width)
    (notDivides : ¬ layout.capacity ∣ 2 ^ layout.width) :
    ((after (Memory.serve layout) (Memory.constructed layout initial)
      (pairs value (2 ^ layout.width))).push layout value).1 = false := by
  have window := window_after_pairs layout initial value (Nat.le_refl (2 ^ layout.width))
  have residue : 2 ^ layout.width % layout.capacity ≠ 0 := fun zero =>
    notDivides (Nat.dvd_of_mod_eq_zero zero)
  have below := Nat.mod_lt (2 ^ layout.width) layout.capacity_pos
  -- the index that wraps onto position zero is that many places behind the head
  have place := window.writable (layout.capacity - 2 ^ layout.width % layout.capacity)
    (Nat.zero_le _) (by omega)
  have zero : layout.slot (2 ^ layout.width +
      (layout.capacity - 2 ^ layout.width % layout.capacity)) = 0 := by
    have whole := Nat.div_add_mod (2 ^ layout.width) layout.capacity
    rw [Layout.slot, show 2 ^ layout.width +
        (layout.capacity - 2 ^ layout.width % layout.capacity) =
        layout.capacity * (2 ^ layout.width / layout.capacity + 1) by
      rw [Nat.mul_add_one]
      omega, Nat.mul_mod_right]
  have wrapped : layout.wrap (2 ^ layout.width +
      (layout.capacity - 2 ^ layout.width % layout.capacity)) =
      layout.capacity - 2 ^ layout.width % layout.capacity := by
    rw [Layout.wrap, Nat.add_mod_left, Nat.mod_eq_of_lt (by omega)]
  have tail : (after (Memory.serve layout) (Memory.constructed layout initial)
      (pairs value (2 ^ layout.width))).tail = 0 := by
    rw [window.tail_eq, Layout.wrap]
    exact Nat.mod_self _
  rw [zero, wrapped] at place
  rw [Memory.push, tail, Layout.slot, Nat.zero_mod, if_pos]
  rw [place]
  omega

/-- Then it answers unlike the bounded queue. -/
theorem answers_pairs_ne (layout : Layout) (initial : Nat → Value) (value : Value)
    (small : layout.capacity < 2 ^ layout.width)
    (notDivides : ¬ layout.capacity ∣ 2 ^ layout.width) :
    answers (Memory.serve layout) (Memory.constructed layout initial)
        (pairs value (2 ^ layout.width) ++ [.push value]) ≠
      answers (Fifo.serve layout.capacity) []
        (pairs value (2 ^ layout.width) ++ [.push value]) := by
  intro same
  have last := last_answer_eq same
  rw [Memory.serve, push_after_pairs layout _ _ small notDivides,
    fifo_after_pairs _ layout.capacity_pos, Fifo.serve,
    Fifo.push_of_lt layout.capacity_pos] at last
  cases last

/-- When the capacity is above two to the width, the queue refuses a push before it is full. -/
theorem push_after_pushes (layout : Layout) (initial : Nat → Value) (value : Value)
    (large : 2 ^ layout.width < layout.capacity) :
    ((after (Memory.serve layout) (Memory.constructed layout initial)
      (List.replicate (2 ^ layout.width) (.push value))).push layout value).1 = false := by
  have window := window_after_pushes layout initial value (Nat.le_refl (2 ^ layout.width))
    (Nat.le_of_lt large)
  have range := layout.one_lt_range
  have place := (window.stored 0 value (by
    rw [List.getElem?_replicate, if_pos (Nat.two_pow_pos _)])).1
  have tail : (after (Memory.serve layout) (Memory.constructed layout initial)
      (List.replicate (2 ^ layout.width) (.push value))).tail = 0 := by
    rw [window.tail_eq, List.length_replicate, Nat.zero_add, Layout.wrap, Nat.mod_self]
  rw [Layout.slot, Nat.zero_add, Nat.zero_mod, Layout.wrap_of_lt range] at place
  rw [Memory.push, tail, Layout.slot, Nat.zero_mod, if_pos]
  rw [place]
  exact Nat.one_ne_zero

/-- The lock-free queue answers every sequence of calls that do not overlap as the bounded
queue of its capacity does if and only if the capacity divides two to the width of its
indices. -/
theorem sequential_fifo_iff [Inhabited Value] (layout : Layout) :
    (∀ (value : Nat → Value) (calls : List (Fifo.Call Value)),
      answers (Memory.serve layout) (Memory.constructed layout value) calls =
        answers (Fifo.serve layout.capacity) [] calls) ↔
      layout.capacity ∣ 2 ^ layout.width := by
  constructor
  · intro agree
    by_contra notDivides
    have different : layout.capacity ≠ 2 ^ layout.width := fun same => notDivides (by rw [same])
    rcases Nat.lt_or_gt_of_ne different with small | large
    · exact answers_pairs_ne layout (fun _ => default) default small notDivides (agree _ _)
    · have last := last_answer_eq (agree (fun _ => default)
        (List.replicate (2 ^ layout.width) (.push default) ++ [.push default]))
      rw [Memory.serve, push_after_pushes layout _ _ large,
        fifo_after_pushes _ _ (Nat.le_of_lt large), Fifo.serve,
        Fifo.push_of_lt (by rw [List.length_replicate]; exact large)] at last
      cases last
  · exact fun divides value calls => answers_eq_of_dvd layout divides value calls

/-- The width of an index on Linux. -/
theorem linux_width_pos : 0 < 64 := by decide

/-- A queue of ten places, as every flow of a serial session has, on the builds with 64-bit
indices. -/
def tenPlaces : Layout where
  capacity := 10
  width := 64
  two_le_capacity := by decide
  width_pos := linux_width_pos

/-- The width of an index on the embedded builds. -/
theorem embedded_width_pos : 0 < 32 := by decide

/-- The same queue on the builds with 32-bit indices. -/
def tenPlacesEmbedded : Layout where
  capacity := 10
  width := 32
  two_le_capacity := by decide
  width_pos := embedded_width_pos

/-- After 2^32 pushes, each taken out by the next pop, that queue refuses a push although it is
empty, and with 64-bit indices after 2^64. -/
theorem tenPlaces_refuses :
    answers (Memory.serve tenPlacesEmbedded) (Memory.constructed tenPlacesEmbedded fun _ => 0)
        (pairs 7 (2 ^ tenPlacesEmbedded.width) ++ [.push 7]) ≠
      answers (Fifo.serve tenPlacesEmbedded.capacity) []
        (pairs 7 (2 ^ tenPlacesEmbedded.width) ++ [.push 7]) ∧
    answers (Memory.serve tenPlaces) (Memory.constructed tenPlaces fun _ => 0)
        (pairs 7 (2 ^ tenPlaces.width) ++ [.push 7]) ≠
      answers (Fifo.serve tenPlaces.capacity) [] (pairs 7 (2 ^ tenPlaces.width) ++ [.push 7]) :=
  ⟨answers_pairs_ne tenPlacesEmbedded _ 7 (by decide) (by decide),
    answers_pairs_ne tenPlaces _ 7 (by decide) (by decide)⟩

end BrokerProxy.Limero
