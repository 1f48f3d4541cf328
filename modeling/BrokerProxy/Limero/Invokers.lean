/-
This file models the callbacks that a Linux thread keeps for file descriptors: the maps
`_readInvokers` and `_errorInvokers`, what adds to them and deletes from them, and the
descriptor sets that `buildFdSet` makes of them.

A map has at most one entry for a descriptor, and counts the entries that were ever inserted
into it or erased from it, so that a traversal during which the count stays the same has met
the map as it was at its start.
-/

import Mathlib.Data.List.Perm.Basic
import Mathlib.Data.List.Nodup

namespace BrokerProxy.Limero

/-! ### One map -/

/-- A map from descriptors to callbacks, and how often it has changed. -/
structure InvokerMap (Callback : Type) where
  entries : List (Int × Callback)
  unique : (entries.map Prod.fst).Nodup
  changes : Nat

namespace InvokerMap

variable {Callback : Type}

/-- The map of a new thread. -/
def empty : InvokerMap Callback where
  entries := []
  unique := List.nodup_nil
  changes := 0

/-- The descriptors that have a callback. -/
def fds (map : InvokerMap Callback) : List Int := map.entries.map Prod.fst

/-- The descriptors that have a given callback. -/
def fdsOf [DecidableEq Callback] (map : InvokerMap Callback) (callback : Callback) : List Int :=
  (map.entries.filter (·.2 = callback)).map Prod.fst

/-- `emplace`: an entry that is there already stays. -/
def emplace (map : InvokerMap Callback) (fd : Int) (callback : Callback) : InvokerMap Callback :=
  if absent : fd ∈ map.fds then map
  else
    { entries := (fd, callback) :: map.entries
      unique := List.nodup_cons.mpr ⟨absent, map.unique⟩
      changes := map.changes + 1 }

/-- `find` and `erase`. -/
def erase (map : InvokerMap Callback) (fd : Int) : InvokerMap Callback :=
  if fd ∈ map.fds then
    { entries := map.entries.filter (·.1 ≠ fd)
      unique := map.unique.sublist (List.filter_sublist.map Prod.fst)
      changes := map.changes + 1 }
  else map

theorem emplace_of_mem {map : InvokerMap Callback} {fd : Int} (present : fd ∈ map.fds)
    (callback : Callback) : map.emplace fd callback = map := dif_pos present

theorem fds_emplace (map : InvokerMap Callback) (fd : Int) (callback : Callback) :
    (map.emplace fd callback).fds = if fd ∈ map.fds then map.fds else fd :: map.fds := by
  unfold emplace
  split <;> rfl

theorem erase_of_not_mem {map : InvokerMap Callback} {fd : Int} (absent : fd ∉ map.fds) :
    map.erase fd = map := if_neg absent

theorem mem_emplace {map : InvokerMap Callback} {fd : Int} {callback : Callback}
    {entry : Int × Callback} : entry ∈ (map.emplace fd callback).entries ↔
      entry ∈ map.entries ∨ (fd ∉ map.fds ∧ entry = (fd, callback)) := by
  unfold emplace
  split
  · rename_i present
    exact (or_iff_left fun both => both.1 present).symm
  · rename_i absent
    rw [List.mem_cons, or_comm, and_iff_right absent]

theorem mem_erase {map : InvokerMap Callback} {fd : Int} {entry : Int × Callback} :
    entry ∈ (map.erase fd).entries ↔ entry ∈ map.entries ∧ entry.1 ≠ fd := by
  unfold erase
  split
  · exact List.mem_filter.trans (and_congr_right fun _ => decide_eq_true_iff)
  · rename_i absent
    refine (and_iff_left_of_imp fun member same => ?_).symm
    exact absent (same ▸ List.mem_map_of_mem member)

/-- A descriptor has one callback. -/
theorem callback_unique (map : InvokerMap Callback) {fd : Int} {first second : Callback}
    (one : (fd, first) ∈ map.entries) (other : (fd, second) ∈ map.entries) : first = second :=
  congrArg Prod.snd (List.inj_on_of_nodup_map map.unique one other rfl)

theorem fds_erase (map : InvokerMap Callback) (fd : Int) :
    (map.erase fd).fds = map.fds.filter (· ≠ fd) := by
  unfold erase
  split
  · show (map.entries.filter (·.1 ≠ fd)).map Prod.fst = (map.entries.map Prod.fst).filter (· ≠ fd)
    rw [List.filter_map]
    rfl
  · rename_i absent
    refine (List.filter_eq_self.mpr fun other member => ?_).symm
    exact decide_eq_true fun same => absent (same ▸ member)

section Owners

variable [DecidableEq Callback]

theorem mem_fdsOf {map : InvokerMap Callback} {fd : Int} {callback : Callback} :
    fd ∈ map.fdsOf callback ↔ (fd, callback) ∈ map.entries := by
  unfold fdsOf
  constructor
  · intro member
    obtain ⟨⟨other, owner⟩, kept, rfl⟩ := List.mem_map.mp member
    obtain ⟨present, same⟩ := List.mem_filter.mp kept
    cases of_decide_eq_true same
    exact present
  · exact fun present => List.mem_map.mpr
      ⟨(fd, callback), List.mem_filter.mpr ⟨present, decide_eq_true rfl⟩, rfl⟩

theorem fdsOf_emplace (map : InvokerMap Callback) (fd : Int) (callback : Callback) :
    (map.emplace fd callback).fdsOf callback =
      if fd ∈ map.fds then map.fdsOf callback else fd :: map.fdsOf callback := by
  unfold emplace
  split
  · rfl
  · show (((fd, callback) :: map.entries).filter (·.2 = callback)).map Prod.fst = _
    rw [List.filter_cons, if_pos (decide_eq_true rfl)]
    rfl

/-- A new entry changes nothing for the other callbacks. -/
theorem fdsOf_emplace_of_ne (map : InvokerMap Callback) (fd : Int) {callback other : Callback}
    (apart : other ≠ callback) : (map.emplace fd other).fdsOf callback = map.fdsOf callback := by
  unfold emplace
  split
  · rfl
  · show (((fd, other) :: map.entries).filter (·.2 = callback)).map Prod.fst = _
    rw [List.filter_cons, if_neg fun same => apart (of_decide_eq_true same)]
    rfl

theorem fdsOf_erase (map : InvokerMap Callback) (fd : Int) (callback : Callback) :
    (map.erase fd).fdsOf callback = (map.fdsOf callback).filter (· ≠ fd) := by
  unfold erase
  split
  · show ((map.entries.filter (·.1 ≠ fd)).filter (·.2 = callback)).map Prod.fst =
      ((map.entries.filter (·.2 = callback)).map Prod.fst).filter (· ≠ fd)
    rw [List.filter_map, List.filter_filter, List.filter_filter]
    refine congrArg (List.map Prod.fst) (List.filter_congr fun entry _ => ?_)
    exact Bool.and_comm _ _
  · rename_i absent
    refine (List.filter_eq_self.mpr fun other member => ?_).symm
    exact decide_eq_true fun same => absent (same ▸ List.mem_map_of_mem (mem_fdsOf.mp member))

/-- Erasing an entry changes nothing for the callbacks that it does not have. -/
theorem fdsOf_erase_of_not_mem {map : InvokerMap Callback} {fd : Int} {callback : Callback}
    (other : (fd, callback) ∉ map.entries) :
    (map.erase fd).fdsOf callback = map.fdsOf callback := by
  rw [fdsOf_erase]
  refine List.filter_eq_self.mpr fun kept member => ?_
  exact decide_eq_true fun same => other (same ▸ mem_fdsOf.mp member)

end Owners

/-- Only an entry that is new counts as a change. -/
theorem changes_emplace (map : InvokerMap Callback) (fd : Int) (callback : Callback) :
    map.changes ≤ (map.emplace fd callback).changes ∧
      ((map.emplace fd callback).changes = map.changes ↔ fd ∈ map.fds) := by
  unfold emplace
  split
  · rename_i present
    exact ⟨Nat.le_refl _, fun _ => present, fun _ => rfl⟩
  · rename_i absent
    exact ⟨Nat.le_succ _, fun same => absurd same (Nat.succ_ne_self _),
      fun present => absurd present absent⟩

/-- Only an entry that is there can be erased. -/
theorem changes_erase (map : InvokerMap Callback) (fd : Int) :
    map.changes ≤ (map.erase fd).changes ∧
      ((map.erase fd).changes = map.changes ↔ fd ∉ map.fds) := by
  unfold erase
  split
  · rename_i present
    exact ⟨Nat.le_succ _, fun same => absurd same (Nat.succ_ne_self _),
      fun absent => absurd present absent⟩
  · rename_i absent
    exact ⟨Nat.le_refl _, fun _ => absent, fun _ => rfl⟩

/-- An entry stands in a traversal of the map once. -/
theorem count_entry [DecidableEq Callback] (map : InvokerMap Callback)
    {entry : Int × Callback} (member : entry ∈ map.entries) : map.entries.count entry = 1 :=
  List.count_eq_one_of_mem (List.Nodup.of_map Prod.fst map.unique) member

end InvokerMap

/-! ### The maps of a thread -/

/-- `_readInvokers` and `_errorInvokers` of a `Thread`. -/
structure Invokers (Callback : Type) where
  read : InvokerMap Callback
  error : InvokerMap Callback

/-- The descriptors that `buildFdSet` passes to `FD_SET`, beside the pipe. -/
structure FdSets where
  read : List Int
  error : List Int
deriving DecidableEq

namespace Invokers

variable {Callback : Type}

/-- The maps of a new thread. -/
def empty : Invokers Callback where
  read := .empty
  error := .empty

/-- `buildFdSet`. -/
def buildFdSet (invokers : Invokers Callback) : FdSets where
  read := invokers.read.fds
  error := invokers.error.fds

/-- `addReadInvoker`, which ends with `buildFdSet`. -/
def addReadInvoker (invokers : Invokers Callback) (fd : Int) (callback : Callback) :
    Invokers Callback :=
  { invokers with read := invokers.read.emplace fd callback }

/-- `addErrorInvoker`, which ends with `buildFdSet`. -/
def addErrorInvoker (invokers : Invokers Callback) (fd : Int) (callback : Callback) :
    Invokers Callback :=
  { invokers with error := invokers.error.emplace fd callback }

/-- `deleteInvoker`, which ends with `buildFdSet`. -/
def deleteInvoker (invokers : Invokers Callback) (fd : Int) : Invokers Callback where
  read := invokers.read.erase fd
  error := invokers.error.erase fd

end Invokers

end BrokerProxy.Limero
