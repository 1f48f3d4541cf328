/-
This file proves that `split` undoes joining. The loop is modelled once more with its
positions as the 64-bit numbers that they are: `find` answers `npos` where there is no
further separator, the post-increment moves both positions behind the separator, the count
of the last part is `npos` less a position, and `substr` throws behind the end. For every
string that memory can hold it ends, after one turn for each part, without throwing, and
returns what `split` does.
-/

import BrokerProxy.Redis.TopicParts

namespace BrokerProxy.Redis

open Framing

/-! ### The loop with its positions -/

/-- `std::string::npos`. -/
def npos : UInt64 := 0xFFFFFFFFFFFFFFFF

/-- The position that `std::string::find` returns. -/
def findPos (s : Bytes) (separator : UInt8) (pos : UInt64) : UInt64 :=
  match find s separator pos.toNat with
  | some found => UInt64.ofNat found
  | none => npos

/-- `std::string::substr`, which throws behind the end. -/
def substrAt (s : Bytes) (pos count : UInt64) : Option Bytes :=
  if pos.toNat ≤ s.length then some (substr s pos.toNat count.toNat) else none

/-- The variables of `split`. -/
structure Splitting where
  output : List Bytes
  prevPos : UInt64
  pos : UInt64

/-- The condition of the loop and what follows it: the next turn, or the end, with what is returned
unless it throws. -/
def splitTurn (s : Bytes) (separator : UInt8) (state : Splitting) :
    Splitting ⊕ Option (List Bytes) :=
  let pos := findPos s separator state.pos
  if pos ≠ npos then
    match substrAt s state.prevPos (pos - state.prevPos) with
    | some substring =>
        .inl { output := state.output ++ [substring], prevPos := pos + 1, pos := pos + 1 }
    | none => .inr none
  else
    .inr ((substrAt s state.prevPos (pos - state.prevPos)).map fun word => state.output ++ [word])

/-- `split` with a bound on the turns of its loop: nothing if it has not ended by then. -/
def splitTurns (s : Bytes) (separator : UInt8) : Nat → Splitting → Option (Option (List Bytes))
  | 0, _ => none
  | turns + 1, state =>
      match splitTurn s separator state with
      | .inl next => splitTurns s separator turns next
      | .inr result => some result

/-! ### One turn -/

variable {s : Bytes} {separator : UInt8}

theorem toNat_ofNat_of_lt_npos {number : Nat} (small : number < npos.toNat) :
    (UInt64.ofNat number).toNat = number :=
  UInt64.toNat_ofNat_of_lt' (small.trans npos.toNat_lt)

/-- A turn that finds a separator cuts the part before it. -/
theorem splitTurn_of_find (fits : s.length < npos.toNat) {output : List Bytes} {pos : UInt64}
    {found : Nat} (isFound : find s separator pos.toNat = some found) :
    splitTurn s separator { output := output, prevPos := pos, pos := pos } =
      .inl
        { output := output ++ [substr s pos.toNat (found - pos.toNat)]
          prevPos := UInt64.ofNat (found + 1)
          pos := UInt64.ofNat (found + 1) } := by
  have bounds := find_lt isFound
  have position : (UInt64.ofNat found).toNat = found := toNat_ofNat_of_lt_npos (by omega)
  have here : UInt64.ofNat found ≠ npos := by
    intro same
    have equal := congrArg UInt64.toNat same
    rw [position] at equal
    omega
  have count : (UInt64.ofNat found - pos).toNat = found - pos.toNat := by
    rw [UInt64.toNat_sub_of_le _ _ (UInt64.le_iff_toNat_le.mpr (by rw [position]; omega)), position]
  unfold splitTurn findPos substrAt
  simp only [isFound]
  rw [if_pos here, if_pos (by omega), count, UInt64.ofNat_add]
  rfl

/-- The turn that finds none returns with the rest of the string as the last part. -/
theorem splitTurn_of_missing (fits : s.length < npos.toNat) {output : List Bytes} {pos : UInt64}
    (inside : pos.toNat ≤ s.length) (missing : find s separator pos.toNat = none) :
    splitTurn s separator { output := output, prevPos := pos, pos := pos } =
      .inr (some (output ++ [s.drop pos.toNat])) := by
  have count : (npos - pos).toNat = npos.toNat - pos.toNat :=
    UInt64.toNat_sub_of_le _ _ (UInt64.le_iff_toNat_le.mpr (by omega))
  have rest : substr s pos.toNat (npos.toNat - pos.toNat) = s.drop pos.toNat := by
    refine List.take_of_length_le ?_
    rw [List.length_drop]
    omega
  unfold splitTurn findPos substrAt
  simp only [missing]
  rw [if_neg (not_not.mpr rfl), if_pos inside, count, rest]
  rfl

/-- A separator that is found is the first of those that are left. -/
theorem count_drop_of_find {pos found : Nat} (isFound : find s separator pos = some found) :
    (s.drop pos).count separator = (s.drop (found + 1)).count separator + 1 := by
  obtain ⟨free, parts⟩ := find_cuts isFound
  rw [parts, List.count_append, List.count_eq_zero_of_not_mem free, List.count_cons_self,
    Nat.zero_add]

theorem splitLoop_of_find {output : List Bytes} {prevPos pos found : Nat}
    (isFound : find s separator pos = some found) :
    splitLoop s separator output prevPos pos =
      splitLoop s separator (output ++ [substr s prevPos (found - prevPos)]) (found + 1)
        (found + 1) := by
  rw [splitLoop]
  split
  · rename_i other isOther
    rw [Option.some.inj (isFound.symm.trans isOther)]
  · rename_i missing
    cases isFound.symm.trans missing

theorem splitLoop_of_missing {output : List Bytes} {prevPos pos : Nat}
    (missing : find s separator pos = none) :
    splitLoop s separator output prevPos pos = output ++ [s.drop prevPos] := by
  rw [splitLoop]
  split
  · rename_i found isFound
    cases isFound.symm.trans missing
  · rfl

/-! ### The whole loop -/

/-- The loop ends after one turn for each part that is left, with what `split` makes of them. -/
theorem splitTurns_eq (fits : s.length < npos.toNat) (turns : Nat) :
    ∀ (output : List Bytes) (pos : UInt64), pos.toNat ≤ s.length →
      splitTurns s separator turns { output := output, prevPos := pos, pos := pos } =
        if (s.drop pos.toNat).count separator < turns then
          some (some (splitLoop s separator output pos.toNat pos.toNat))
        else none := by
  induction turns with
  | zero => exact fun _ _ _ => rfl
  | succ turns inductionHypothesis =>
    intro output pos inside
    rw [splitTurns]
    cases isFound : find s separator pos.toNat with
    | some found =>
      have bounds := find_lt isFound
      have after : (UInt64.ofNat (found + 1)).toNat = found + 1 :=
        toNat_ofNat_of_lt_npos (by omega)
      have rest := inductionHypothesis (output ++ [substr s pos.toNat (found - pos.toNat)])
        (UInt64.ofNat (found + 1)) (by rw [after]; omega)
      rw [after] at rest
      rw [splitTurn_of_find fits isFound, splitLoop_of_find isFound, count_drop_of_find isFound]
      exact rest.trans (if_congr Nat.add_lt_add_iff_right.symm rfl rfl)
    | none =>
      have none := List.idxOf?_eq_none_iff.mp (Option.map_eq_none_iff.mp isFound)
      rw [splitTurn_of_missing fits inside isFound, splitLoop_of_missing isFound,
        List.count_eq_zero_of_not_mem none, if_pos (Nat.succ_pos turns)]

/-! ### Joining -/

/-- The parts are those that `List.splitOn` gives. -/
theorem split_eq_splitOn (s : Bytes) (separator : UInt8) :
    split s separator = s.splitOn separator := by
  rw [split, splitLoop_eq, List.nil_append, List.drop_zero, segments_eq_splitOn,
    show (([] : Bytes) ++ ·) = id from funext List.nil_append, List.modifyHead_id]
  rfl

/-- No part contains the separator. -/
theorem notMem_of_mem_split {part : Bytes} (member : part ∈ split s separator) :
    separator ∉ part := by
  obtain ⟨ended, left⟩ := segments_free separator s List.not_mem_nil
  rw [split, splitLoop_eq, List.nil_append, List.drop_zero] at member
  rcases List.mem_append.mp member with among | last
  · exact ended part among
  · rw [List.mem_singleton.mp last]
    exact left

/-- `split` ends for every string that memory can hold, after one turn for each part; there is one
part more than there are separators, none contains the separator, and joined with it they are
the string. -/
theorem split_join (s : Bytes) (separator : UInt8) :
    (s.length < npos.toNat → ∀ turns,
      splitTurns s separator turns { output := [], prevPos := 0, pos := 0 } =
        if s.count separator < turns then some (some (split s separator)) else none) ∧
      (split s separator).length = s.count separator + 1 ∧
      (∀ part ∈ split s separator, separator ∉ part) ∧
      [separator].intercalate (split s separator) = s := by
  refine ⟨fun fits turns => ?_, length_split s separator, fun part => notMem_of_mem_split, ?_⟩
  · exact splitTurns_eq fits turns [] 0 (Nat.zero_le _)
  · rw [split_eq_splitOn, List.intercalate_splitOn]

/-- A topic with an empty part in front, one in the middle and one at the end. -/
theorem split_join_empty_parts :
    splitTurns [0x2F, 0x61, 0x2F, 0x2F] slash 4 { output := [], prevPos := 0, pos := 0 } =
      some (some (split [0x2F, 0x61, 0x2F, 0x2F] slash)) :=
  ((split_join [0x2F, 0x61, 0x2F, 0x2F] slash).1 (by decide) 4).trans (if_pos (by decide))

example : splitTurns [0x2F, 0x61, 0x2F, 0x2F] slash 4 { output := [], prevPos := 0, pos := 0 } =
    some (some [[], [0x61], [], []]) := by decide

end BrokerProxy.Redis
