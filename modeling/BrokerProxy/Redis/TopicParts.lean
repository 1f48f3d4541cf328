/-
This file models `split`, and the three programs that take a topic apart with it: two that
index messages, and the callback of `brain` that labels time series. Each of them reads
`parts[1]`, `parts[2]` and `parts[3]` of whatever `split` returns, where an access outside
the vector is undefined and the model has no result.

`split` returns one part more than the string has separators, so the accesses are within
bounds exactly where the topic has three slashes, and any Redis client can choose a topic
that has fewer.
-/

import BrokerProxy.Library.Framing
import BrokerProxy.Redis.ReplyStream

namespace BrokerProxy.Redis

open Framing

/-! ### Splitting a string -/

/-- `std::string::find`, from a position on. -/
def find (s : Bytes) (separator : UInt8) (pos : Nat) : Option Nat :=
  ((s.drop pos).idxOf? separator).map (pos + ·)

/-- `std::string::substr`. -/
def substr (s : Bytes) (pos count : Nat) : Bytes := (s.drop pos).take count

theorem find_lt {s : Bytes} {separator : UInt8} {pos found : Nat}
    (isFound : find s separator pos = some found) : pos ≤ found ∧ found < s.length := by
  obtain ⟨offset, located, rfl⟩ := Option.map_eq_some_iff.mp isFound
  obtain ⟨inside, -⟩ := List.idxOf?_eq_some_iff.mp located
  rw [List.length_drop] at inside
  omega

/-- The first separator cuts what is left of the string. -/
theorem find_cuts {s : Bytes} {separator : UInt8} {pos found : Nat}
    (isFound : find s separator pos = some found) :
    separator ∉ substr s pos (found - pos) ∧
      s.drop pos = substr s pos (found - pos) ++ separator :: s.drop (found + 1) := by
  obtain ⟨offset, located, rfl⟩ := Option.map_eq_some_iff.mp isFound
  obtain ⟨inside, here, before⟩ := List.idxOf?_eq_some_iff.mp located
  rw [substr, Nat.add_sub_cancel_left]
  constructor
  · intro member
    obtain ⟨index, small, same⟩ := List.mem_iff_getElem.mp member
    rw [List.getElem_take] at same
    exact before index (by rw [List.length_take] at small; omega) same
  · have rest : (s.drop pos).drop offset = separator :: s.drop (pos + offset + 1) := by
      rw [List.drop_eq_getElem_cons inside, here, List.drop_drop]
      rfl
    rw [← rest, List.take_append_drop]

/-- The loop of `split`. At its last turn `pos` is `npos`, and the last word reaches to the end. -/
def splitLoop (s : Bytes) (separator : UInt8) (output : List Bytes) (prevPos pos : Nat) :
    List Bytes :=
  match isFound : find s separator pos with
  | some found =>
      splitLoop s separator (output ++ [substr s prevPos (found - prevPos)]) (found + 1) (found + 1)
  | none => output ++ [s.drop prevPos]
termination_by s.length - pos
decreasing_by
  have bounds := find_lt isFound
  omega

/-- `split`. -/
def split (s : Bytes) (separator : UInt8) : List Bytes := splitLoop s separator [] 0 0

/-- The loop cuts what is left of the string at its separators. -/
theorem splitLoop_eq (s : Bytes) (separator : UInt8) (output : List Bytes) (pos : Nat) :
    splitLoop s separator output pos pos =
      output ++ ((segments separator [] (s.drop pos)).1 ++
        [(segments separator [] (s.drop pos)).2]) := by
  rw [splitLoop]
  split
  · rename_i found isFound
    have bounds := find_lt isFound
    obtain ⟨free, parts⟩ := find_cuts isFound
    rw [splitLoop_eq s separator _ (found + 1), List.append_assoc]
    conv_rhs => rw [parts, segments_append_of_notMem separator _ _ [] free, List.nil_append,
      segments, if_pos rfl]
    rfl
  · rename_i missing
    have free : separator ∉ s.drop pos :=
      List.idxOf?_eq_none_iff.mp (Option.map_eq_none_iff.mp missing)
    have plain := segments_append_of_notMem separator (s.drop pos) [] [] free
    rw [List.append_nil, List.nil_append] at plain
    rw [plain]
    rfl
termination_by s.length - pos

/-- There is one part more than there are separators. -/
theorem length_split (s : Bytes) (separator : UInt8) :
    (split s separator).length = s.count separator + 1 := by
  rw [split, splitLoop_eq, List.nil_append, List.length_append, length_segments, List.drop_zero,
    List.length_singleton]

/-- Two parts are what a string with one separator has before and after it. -/
theorem split_eq_pair_iff {s first second : Bytes} {separator : UInt8} :
    split s separator = [first, second] ↔
      s = first ++ separator :: second ∧ separator ∉ first ∧ separator ∉ second := by
  have cut : ∀ before after : Bytes, separator ∉ before → separator ∉ after →
      split (before ++ separator :: after) separator = [before, after] := by
    intro before after free others
    have plain := segments_append_of_notMem separator after [] [] others
    rw [List.append_nil, List.nil_append] at plain
    rw [split, splitLoop_eq, List.drop_zero, List.nil_append,
      segments_append_of_notMem separator before _ [] free, List.nil_append, segments, if_pos rfl,
      plain]
    rfl
  constructor
  · intro parts
    have lengths := congrArg List.length parts
    rw [length_split, List.length_cons, List.length_singleton] at lengths
    have member : separator ∈ s := List.count_pos_iff.mp (by omega)
    obtain ⟨before, after, rfl, free⟩ := List.eq_append_cons_of_mem member
    rw [List.count_append, List.count_cons_self, List.count_eq_zero_of_not_mem free] at lengths
    have others : separator ∉ after := List.count_eq_zero.mp (by omega)
    rw [cut before after free others] at parts
    cases parts
    exact ⟨rfl, free, others⟩
  · rintro ⟨rfl, free, others⟩
    exact cut first second free others

/-! ### The parts of a topic -/

/-- The character `/`. -/
def slash : UInt8 := 0x2F

/-- What the programs take from a topic. -/
structure TopicParts where
  node : Bytes
  object : Bytes
  property : Bytes
deriving DecidableEq

/-- The accesses `parts[1]`, `parts[2]` and `parts[3]`, undefined outside the vector. -/
def topicParts (topic : Bytes) : Option TopicParts :=
  let parts := split topic slash
  match parts[1]?, parts[2]?, parts[3]? with
  | some node, some object, some property =>
      some { node := node, object := object, property := property }
  | _, _, _ => none

/-- The accesses are within bounds exactly where the topic has three slashes. -/
theorem topicParts_isSome_iff (topic : Bytes) :
    (topicParts topic).isSome = true ↔ 3 ≤ topic.count slash := by
  have length := length_split topic slash
  unfold topicParts
  dsimp only
  constructor
  · intro defined
    split at defined
    · rename_i third
      obtain ⟨inside, -⟩ := List.getElem?_eq_some_iff.mp third
      omega
    · cases defined
  · intro three
    rw [List.getElem?_eq_getElem (by omega : 1 < (split topic slash).length),
      List.getElem?_eq_getElem (by omega : 2 < (split topic slash).length),
      List.getElem?_eq_getElem (by omega : 3 < (split topic slash).length)]
    rfl

/-! ### The programs -/

/-- The callback of `redis2elastic` on a message: what it takes from the topic. -/
def Redis2elastic.incoming (msg : PubMsg) : Option TopicParts := topicParts msg.topic

/-- The callback of `redis-elastic`, which does the same. -/
def RedisElastic.incoming (msg : PubMsg) : Option TopicParts := topicParts msg.topic

/-- The callback of `brain` on the keys that the server has returned, each a C string: the keys that
start with `ts:`, and what it takes from each of them for the `ts.alter` command. -/
def Brain.keysCallback : List Bytes → Option (List (Bytes × TopicParts))
  | [] => some []
  | str :: rest =>
      let key := cString str
      if ascii "ts:" <+: key then
        (topicParts key).bind fun parts =>
          (Brain.keysCallback rest).map fun others => (key, parts) :: others
      else Brain.keysCallback rest

theorem keysCallback_isSome_iff (keys : List Bytes) :
    (Brain.keysCallback keys).isSome = true ↔
      ∀ key ∈ keys, ascii "ts:" <+: cString key → 3 ≤ (cString key).count slash := by
  induction keys with
  | nil => exact ⟨fun _ => nofun, fun _ => rfl⟩
  | cons str rest inductionHypothesis =>
    rw [List.forall_mem_cons, ← inductionHypothesis, ← topicParts_isSome_iff, Brain.keysCallback]
    split
    · rename_i series
      rw [forall_prop_of_true series]
      cases topicParts (cString str) with
      | none => exact ⟨nofun, fun both => nomatch both.1⟩
      | some parts =>
        rw [Option.bind_some, Option.isSome_map]
        exact ⟨fun others => ⟨rfl, others⟩, fun both => both.2⟩
    · rename_i other
      exact ⟨fun others => ⟨fun series => absurd series other, others⟩, fun both => both.2⟩

/-- For every reply that the server can put on the subscribe connection and all keys that it can
return, the programs stay within the bounds of the parts exactly where the topic and each of the
keys that start with `ts:` have three slashes before their first NUL byte. -/
theorem parts_within_bounds_iff (reply : ServerReply) (keys : List Bytes) :
    ((∀ msg, readInvoker reply.reply = some msg → (Redis2elastic.incoming msg).isSome = true) ↔
        ∀ msg, reply.message = some msg → 3 ≤ (cString msg.topic).count slash) ∧
      ((∀ msg, readInvoker reply.reply = some msg → (RedisElastic.incoming msg).isSome = true) ↔
        ∀ msg, reply.message = some msg → 3 ≤ (cString msg.topic).count slash) ∧
      ((Brain.keysCallback keys).isSome = true ↔
        ∀ key ∈ keys, ascii "ts:" <+: cString key → 3 ≤ (cString key).count slash) := by
  have delivered : (∀ msg, readInvoker reply.reply = some msg →
      (topicParts msg.topic).isSome = true) ↔
        ∀ msg, reply.message = some msg → 3 ≤ (cString msg.topic).count slash := by
    rw [readInvoker_reply]
    constructor
    · intro within msg published
      exact (topicParts_isSome_iff _).mp (within _ (by rw [published, Option.map_some]))
    · intro three msg passed
      obtain ⟨message, published, rfl⟩ := Option.map_eq_some_iff.mp passed
      exact (topicParts_isSome_iff _).mpr (three message published)
  exact ⟨delivered, delivered, keysCallback_isSome_iff keys⟩

/-- A message on a topic without slashes, and a key without slashes, are read beyond the parts. -/
theorem parts_out_of_bounds :
    readInvoker (ServerReply.pmessage (ascii "*") (ascii "alive") []).reply =
        some { topic := ascii "alive", payload := [] } ∧
      Redis2elastic.incoming { topic := ascii "alive", payload := [] } = none ∧
      RedisElastic.incoming { topic := ascii "alive", payload := [] } = none ∧
      Brain.keysCallback [ascii "ts:alive"] = none := by
  have short : topicParts (ascii "alive") = none := by
    refine Option.not_isSome_iff_eq_none.mp fun defined => ?_
    exact absurd ((topicParts_isSome_iff _).mp defined) (by decide +kernel)
  refine ⟨(readInvoker_reply _).trans (by decide +kernel), short, short, ?_⟩
  refine Option.not_isSome_iff_eq_none.mp fun defined => ?_
  have three := (keysCallback_isSome_iff _).mp defined _ List.mem_cons_self (by decide +kernel)
  exact absurd three (by decide +kernel)

end BrokerProxy.Redis
