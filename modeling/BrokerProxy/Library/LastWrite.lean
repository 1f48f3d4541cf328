/-
This file says what a store shows that keeps the last content written under each key. The
messages that are written arrive one after the other; each has a key, and may have no
content, in which case it changes nothing.

A key shows the content of the last message with that key which has one. So it does not
depend on the messages with other keys, nor on how the messages with different keys
follow each other.
-/

import Mathlib.Data.List.Basic

namespace LastWrite

variable {Key Message Content : Type} [DecidableEq Key] (key : Message → Key)
  (content : Message → Option Content)

/-- What is under a key after a list of messages, given what was there before. -/
def shown (before : Key → Option Content) (messages : List Message) (place : Key) :
    Option Content :=
  ((messages.filter fun message => key message = place).filterMap content).getLast?.or
    (before place)

variable {key content} {before : Key → Option Content}

theorem shown_nil (place : Key) : shown key content before [] place = before place := rfl

/-- One more message. -/
theorem shown_concat (messages : List Message) (message : Message) (place : Key) :
    shown key content before (messages ++ [message]) place =
      if key message = place then
        (content message).or (shown key content before messages place)
      else shown key content before messages place := by
  unfold shown
  rw [List.filter_append, List.filterMap_append, List.getLast?_append]
  by_cases same : key message = place
  · rw [if_pos same, List.filter_cons, if_pos (decide_eq_true same), List.filter_nil]
    cases written : content message with
    | none =>
      rw [List.filterMap_cons_none written]
      rfl
    | some value =>
      rw [List.filterMap_cons_some written]
      rfl
  · rw [if_neg same, List.filter_cons, if_neg (by rw [decide_eq_false same]; exact nofun)]
    rfl

/-- Only the messages with the key matter. -/
theorem shown_congr {first second : List Message} {place : Key}
    (same : (first.filter fun message => key message = place) =
      second.filter fun message => key message = place) :
    shown key content before first place = shown key content before second place := by
  unfold shown
  rw [same]

/-- Messages that are left out do not matter if none of them has the key. -/
theorem shown_filter {keeps : Message → Bool} {place : Key}
    (kept : ∀ message, key message = place → keeps message = true) (messages : List Message) :
    shown key content before (messages.filter keeps) place =
      shown key content before messages place := by
  refine shown_congr ?_
  rw [List.filter_filter]
  refine List.filter_congr fun message _ => ?_
  by_cases same : key message = place
  · rw [decide_eq_true same, kept message same]
    rfl
  · rw [decide_eq_false same]
    rfl

/-- Without a message with the key nothing changes. -/
theorem shown_of_absent {messages : List Message} {place : Key}
    (absent : ∀ message ∈ messages, key message ≠ place) :
    shown key content before messages place = before place := by
  have nothing : (messages.filter fun message => key message = place) = [] := by
    refine List.filter_eq_nil_iff.mpr fun message member => ?_
    rw [decide_eq_false (absent message member)]
    exact nofun
  unfold shown
  rw [nothing]
  rfl

/-- The last message with the key that has a content decides. -/
theorem shown_of_last {messages earlier later : List Message} {message : Message} {value : Content}
    (split : messages = earlier ++ message :: later) (written : content message = some value)
    (last : ∀ other ∈ later, key other ≠ key message) :
    shown key content before messages (key message) = some value := by
  have others : (later.filter fun other => key other = key message) = [] := by
    refine List.filter_eq_nil_iff.mpr fun other member => ?_
    rw [decide_eq_false (last other member)]
    exact nofun
  unfold shown
  rw [split, List.filter_append, List.filter_cons, if_pos (decide_eq_true rfl), others,
    List.filterMap_append, List.filterMap_cons_some written, List.filterMap_nil,
    List.getLast?_concat]
  rfl

end LastWrite
