/-
This file holds the bytes, the error numbers and the messages that the parts of the system
pass to each other.
-/

import Mathlib.Data.List.TakeWhile

namespace BrokerProxy

/-- `std::vector<uint8_t>`, also the model of `std::string`, whose characters are bytes. -/
abbrev Bytes := List UInt8

/-- What a C string pointer to the bytes gives: the bytes before the first NUL. -/
def cString (bytes : Bytes) : Bytes := bytes.takeWhile (· ≠ 0)

/-- Without a NUL byte nothing is lost. -/
theorem cString_of_no_nul {bytes : Bytes} (noNul : 0 ∉ bytes) : cString bytes = bytes := by
  refine List.takeWhile_eq_self_iff.mpr fun byte member => ?_
  exact decide_eq_true fun same => noNul (same ▸ member)

/-- With a NUL byte something is lost. -/
theorem cString_eq_iff {bytes : Bytes} : cString bytes = bytes ↔ 0 ∉ bytes := by
  refine ⟨fun same member => ?_, cString_of_no_nul⟩
  exact of_decide_eq_true (List.takeWhile_eq_self_iff.mp same 0 member) rfl

/-- An error number, which is positive. -/
structure Errno where
  code : Nat
  code_pos : 0 < code
deriving DecidableEq

namespace Errno

/-- `EAGAIN`, which is also `EWOULDBLOCK`. -/
def again : Errno := ⟨11, by decide⟩

def notConnected : Errno := ⟨107, by decide⟩

end Errno

/-- A message on a topic. -/
structure PubMsg where
  topic : Bytes
  payload : Bytes
deriving DecidableEq

/-- A subscription to a pattern. -/
structure SubMsg where
  pattern : Bytes
deriving DecidableEq

/-- The name of a node. -/
structure NodeMsg where
  node : Bytes
deriving DecidableEq

end BrokerProxy
