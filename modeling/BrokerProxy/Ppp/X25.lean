/-
This file compares the table-driven checksum with CRC-16/X-25 computed bit by bit: the
register starts with all bits set, each byte is added to its low end and shifted out one
bit at a time against the reflected polynomial, and the result is complemented.

Both ends of the link use one table, so a wrong entry would only weaken the detection of
errors. The 256 entries are right, and one write is eight single-bit steps whatever the
state.
-/

import BrokerProxy.Ppp.FcsDetection

namespace BrokerProxy.Ppp

/-! ### The checksum bit by bit -/

/-- One single-bit step: the polynomial is added where a one leaves the register. -/
def singleBit (register : UInt16) : UInt16 :=
  if register &&& 1 = 1 then (register >>> 1) ^^^ 0x8408 else register >>> 1

/-- Eight single-bit steps with a byte. -/
def eightBits (register : UInt16) (b : UInt8) : UInt16 := singleBit^[8] (register ^^^ b.toUInt16)

/-- CRC-16/X-25. -/
def x25 (bytes : Bytes) : UInt16 := ~~~(bytes.foldl eightBits 0xFFFF)

/-- The check value of CRC-16/X-25, which is that of the digits from 1 to 9. -/
example : x25 [0x31, 0x32, 0x33, 0x34, 0x35, 0x36, 0x37, 0x38, 0x39] = 0x906E := by
  decide +kernel

/-! ### Single-bit steps of a register -/

theorem and_one_eq_one_iff (register : UInt16) :
    register &&& 1 = 1 ↔ register.toBitVec.getLsbD 0 = true := by
  rw [← UInt16.toNat_inj, UInt16.toNat_and]
  show register.toNat &&& 1 = 1 ↔ register.toNat.testBit 0 = true
  rw [Nat.and_one_is_mod, Nat.testBit_zero, decide_eq_true_eq]

/-- A single-bit step is a step of the register without a message bit. -/
theorem toBitVec_singleBit (register : UInt16) :
    (singleBit register).toBitVec = Crc.step generator register.toBitVec false := by
  unfold singleBit Crc.step
  rw [Bool.xor_false]
  by_cases low : register.toBitVec.getLsbD 0 = true
  · rw [if_pos low, if_pos ((and_one_eq_one_iff register).mpr low), UInt16.toBitVec_xor,
      UInt16.toBitVec_shiftRight]
    rfl
  · rw [if_neg low, if_neg ((and_one_eq_one_iff register).not.mpr low),
      UInt16.toBitVec_shiftRight]
    rfl

theorem toBitVec_iterate_singleBit (count : Nat) : ∀ register : UInt16,
    (singleBit^[count] register).toBitVec =
      Crc.run generator register.toBitVec (List.replicate count false) := by
  induction count with
  | zero => exact fun _ => rfl
  | succ count inductionHypothesis =>
    intro register
    rw [Function.iterate_succ_apply, inductionHypothesis, toBitVec_singleBit]
    rfl

/-! ### The table -/

/-- One write is eight single-bit steps, for every state and byte. -/
theorem fcs_write (check : Fcs) (b : UInt8) : (check.write b).fcs = eightBits check.fcs b := by
  rw [← UInt16.toBitVec_inj, toBitVec_write, run_bitsOfByte, eightBits,
    toBitVec_iterate_singleBit, UInt16.toBitVec_xor, toBitVec_toUInt16_eq]

theorem fcs_writeAll (bytes : Bytes) : ∀ check : Fcs,
    (check.writeAll bytes).fcs = bytes.foldl eightBits check.fcs := by
  induction bytes with
  | nil => exact fun _ => rfl
  | cons b rest inductionHypothesis =>
    intro check
    rw [List.foldl_cons, ← fcs_write]
    exact inductionHypothesis (check.write b)

/-- The checksum of a word through the table is its CRC-16/X-25, and one write from any state is
eight single-bit steps. -/
theorem result_eq_x25 (bytes : Bytes) :
    (Fcs.initial.writeAll bytes).result = x25 bytes ∧
      ∀ (check : Fcs) (b : UInt8), (check.write b).fcs = eightBits check.fcs b := by
  refine ⟨?_, fcs_write⟩
  rw [Fcs.result, fcs_writeAll]
  rfl

end BrokerProxy.Ppp
