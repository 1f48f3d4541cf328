/-
This file models the frame check sequence of `ppp_frame.cpp`: the lookup table, the
running checksum that both ends of the link keep, and its complemented result. The
result the decoder compares with is the residue of the checksum: from any state, the
state's own complemented value, low byte first, always leads to it.
-/

import BrokerProxy.Messages
import Mathlib.Data.Nat.Notation
import Mathlib.Tactic.IntervalCases

namespace BrokerProxy

namespace Ppp

/-- The checksum of each byte value, as `ppp_frame.cpp` tabulates it. -/
def fcsTable : Array UInt16 := #[
  0x0000, 0x1189, 0x2312, 0x329B, 0x4624, 0x57AD, 0x6536, 0x74BF,
  0x8C48, 0x9DC1, 0xAF5A, 0xBED3, 0xCA6C, 0xDBE5, 0xE97E, 0xF8F7,
  0x1081, 0x0108, 0x3393, 0x221A, 0x56A5, 0x472C, 0x75B7, 0x643E,
  0x9CC9, 0x8D40, 0xBFDB, 0xAE52, 0xDAED, 0xCB64, 0xF9FF, 0xE876,
  0x2102, 0x308B, 0x0210, 0x1399, 0x6726, 0x76AF, 0x4434, 0x55BD,
  0xAD4A, 0xBCC3, 0x8E58, 0x9FD1, 0xEB6E, 0xFAE7, 0xC87C, 0xD9F5,
  0x3183, 0x200A, 0x1291, 0x0318, 0x77A7, 0x662E, 0x54B5, 0x453C,
  0xBDCB, 0xAC42, 0x9ED9, 0x8F50, 0xFBEF, 0xEA66, 0xD8FD, 0xC974,
  0x4204, 0x538D, 0x6116, 0x709F, 0x0420, 0x15A9, 0x2732, 0x36BB,
  0xCE4C, 0xDFC5, 0xED5E, 0xFCD7, 0x8868, 0x99E1, 0xAB7A, 0xBAF3,
  0x5285, 0x430C, 0x7197, 0x601E, 0x14A1, 0x0528, 0x37B3, 0x263A,
  0xDECD, 0xCF44, 0xFDDF, 0xEC56, 0x98E9, 0x8960, 0xBBFB, 0xAA72,
  0x6306, 0x728F, 0x4014, 0x519D, 0x2522, 0x34AB, 0x0630, 0x17B9,
  0xEF4E, 0xFEC7, 0xCC5C, 0xDDD5, 0xA96A, 0xB8E3, 0x8A78, 0x9BF1,
  0x7387, 0x620E, 0x5095, 0x411C, 0x35A3, 0x242A, 0x16B1, 0x0738,
  0xFFCF, 0xEE46, 0xDCDD, 0xCD54, 0xB9EB, 0xA862, 0x9AF9, 0x8B70,
  0x8408, 0x9581, 0xA71A, 0xB693, 0xC22C, 0xD3A5, 0xE13E, 0xF0B7,
  0x0840, 0x19C9, 0x2B52, 0x3ADB, 0x4E64, 0x5FED, 0x6D76, 0x7CFF,
  0x9489, 0x8500, 0xB79B, 0xA612, 0xD2AD, 0xC324, 0xF1BF, 0xE036,
  0x18C1, 0x0948, 0x3BD3, 0x2A5A, 0x5EE5, 0x4F6C, 0x7DF7, 0x6C7E,
  0xA50A, 0xB483, 0x8618, 0x9791, 0xE32E, 0xF2A7, 0xC03C, 0xD1B5,
  0x2942, 0x38CB, 0x0A50, 0x1BD9, 0x6F66, 0x7EEF, 0x4C74, 0x5DFD,
  0xB58B, 0xA402, 0x9699, 0x8710, 0xF3AF, 0xE226, 0xD0BD, 0xC134,
  0x39C3, 0x284A, 0x1AD1, 0x0B58, 0x7FE7, 0x6E6E, 0x5CF5, 0x4D7C,
  0xC60C, 0xD785, 0xE51E, 0xF497, 0x8028, 0x91A1, 0xA33A, 0xB2B3,
  0x4A44, 0x5BCD, 0x6956, 0x78DF, 0x0C60, 0x1DE9, 0x2F72, 0x3EFB,
  0xD68D, 0xC704, 0xF59F, 0xE416, 0x90A9, 0x8120, 0xB3BB, 0xA232,
  0x5AC5, 0x4B4C, 0x79D7, 0x685E, 0x1CE1, 0x0D68, 0x3FF3, 0x2E7A,
  0xE70E, 0xF687, 0xC41C, 0xD595, 0xA12A, 0xB0A3, 0x8238, 0x93B1,
  0x6B46, 0x7ACF, 0x4854, 0x59DD, 0x2D62, 0x3CEB, 0x0E70, 0x1FF9,
  0xF78F, 0xE606, 0xD49D, 0xC514, 0xB1AB, 0xA022, 0x92B9, 0x8330,
  0x7BC7, 0x6A4E, 0x58D5, 0x495C, 0x3DE3, 0x2C6A, 0x1EF1, 0x0F78]

/-- The running checksum. -/
structure Fcs where
  fcs : UInt16
deriving DecidableEq, Repr

/-- The constructor's and `clear`'s value. -/
def Fcs.initial : Fcs := { fcs := 0xFFFF }

/-- Feed one byte through the table. -/
def Fcs.write (check : Fcs) (b : UInt8) : Fcs :=
  { fcs := (check.fcs >>> 8) ^^^
      fcsTable.getD ((check.fcs &&& 0xFF) ^^^ b.toUInt16).toNat 0 }

/-- The complemented checksum, the value that is transmitted and compared. -/
def Fcs.result (check : Fcs) : UInt16 := ~~~check.fcs

/-- Feed a word byte by byte. -/
def Fcs.writeAll (check : Fcs) (bytes : Bytes) : Fcs := bytes.foldl Fcs.write check

/-- The low byte of a checksum result, the first of the two that are sent. -/
def lowByte (value : UInt16) : UInt8 := (value &&& 0xFF).toUInt8

/-- The high byte of a checksum result. -/
def highByte (value : UInt16) : UInt8 := (value >>> 8).toUInt8

theorem Fcs.writeAll_append (check : Fcs) (first second : Bytes) :
    check.writeAll (first ++ second) = (check.writeAll first).writeAll second :=
  List.foldl_append

/-! ### The checksum as a natural number -/

theorem toNat_and_low (value : UInt16) : (value &&& 0xFF).toNat = value.toNat % 256 := by
  rw [UInt16.toNat_and, show (0xFF : UInt16).toNat = 2 ^ 8 - 1 from rfl,
    Nat.and_two_pow_sub_one_eq_mod]

theorem toNat_shift_high (value : UInt16) : (value >>> 8).toNat = value.toNat / 256 := by
  rw [UInt16.toNat_shiftRight, show (8 : UInt16).toNat % 16 = 8 from rfl,
    Nat.shiftRight_eq_div_pow]

theorem toNat_lowByte (value : UInt16) : (lowByte value).toNat = value.toNat % 256 := by
  rw [lowByte, UInt16.toNat_toUInt8, toNat_and_low, Nat.mod_mod]

theorem toNat_highByte (value : UInt16) : (highByte value).toNat = value.toNat / 256 := by
  have bound := value.toNat_lt
  rw [highByte, UInt16.toNat_toUInt8, toNat_shift_high, Nat.mod_eq_of_lt (by omega)]

theorem Fcs.toNat_write (check : Fcs) (b : UInt8) :
    (check.write b).fcs.toNat =
      (check.fcs.toNat / 256) ^^^
        (fcsTable.getD ((check.fcs.toNat % 256) ^^^ b.toNat) 0).toNat := by
  have index : ((check.fcs &&& 0xFF) ^^^ b.toUInt16).toNat =
      (check.fcs.toNat % 256) ^^^ b.toNat := by
    rw [UInt16.toNat_xor, toNat_and_low, UInt8.toNat_toUInt16]
  simp only [Fcs.write]
  rw [UInt16.toNat_xor, toNat_shift_high, index]

theorem Fcs.toNat_result (check : Fcs) : check.result.toNat = 65535 - check.fcs.toNat := by
  rw [Fcs.result, UInt16.toNat_not]
  rfl

/-! ### The residue -/

/-- The value `ppp_deframe` compares the result with. -/
def goodFcs : UInt16 := 0x0F47

theorem xor_complement : ∀ b : Fin 256, b.val ^^^ (255 - b.val) = 255 := by decide +kernel

theorem xor_entry_low :
    ∀ b : Fin 256, ((b.val ^^^ 0x0F78) % 256) ^^^ (255 - b.val) = 0x87 := by decide +kernel

theorem xor_entry_high : ∀ b : Fin 256, (b.val ^^^ 0x0F78) / 256 = 0x0F := by decide +kernel

/-- The low byte of the complemented checksum selects the last table entry, whatever the
state. -/
theorem toNat_write_lowByte (check : Fcs) :
    (check.write (lowByte check.result)).fcs.toNat = (check.fcs.toNat / 256) ^^^ 0x0F78 := by
  have bound := check.fcs.toNat_lt
  have index : (check.fcs.toNat % 256) ^^^ (65535 - check.fcs.toNat) % 256 = 255 := by
    rw [show (65535 - check.fcs.toNat) % 256 = 255 - check.fcs.toNat % 256 by omega]
    exact xor_complement ⟨check.fcs.toNat % 256, Nat.mod_lt _ (by omega)⟩
  have entry : (fcsTable.getD 255 0).toNat = 0x0F78 := by decide +kernel
  rw [Fcs.toNat_write, toNat_lowByte, Fcs.toNat_result, index, entry]

/-- Feeding a checksum its own complemented value, low byte first, always ends in the residue
the decoder compares with. -/
theorem residue (check : Fcs) :
    ((check.write (lowByte check.result)).write (highByte check.result)).result = goodFcs := by
  have bound := check.fcs.toNat_lt
  have low := xor_entry_low ⟨check.fcs.toNat / 256, by omega⟩
  have high := xor_entry_high ⟨check.fcs.toNat / 256, by omega⟩
  have entry : (fcsTable.getD 0x87 0).toNat = 0xF0B7 := by decide +kernel
  have final : ((check.write (lowByte check.result)).write
      (highByte check.result)).fcs.toNat = 0xF0B8 := by
    rw [Fcs.toNat_write, toNat_highByte, Fcs.toNat_result, toNat_write_lowByte,
      show (65535 - check.fcs.toNat) / 256 = 255 - check.fcs.toNat / 256 by omega, low, high,
      entry]
    rfl
  apply UInt16.toNat_inj.mp
  rw [Fcs.toNat_result, final]
  rfl

end Ppp

end BrokerProxy
