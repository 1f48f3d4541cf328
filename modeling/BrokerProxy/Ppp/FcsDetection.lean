/-
This file proves what the frame check sequence detects. The 256 table entries are the
eight-bit steps of one generator, so the checksum of a word is a cyclic redundancy check
of its bits, bytes in order and least significant bit first. From any state exactly one
pair of bytes leads to the residue, which makes the decoder's one comparison exact; and
no burst of at most sixteen bits and no error of odd weight leads from the residue to the
residue, so the decoder never accepts a word that such an error has reached.
-/

import BrokerProxy.Library.Crc
import BrokerProxy.Ppp.Frame

namespace BrokerProxy.Ppp

open Framing

/-! ### The checksum as a cyclic redundancy check -/

/-- The generator that the table's entries are steps of. -/
def generator : BitVec 16 := 0x8408

/-- The bits of a byte, least significant bit first. -/
def bitsOfByte (b : UInt8) : List Bool := (List.range 8).map b.toNat.testBit

/-- The bits of a word, bytes in order. -/
def bitsOf (bytes : Bytes) : List Bool := bytes.flatMap bitsOfByte

/-- The sum of two words of one length, byte by byte. -/
def xorBytes (first second : Bytes) : Bytes := List.zipWith (· ^^^ ·) first second

theorem generator_top : generator.getLsbD 15 = true := by decide

theorem parity_generator : Crc.parity generator = 1 := by decide

/-- Every table entry is what eight zero bits make of its index. -/
theorem toList_fcsTable : fcsTable.toList = (List.range 256).map fun index =>
    UInt16.ofBitVec (Crc.run generator (BitVec.ofNat 16 index) (List.replicate 8 false)) := by
  decide +kernel

theorem entry_eq_run (index : Nat) (bound : index < 256) :
    (fcsTable.getD index 0).toBitVec =
      Crc.run generator (BitVec.ofNat 16 index) (List.replicate 8 false) := by
  rw [Array.getD_eq_getD_getElem?, ← Array.getElem?_toList, toList_fcsTable, List.getElem?_map,
    List.getElem?_range bound]
  rfl

/-- From the register zero, the bits of a byte lead where zeros lead from the byte. -/
theorem run_bits_eq_run : ∀ b : Fin 256,
    Crc.run generator 0 ((List.range 8).map b.val.testBit) =
      Crc.run generator (BitVec.ofNat 16 b.val) (List.replicate 8 false) := by decide +kernel

theorem length_bitsOfByte (b : UInt8) : (bitsOfByte b).length = 8 := by
  rw [bitsOfByte, List.length_map, List.length_range]

theorem add_clear (message : List Bool) :
    Crc.add (List.replicate message.length false) message = message := by
  induction message with
  | nil => rfl
  | cons bit rest inductionHypothesis =>
    rw [Crc.add, List.length_cons, List.replicate_succ, List.zipWith_cons_cons, Bool.false_xor,
      ← Crc.add, inductionHypothesis]

/-- A register is its high byte and its low byte. -/
theorem high_xor_low (register : BitVec 16) :
    (register &&& 0xFF00#16) ^^^ (register &&& 0x00FF#16) = register := by
  have masks : ∀ below : Fin 16,
      ((0xFF00#16).getLsbD below.val ^^ (0x00FF#16).getLsbD below.val) = true := by decide
  refine BitVec.eq_of_getLsbD_eq fun position bound => ?_
  rw [BitVec.getLsbD_xor, BitVec.getLsbD_and, BitVec.getLsbD_and, ← Bool.and_xor_distrib_left,
    masks ⟨position, bound⟩, Bool.and_true]

/-- Eight zero bits only shift the high byte of a register. -/
theorem run_high (register : BitVec 16) :
    Crc.run generator (register &&& 0xFF00#16) (List.replicate 8 false) = register >>> 8 := by
  rw [Crc.run_clear_low generator 8 _ fun position bound => ?_]
  · rw [BitVec.ushiftRight_and_distrib]
    refine BitVec.eq_of_getLsbD_eq fun position bound => ?_
    have kept : ∀ below : Fin 16,
        (0xFF00#16 >>> 8).getLsbD below.val = decide (below.val < 8) := by decide
    rw [BitVec.getLsbD_and, kept ⟨position, bound⟩]
    by_cases low : position < 8
    · rw [decide_eq_true low, Bool.and_true]
    · rw [decide_eq_false low, Bool.and_false, BitVec.getLsbD_ushiftRight,
        BitVec.getLsbD_of_ge _ _ (by omega)]
  · have cleared : ∀ below : Fin 8, (0xFF00#16).getLsbD below.val = false := by decide
    rw [BitVec.getLsbD_and, cleared ⟨position, bound⟩, Bool.and_false]

theorem toBitVec_toUInt16_eq (b : UInt8) : b.toUInt16.toBitVec = BitVec.ofNat 16 b.toNat :=
  (UInt8.toBitVec_toUInt16 b).trans (BitVec.ofNat_toNat 16 b.toBitVec).symm

/-- By linearity the bits of a byte may come one after the other, or stand in the register from the
start. -/
theorem run_bitsOfByte (register : BitVec 16) (b : UInt8) :
    Crc.run generator register (bitsOfByte b) =
      Crc.run generator (register ^^^ BitVec.ofNat 16 b.toNat) (List.replicate 8 false) := by
  have zeros := add_clear (bitsOfByte b)
  rw [length_bitsOfByte] at zeros
  have sameLength : (List.replicate 8 false).length = (bitsOfByte b).length := by
    rw [List.length_replicate, length_bitsOfByte]
  have apart := Crc.run_xor generator (List.replicate 8 false) (bitsOfByte b) register 0 sameLength
  have together := Crc.run_xor generator (List.replicate 8 false) (List.replicate 8 false)
    register (BitVec.ofNat 16 b.toNat) rfl
  rw [zeros, show register ^^^ 0 = register from BitVec.xor_zero] at apart
  rw [apart]
  exact (congrArg _ (run_bits_eq_run ⟨b.toNat, b.toNat_lt⟩)).trans together.symm

/-- The table's index: the low byte of the state and the byte that is fed. -/
def tableIndex (check : Fcs) (b : UInt8) : UInt16 := (check.fcs &&& 0xFF) ^^^ b.toUInt16

theorem toNat_tableIndex_lt (check : Fcs) (b : UInt8) : (tableIndex check b).toNat < 256 := by
  rw [tableIndex, UInt16.toNat_xor, toNat_and_low, UInt8.toNat_toUInt16]
  exact Nat.xor_lt_two_pow (n := 8) (Nat.mod_lt _ (by omega)) b.toNat_lt

theorem ofNat_tableIndex (check : Fcs) (b : UInt8) :
    BitVec.ofNat 16 (tableIndex check b).toNat =
      (check.fcs.toBitVec &&& 0x00FF#16) ^^^ BitVec.ofNat 16 b.toNat := by
  have whole : BitVec.ofNat 16 (tableIndex check b).toNat = (tableIndex check b).toBitVec :=
    (BitVec.ofNat_toNat 16 _).trans (BitVec.setWidth_eq _)
  rw [whole, tableIndex, UInt16.toBitVec_xor, UInt16.toBitVec_and, toBitVec_toUInt16_eq]
  rfl

theorem toBitVec_write_entry (check : Fcs) (b : UInt8) :
    (check.write b).fcs.toBitVec =
      (check.fcs.toBitVec >>> 8) ^^^
        Crc.run generator (BitVec.ofNat 16 (tableIndex check b).toNat)
          (List.replicate 8 false) := by
  rw [← entry_eq_run _ (toNat_tableIndex_lt check b), Fcs.write, UInt16.toBitVec_xor,
    UInt16.toBitVec_shiftRight]
  rfl

/-- Feeding a byte through the table is feeding its eight bits. -/
theorem toBitVec_write (check : Fcs) (b : UInt8) :
    (check.write b).fcs.toBitVec = Crc.run generator check.fcs.toBitVec (bitsOfByte b) := by
  have zeros := add_clear (bitsOfByte b)
  rw [length_bitsOfByte] at zeros
  have sameLength : (List.replicate 8 false).length = (bitsOfByte b).length := by
    rw [List.length_replicate, length_bitsOfByte]
  have low : Crc.run generator (check.fcs.toBitVec &&& 0x00FF#16) (bitsOfByte b) =
      Crc.run generator (BitVec.ofNat 16 (tableIndex check b).toNat)
        (List.replicate 8 false) := by
    rw [run_bitsOfByte, ofNat_tableIndex]
  have whole := Crc.run_xor generator (List.replicate 8 false) (bitsOfByte b)
    (check.fcs.toBitVec &&& 0xFF00#16) (check.fcs.toBitVec &&& 0x00FF#16) sameLength
  rw [zeros, high_xor_low, run_high, low, ← toBitVec_write_entry] at whole
  exact whole.symm

/-- Feeding a word through the table is feeding its bits. -/
theorem toBitVec_writeAll (bytes : Bytes) : ∀ check : Fcs,
    (check.writeAll bytes).fcs.toBitVec =
      Crc.run generator check.fcs.toBitVec (bitsOf bytes) := by
  induction bytes with
  | nil => exact fun _ => rfl
  | cons b rest inductionHypothesis =>
    intro check
    rw [bitsOf, List.flatMap_cons, Crc.run_append, ← toBitVec_write, ← bitsOf,
      ← inductionHypothesis]
    rfl

/-! ### Errors -/

theorem bitsOf_cons (b : UInt8) (rest : Bytes) :
    bitsOf (b :: rest) = bitsOfByte b ++ bitsOf rest := List.flatMap_cons

theorem length_bitsOf (bytes : Bytes) : (bitsOf bytes).length = 8 * bytes.length := by
  induction bytes with
  | nil => rfl
  | cons b rest inductionHypothesis =>
    rw [bitsOf_cons, List.length_append, inductionHypothesis, length_bitsOfByte,
      List.length_cons]
    omega

theorem bitsOfByte_xor (b c : UInt8) :
    bitsOfByte (b ^^^ c) = Crc.add (bitsOfByte b) (bitsOfByte c) := by
  rw [bitsOfByte, bitsOfByte, bitsOfByte, Crc.add, List.zipWith_map, List.zipWith_self]
  refine List.map_congr_left fun position _ => ?_
  rw [UInt8.toNat_xor, Nat.testBit_xor]

/-- The bits of a sum are the sum of the bits. -/
theorem bitsOf_xorBytes (first : Bytes) : ∀ second : Bytes, first.length = second.length →
    bitsOf (xorBytes first second) = Crc.add (bitsOf first) (bitsOf second) := by
  induction first with
  | nil =>
    intro second _
    rfl
  | cons b rest inductionHypothesis =>
    intro second sameLength
    cases second with
    | nil => exact absurd sameLength (Nat.succ_ne_zero _)
    | cons c others =>
      rw [List.length_cons, List.length_cons, Nat.succ_inj] at sameLength
      rw [xorBytes, List.zipWith_cons_cons, bitsOf_cons, ← xorBytes,
        inductionHypothesis others sameLength, bitsOfByte_xor, bitsOf_cons, bitsOf_cons,
        Crc.add, Crc.add, Crc.add,
        List.zipWith_append (by rw [length_bitsOfByte, length_bitsOfByte])]

theorem eq_zero_of_clear_byte (b : UInt8) (clear : true ∉ bitsOfByte b) : b = 0 := by
  have bits : ∀ b : Fin 256, (∀ position < 8, b.val.testBit position = false) → b.val = 0 := by
    decide +kernel
  refine UInt8.toNat_inj.mp (bits ⟨b.toNat, b.toNat_lt⟩ fun position bound => ?_)
  refine Bool.eq_false_iff.mpr fun set => clear ?_
  rw [bitsOfByte, List.mem_map]
  exact ⟨position, List.mem_range.mpr bound, set⟩

/-- A word with no bit set has no byte but zeros. -/
theorem eq_zero_of_clear (bytes : Bytes) (clear : true ∉ bitsOf bytes) : ∀ b ∈ bytes, b = 0 := by
  intro b member
  refine eq_zero_of_clear_byte b fun set => clear ?_
  rw [bitsOf, List.mem_flatMap]
  exact ⟨b, member, set⟩

theorem eq_of_xorBytes_clear (first : Bytes) : ∀ second : Bytes,
    first.length = second.length → (∀ b ∈ xorBytes first second, b = 0) → first = second := by
  induction first with
  | nil =>
    intro second sameLength _
    exact (List.eq_nil_of_length_eq_zero sameLength.symm).symm
  | cons b rest inductionHypothesis =>
    intro second sameLength clear
    cases second with
    | nil => exact absurd sameLength (Nat.succ_ne_zero _)
    | cons c others =>
      rw [List.length_cons, List.length_cons, Nat.succ_inj] at sameLength
      rw [xorBytes, List.zipWith_cons_cons, List.forall_mem_cons] at clear
      rw [UInt8.xor_eq_zero_iff.mp clear.1, inductionHypothesis others sameLength clear.2]

/-- What an error does to a checksum is what its bits do to the register zero. -/
theorem toBitVec_writeAll_xorBytes (check : Fcs) (word error : Bytes)
    (sameLength : word.length = error.length) :
    (check.writeAll (xorBytes word error)).fcs.toBitVec =
      (check.writeAll word).fcs.toBitVec ^^^ Crc.run generator 0 (bitsOf error) := by
  have sum := Crc.run_xor generator (bitsOf word) (bitsOf error) check.fcs.toBitVec 0
    (by rw [length_bitsOf, length_bitsOf, sameLength])
  rw [show check.fcs.toBitVec ^^^ 0 = check.fcs.toBitVec from BitVec.xor_zero,
    ← bitsOf_xorBytes word error sameLength] at sum
  rw [toBitVec_writeAll, toBitVec_writeAll, sum]

/-- An error that keeps the result leads from the register zero to itself. -/
theorem run_zero_of_same_result (check : Fcs) (word error : Bytes)
    (sameLength : word.length = error.length)
    (same : (check.writeAll (xorBytes word error)).result = (check.writeAll word).result) :
    Crc.run generator 0 (bitsOf error) = 0 := by
  have equal : (check.writeAll (xorBytes word error)).fcs = (check.writeAll word).fcs :=
    UInt16.not_inj.mp same
  have effect := toBitVec_writeAll_xorBytes check word error sameLength
  rw [equal] at effect
  exact (BitVec.xor_right_inj _).mp (effect.symm.trans BitVec.xor_zero.symm)

/-! ### The decoder's comparison -/

/-- From any state, the one word of two bytes that leads to the residue is the state's own
complemented value, low byte first. -/
theorem result_eq_goodFcs_iff (check : Fcs) (c d : UInt8) :
    (check.writeAll [c, d]).result = goodFcs ↔
      [c, d] = [lowByte check.result, highByte check.result] := by
  constructor
  · intro good
    have own : (check.writeAll [lowByte check.result, highByte check.result]).result = goodFcs :=
      residue check
    have word : xorBytes [lowByte check.result, highByte check.result]
        (xorBytes [lowByte check.result, highByte check.result] [c, d]) = [c, d] := by
      simp only [xorBytes, List.zipWith_cons_cons, List.zipWith_nil_right, ← UInt8.xor_assoc,
        UInt8.xor_self, UInt8.zero_xor]
    have kept := run_zero_of_same_result check
      [lowByte check.result, highByte check.result]
      (xorBytes [lowByte check.result, highByte check.result] [c, d]) rfl
      (by rw [word, good, own])
    have clear := Crc.notMem_of_run_zero generator generator_top _
      (Nat.le_of_eq (length_bitsOf _)) kept
    exact (eq_of_xorBytes_clear [lowByte check.result, highByte check.result] [c, d] rfl
      (eq_zero_of_clear _ clear)).symm
  · intro own
    rw [own]
    exact residue check

/-- What a byte contributes to the content, given the byte before it: `PPP_ESC_CHAR` contributes
nothing, and the byte after it is masked. -/
def contribution : UInt8 × UInt8 → Option UInt8
  | (previous, c) =>
      if c = escChar then none else some (if previous = escChar then c ^^^ maskChar else c)

/-- The un-stuffed content of a word without flags. -/
def content (input : Bytes) : Bytes := (List.zip (0 :: input) input).filterMap contribution

theorem unstuff_eq_filterMap (input : Bytes) : ∀ previous : UInt8,
    (unstuff pppCode (decide (previous = escChar)) input).1 =
      (List.zip (previous :: input) input).filterMap contribution := by
  induction input with
  | nil => exact fun _ => rfl
  | cons c rest inductionHypothesis =>
    intro previous
    have after := inductionHypothesis c
    rw [List.zip_cons_cons, unstuff]
    by_cases escape : c = escChar
    · rw [List.filterMap_cons_none (by rw [contribution, if_pos escape]), ← after,
        decide_eq_true escape, if_pos (show c = pppCode.escape from escape)]
    · rw [List.filterMap_cons_some (by rw [contribution, if_neg escape]), ← after,
        decide_eq_false escape, if_neg (show ¬c = pppCode.escape from escape)]
      simp only [decide_eq_true_eq]
      rfl

/-- Unstuffing the whole input gives its content. -/
theorem unstuff_content (input : Bytes) : (unstuff pppCode false input).1 = content input :=
  unstuff_eq_filterMap input 0

theorem unstuff_pending (input : Bytes) : ∀ escaped,
    (unstuff pppCode escaped input).2 =
      (input.getLast?.map fun c => decide (c = escChar)).getD escaped := by
  induction input with
  | nil => exact fun _ => rfl
  | cons c rest inductionHypothesis =>
    intro escaped
    have last : ((c :: rest).getLast?.map fun c => decide (c = escChar)).getD escaped =
        (rest.getLast?.map fun c => decide (c = escChar)).getD (decide (c = escChar)) := by
      rw [List.getLast?_cons]
      cases rest.getLast? <;> rfl
    rw [last, unstuff]
    by_cases escape : c = escChar
    · rw [if_pos (show c = pppCode.escape from escape), inductionHypothesis,
        decide_eq_true escape]
    · rw [if_neg (show ¬c = pppCode.escape from escape), inductionHypothesis,
        decide_eq_false escape]

/-- An escape is pending at the end exactly when the input ends in `PPP_ESC_CHAR`. -/
theorem unstuff_pending_iff (input : Bytes) :
    (unstuff pppCode false input).2 = true ↔ input.getLast? = some escChar := by
  rw [unstuff_pending]
  cases input.getLast? with
  | none => simp only [Option.map_none, Option.getD_none, Bool.false_eq_true, reduceCtorEq]
  | some c => simp only [Option.map_some, Option.getD_some, decide_eq_true_eq, Option.some.injEq]

/-- What the decoder answers on a word without flags whose content is a payload and two bytes. -/
theorem pppDeframe_of_content (input : Bytes) (long : 3 ≤ input.length) (free : flagChar ∉ input)
    (payload : Bytes) (c d : UInt8) (parts : content input = payload ++ [c, d]) :
    pppDeframe input = some (!(unstuff pppCode false input).2 &&
      (Fcs.initial.writeAll (payload ++ [c, d])).result == goodFcs, payload) := by
  have pops : (popBack (payload ++ [c, d])).bind popBack = some payload := by
    rw [List.append_cons, popBack_append, Option.bind_some, popBack_append]
  rw [pppDeframe_eq input long free, unstuff_content, parts, pops]
  rfl

/-- A word of two bytes or more ends in two bytes. -/
theorem exists_last_two (bytes : Bytes) (two : 2 ≤ bytes.length) :
    ∃ payload c d, bytes = payload ++ [c, d] := by
  have last : (bytes.drop (bytes.length - 2)).length = 2 := by
    rw [List.length_drop]
    omega
  obtain ⟨c, d, pair⟩ := List.length_eq_two.mp last
  exact ⟨bytes.take (bytes.length - 2), c, d, by rw [← pair, List.take_append_drop]⟩

/-- The decoder accepts exactly the payloads that are followed by their own checksum bytes, in an
input that does not end in `PPP_ESC_CHAR`. -/
theorem pppDeframe_eq_true_iff (input : Bytes) (free : flagChar ∉ input)
    (long : 3 ≤ input.length) (two : 2 ≤ (content input).length) :
    ∃ answer, pppDeframe input = some answer ∧
      ∀ payload, answer = (true, payload) ↔
        input.getLast? ≠ some escChar ∧ content input = payload ++ fcsBytes payload := by
  obtain ⟨front, c, d, parts⟩ := exists_last_two (content input) two
  refine ⟨_, pppDeframe_of_content input long free front c d parts, fun payload => ?_⟩
  have pending : (!(unstuff pppCode false input).2) = true ↔ input.getLast? ≠ some escChar := by
    rw [Bool.not_eq_true', ← Bool.not_eq_true, unstuff_pending_iff]
  have good : (Fcs.initial.writeAll (front ++ [c, d])).result = goodFcs ↔
      [c, d] = fcsBytes front := by
    rw [Fcs.writeAll_append]
    exact result_eq_goodFcs_iff _ c d
  rw [Prod.mk.injEq, Bool.and_eq_true, pending, beq_iff_eq, good, parts, and_assoc]
  refine and_congr_right fun _ => ?_
  constructor
  · rintro ⟨own, rfl⟩
    rw [own]
  · intro whole
    obtain ⟨rfl, own⟩ := List.append_inj' whole rfl
    exact ⟨own, rfl⟩

/-- A short frame whose payload is one escaped byte. -/
theorem pppDeframe_eq_true_iff_frameBody :
    ∃ answer, pppDeframe (frameBody [0x7E]) = some answer ∧
      ∀ payload, answer = (true, payload) ↔
        (frameBody [0x7E]).getLast? ≠ some escChar ∧
          content (frameBody [0x7E]) = payload ++ fcsBytes payload :=
  pppDeframe_eq_true_iff (frameBody [0x7E]) (by decide +kernel) (by decide +kernel)
    (by decide +kernel)

/-! ### Detected errors -/

theorem length_append_fcsBytes (payload : Bytes) :
    (payload ++ fcsBytes payload).length = payload.length + 2 := List.length_append

/-- An error pattern the checksum is made for: its bits lie within sixteen consecutive positions
or are odd in number. -/
def Detectable (error : Bytes) : Prop :=
  Crc.Burst 16 (bitsOf error) ∨ Odd ((bitsOf error).count true)

/-- A flag byte in the input makes the decoder refuse it. -/
theorem deframeLoop_of_flag (input : Bytes) : ∀ state : Deframing, flagChar ∈ input →
    ∃ out, deframeLoop state input = .error out := by
  induction input with
  | nil => exact fun _ member => absurd member List.not_mem_nil
  | cons c rest inductionHypothesis =>
    intro state member
    rw [deframeLoop]
    by_cases isFlag : c = flagChar
    · rw [if_neg (by rw [isFlag]; decide), if_pos isFlag]
      exact ⟨state.out, rfl⟩
    · have later : flagChar ∈ rest := (List.mem_cons.mp member).resolve_left (Ne.symm isFlag)
      rw [if_neg isFlag]
      split
      · exact inductionHypothesis _ later
      · split
        · exact inductionHypothesis _ later
        · exact inductionHypothesis _ later

/-- Whatever the decoder accepts has the residue. -/
theorem result_content_of_accepted (input out : Bytes)
    (accepted : pppDeframe input = some (true, out)) :
    (Fcs.initial.writeAll (content input)).result = goodFcs := by
  by_cases long : 3 ≤ input.length
  · by_cases free : flagChar ∈ input
    · obtain ⟨partialOut, refused⟩ := deframeLoop_of_flag input Deframing.initial free
      rw [pppDeframe, if_neg (by omega), refused] at accepted
      exact absurd accepted (by simp)
    · rw [pppDeframe_eq input long free, Option.map_eq_some_iff] at accepted
      obtain ⟨_, _, answer⟩ := accepted
      have flags := (Prod.mk.inj answer).1
      rw [Bool.and_eq_true, beq_iff_eq, unstuff_content] at flags
      exact flags.2
  · rw [pppDeframe, if_pos (by omega)] at accepted
    exact absurd accepted (by simp)

/-- An error the checksum is made for never leads from the register zero to itself. -/
theorem run_zero_ne_zero (error : Bytes) (nonzero : ∃ e ∈ error, e ≠ 0)
    (detectable : Detectable error) : Crc.run generator 0 (bitsOf error) ≠ 0 := by
  intro final
  rcases detectable with burst | odd
  · have clear := Crc.notMem_of_burst generator generator_top _ burst final
    obtain ⟨e, member, set⟩ := nonzero
    exact set (eq_zero_of_clear error clear e member)
  · exact Crc.run_ne_zero_of_odd generator parity_generator _ odd final

/-- No error the checksum is made for, on a payload and its two checksum bytes, keeps the
residue; so the decoder accepts no input with such a content. -/
theorem errors_detected (payload error : Bytes)
    (sameLength : error.length = (payload ++ fcsBytes payload).length)
    (nonzero : ∃ e ∈ error, e ≠ 0) (detectable : Detectable error) :
    (Fcs.initial.writeAll (xorBytes (payload ++ fcsBytes payload) error)).result ≠ goodFcs ∧
      ∀ input, content input = xorBytes (payload ++ fcsBytes payload) error →
        ∀ out, pppDeframe input ≠ some (true, out) := by
  have changed :
      (Fcs.initial.writeAll (xorBytes (payload ++ fcsBytes payload) error)).result ≠ goodFcs := by
    intro good
    refine run_zero_ne_zero error nonzero detectable
      (run_zero_of_same_result Fcs.initial (payload ++ fcsBytes payload) error sameLength.symm ?_)
    rw [good, result_writeAll_fcsBytes]
  refine ⟨changed, fun input corrupted out accepted => changed ?_⟩
  rw [← corrupted]
  exact result_content_of_accepted input out accepted

/-- A burst over the boundary between a payload and its checksum. -/
theorem errors_detected_burst :
    (Fcs.initial.writeAll (xorBytes ([1, 2] ++ fcsBytes [1, 2]) [0, 0x80, 1, 0])).result ≠
        goodFcs ∧
      ∀ input, content input = xorBytes ([1, 2] ++ fcsBytes [1, 2]) [0, 0x80, 1, 0] →
        ∀ out, pppDeframe input ≠ some (true, out) := by
  refine errors_detected [1, 2] [0, 0x80, 1, 0] (length_append_fcsBytes [1, 2]).symm
    ⟨1, by decide, by decide⟩ (Or.inl ⟨15, fun position set => ?_⟩)
  by_cases bound : position < 32
  · have inside : ∀ below : Fin 32, (bitsOf [0, 0x80, 1, 0]).getD below.val false = true →
        15 ≤ below.val ∧ below.val < 15 + 16 := by decide
    exact inside ⟨position, bound⟩ set
  · rw [List.getD_eq_default _ _ (by
      rw [length_bitsOf]
      exact Nat.not_lt.mp bound)] at set
    exact absurd set Bool.false_ne_true

end BrokerProxy.Ppp
