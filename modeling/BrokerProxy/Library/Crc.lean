/-
This file develops cyclic redundancy checks in their reflected form: a register of
fixed width takes one message bit at a time, shifts it out of its low end against the
bit it holds there, and adds the generator whenever the two differ.

The register is linear in the state and the message together, so what an error pattern
does to a checksum is what the pattern alone does to the register zero. A generator
with its top bit set loses nothing: the register after a step determines the register
before it, and a message no longer than the register that ends in zero is the register
it started from. Bursts up to the width are detected for this reason. A generator with
an odd number of bits keeps the parity of register and message together, which is why
errors of odd weight are detected.
-/

import Mathlib.Algebra.BigOperators.Ring.Finset
import Mathlib.Algebra.Field.ZMod
import Mathlib.Data.List.GetD

namespace Crc

variable {width : Nat}

/-- Feed one message bit: shift the register down, and add the generator where the bit that
leaves the register differs from the message bit. -/
def step (generator register : BitVec width) (bit : Bool) : BitVec width :=
  if register.getLsbD 0 ^^ bit then (register >>> 1) ^^^ generator else register >>> 1

/-- Feed a message bit by bit. -/
def run (generator register : BitVec width) (message : List Bool) : BitVec width :=
  message.foldl (step generator) register

/-- The sum of two messages of one length, bit by bit. -/
def add (first second : List Bool) : List Bool := List.zipWith (fun x y => x ^^ y) first second

theorem run_append (generator register : BitVec width) (first second : List Bool) :
    run generator register (first ++ second) =
      run generator (run generator register first) second :=
  List.foldl_append

/-- One bit of the register after a step. -/
theorem getLsbD_step (generator register : BitVec width) (bit : Bool) (position : Nat) :
    (step generator register bit).getLsbD position =
      (register.getLsbD (1 + position) ^^
        ((register.getLsbD 0 ^^ bit) && generator.getLsbD position)) := by
  unfold step
  cases taken : (register.getLsbD 0 ^^ bit) with
  | true =>
    rw [if_pos rfl, BitVec.getLsbD_xor, BitVec.getLsbD_ushiftRight, Bool.true_and]
  | false =>
    rw [if_neg Bool.false_ne_true, BitVec.getLsbD_ushiftRight, Bool.false_and, Bool.xor_false]

/-! ### Linearity -/

theorem step_xor (generator first second : BitVec width) (bit other : Bool) :
    step generator (first ^^^ second) (bit ^^ other) =
      step generator first bit ^^^ step generator second other := by
  refine BitVec.eq_of_getLsbD_eq fun position _ => ?_
  simp only [getLsbD_step, BitVec.getLsbD_xor]
  cases generator.getLsbD position
  · simp only [Bool.and_false, Bool.xor_false]
  · simp only [Bool.and_true, Bool.xor_assoc, Bool.xor_left_comm, Bool.xor_comm]

/-- The register is linear in the state and the message together. -/
theorem run_xor (generator : BitVec width) (message : List Bool) :
    ∀ (other : List Bool) (first second : BitVec width), message.length = other.length →
      run generator (first ^^^ second) (add message other) =
        run generator first message ^^^ run generator second other := by
  induction message with
  | nil =>
    intro other first second sameLength
    rw [List.length_nil] at sameLength
    rw [List.eq_nil_of_length_eq_zero sameLength.symm]
    rfl
  | cons bit rest inductionHypothesis =>
    intro other first second sameLength
    cases other with
    | nil => exact absurd sameLength (Nat.succ_ne_zero _)
    | cons otherBit otherRest =>
      rw [List.length_cons, List.length_cons, Nat.succ_inj] at sameLength
      have stepped := inductionHypothesis otherRest (step generator first bit)
        (step generator second otherBit) sameLength
      rw [← step_xor] at stepped
      exact stepped

/-! ### What a generator with its top bit set keeps -/

/-- A message no longer than the register that ends in the register zero spells the register it
started from, low bit first. -/
theorem register_of_run_eq_zero (generator : BitVec width)
    (top : generator.getLsbD (width - 1) = true) (message : List Bool) :
    ∀ register : BitVec width, message.length ≤ width → run generator register message = 0 →
      ∀ position, register.getLsbD position = message.getD position false := by
  induction message with
  | nil =>
    intro register _ final position
    rw [show register = 0 from final, List.getD_nil]
    exact BitVec.getLsbD_zero
  | cons bit rest inductionHypothesis =>
    intro register short final position
    rw [List.length_cons] at short
    have after := inductionHypothesis (step generator register bit) (by omega) final
    -- the top bit after the step is past the rest of the message, so nothing was added
    have low : (register.getLsbD 0 ^^ bit) = false := by
      have highest := after (width - 1)
      rw [getLsbD_step, top, Bool.and_true, BitVec.getLsbD_of_ge _ _ (by omega),
        Bool.false_xor, List.getD_eq_default _ _ (by omega)] at highest
      exact highest
    cases position with
    | zero =>
      rw [List.getD_cons_zero]
      exact bne_eq_false_iff_eq.mp low
    | succ position =>
      have next := after position
      rw [getLsbD_step, low, Bool.false_and, Bool.xor_false, Nat.add_comm] at next
      rw [List.getD_cons_succ, next]

/-- A message no longer than the register that leaves the register zero at zero has no bit set. -/
theorem notMem_of_run_zero (generator : BitVec width)
    (top : generator.getLsbD (width - 1) = true) (message : List Bool)
    (short : message.length ≤ width) (final : run generator 0 message = 0) : true ∉ message := by
  intro member
  obtain ⟨position, bound, atPosition⟩ := List.mem_iff_getElem.mp member
  have zero := register_of_run_eq_zero generator top message 0 short final position
  rw [List.getD_eq_getElem _ _ bound, atPosition] at zero
  exact absurd (zero.symm.trans BitVec.getLsbD_zero) Bool.noConfusion

theorem step_zero (generator : BitVec width) : step generator 0 false = 0 := by
  refine BitVec.eq_of_getLsbD_eq fun position _ => ?_
  rw [getLsbD_step, show (0 : BitVec width).getLsbD (1 + position) = false from
    BitVec.getLsbD_zero, show (0 : BitVec width).getLsbD 0 = false from BitVec.getLsbD_zero]
  exact BitVec.getLsbD_zero.symm

/-- Zeros keep the register zero. -/
theorem run_zero_of_notMem (generator : BitVec width) (message : List Bool)
    (clear : true ∉ message) : run generator 0 message = 0 := by
  induction message with
  | nil => rfl
  | cons bit rest inductionHypothesis =>
    rw [List.mem_cons, not_or] at clear
    cases bit with
    | true => exact absurd rfl clear.1
    | false =>
      rw [run, List.foldl_cons, step_zero]
      exact inductionHypothesis clear.2

/-- Zeros lead to the register zero only from there. -/
theorem eq_zero_of_run_clear (generator : BitVec width)
    (top : generator.getLsbD (width - 1) = true) (message : List Bool) :
    ∀ register : BitVec width, true ∉ message → run generator register message = 0 →
      register = 0 := by
  induction message with
  | nil => exact fun _ _ final => final
  | cons bit rest inductionHypothesis =>
    intro register clear final
    rw [List.mem_cons, not_or] at clear
    cases bit with
    | true => exact absurd rfl clear.1
    | false =>
      have stepped : run generator register [false] = 0 :=
        inductionHypothesis (step generator register false) clear.2 final
      refine BitVec.eq_of_getLsbD_eq fun position bound => ?_
      rw [register_of_run_eq_zero generator top [false] register (by
        rw [List.length_singleton]
        omega) stepped position]
      cases position <;> exact BitVec.getLsbD_zero.symm

/-- Zeros only shift a register whose low bits are clear. -/
theorem run_clear_low (generator : BitVec width) (count : Nat) :
    ∀ register : BitVec width, (∀ position < count, register.getLsbD position = false) →
      run generator register (List.replicate count false) = register >>> count := by
  induction count with
  | zero =>
    intro register _
    exact (BitVec.ushiftRight_zero register).symm
  | succ count inductionHypothesis =>
    intro register clear
    have shifted : step generator register false = register >>> 1 := by
      rw [step, clear 0 (Nat.succ_pos _), if_neg Bool.noConfusion]
    rw [run, List.replicate_succ, List.foldl_cons, ← run, shifted,
      inductionHypothesis (register >>> 1) fun position bound => by
        rw [BitVec.getLsbD_ushiftRight]
        exact clear _ (by omega),
      ← BitVec.shiftRight_add, Nat.add_comm]

/-! ### What is detected -/

/-- The bits set in a message all lie in a window. -/
def Burst (length : Nat) (message : List Bool) : Prop :=
  ∃ start, ∀ position, message.getD position false = true →
    start ≤ position ∧ position < start + length

/-- A burst no longer than the register that ends in the register zero is no error. -/
theorem notMem_of_burst (generator : BitVec width)
    (top : generator.getLsbD (width - 1) = true) (message : List Bool)
    (burst : Burst width message) (final : run generator 0 message = 0) : true ∉ message := by
  obtain ⟨start, window⟩ := burst
  have before : true ∉ message.take start := by
    intro member
    obtain ⟨position, bound, atPosition⟩ := List.mem_iff_getElem.mp member
    rw [List.length_take] at bound
    rw [List.getElem_take] at atPosition
    have inside := window position (by
      rw [List.getD_eq_getElem _ _ (by omega)]
      exact atPosition)
    omega
  have behind : true ∉ (message.drop start).drop width := by
    intro member
    rw [List.drop_drop] at member
    obtain ⟨position, bound, atPosition⟩ := List.mem_iff_getElem.mp member
    rw [List.length_drop] at bound
    rw [List.getElem_drop] at atPosition
    have inside := window (start + width + position) (by
      rw [List.getD_eq_getElem _ _ (by omega)]
      exact atPosition)
    omega
  have parts : message = message.take start ++
      ((message.drop start).take width ++ (message.drop start).drop width) := by
    rw [List.take_append_drop, List.take_append_drop]
  rw [parts, run_append, run_zero_of_notMem generator _ before, run_append] at final
  have core := eq_zero_of_run_clear generator top _ _ behind final
  have clear := notMem_of_run_zero generator top _ (List.length_take_le _ _) core
  rw [parts, List.mem_append, List.mem_append]
  rintro (member | member | member)
  · exact before member
  · exact clear member
  · exact behind member

/-- A bit as a number modulo two. -/
def weight (bit : Bool) : ZMod 2 := if bit then 1 else 0

/-- The parity of a register. -/
def parity (register : BitVec width) : ZMod 2 :=
  ∑ position ∈ Finset.range width, weight (register.getLsbD position)

theorem weight_xor (first second : Bool) :
    weight (first ^^ second) = weight first + weight second := by
  cases first <;> cases second <;> decide

theorem weight_and (first second : Bool) :
    weight (first && second) = weight first * weight second := by
  cases first <;> cases second <;> decide

/-- A generator with an odd number of bits keeps the parity of register and message together. -/
theorem parity_step (generator : BitVec width) (odd : parity generator = 1)
    (register : BitVec width) (bit : Bool) :
    parity (step generator register bit) = parity register + weight bit := by
  have shifted : (∑ position ∈ Finset.range width, weight (register.getLsbD (1 + position))) +
      weight (register.getLsbD 0) = parity register := by
    have both := (Finset.sum_range_succ' (fun position => weight (register.getLsbD position))
      width).symm.trans (Finset.sum_range_succ _ width)
    rw [BitVec.getLsbD_of_ge register width (Nat.le_refl _), show weight false = 0 from rfl,
      add_zero] at both
    rw [parity, ← both]
    simp only [Nat.add_comm 1]
  have added : ∑ position ∈ Finset.range width,
      weight ((register.getLsbD 0 ^^ bit) && generator.getLsbD position) =
        weight (register.getLsbD 0) + weight bit := by
    simp only [weight_and, ← Finset.mul_sum]
    rw [show ∑ position ∈ Finset.range width, weight (generator.getLsbD position) = 1 from odd,
      mul_one, weight_xor]
  have twice : weight (register.getLsbD 0) + weight (register.getLsbD 0) = 0 := by
    cases register.getLsbD 0 <;> decide
  have sum : parity (step generator register bit) =
      (∑ position ∈ Finset.range width, weight (register.getLsbD (1 + position))) +
        (weight (register.getLsbD 0) + weight bit) := by
    rw [← added, ← Finset.sum_add_distrib, parity]
    simp only [getLsbD_step, weight_xor]
  rw [sum, ← add_assoc, shifted]

theorem parity_run (generator : BitVec width) (odd : parity generator = 1)
    (message : List Bool) :
    ∀ register : BitVec width, parity (run generator register message) =
      parity register + (message.count true : ZMod 2) := by
  induction message with
  | nil =>
    intro register
    rw [List.count_nil, Nat.cast_zero, add_zero]
    rfl
  | cons bit rest inductionHypothesis =>
    intro register
    have counted :
        ((bit :: rest).count true : ZMod 2) = weight bit + (rest.count true : ZMod 2) := by
      cases bit with
      | true => rw [List.count_cons_self, Nat.cast_succ, add_comm]; rfl
      | false => rw [List.count_cons_of_ne Bool.false_ne_true, show weight false = 0 from rfl,
          zero_add]
    rw [run, List.foldl_cons, ← run, inductionHypothesis, parity_step generator odd, counted,
      add_assoc]

/-- A message with an odd number of bits set leads from the register zero to another one. -/
theorem run_ne_zero_of_odd (generator : BitVec width) (odd : parity generator = 1)
    (message : List Bool) (weightOdd : Odd (message.count true)) :
    run generator 0 message ≠ 0 := by
  intro final
  have zero : parity (0 : BitVec width) = 0 := by
    refine Finset.sum_eq_zero fun position _ => ?_
    rw [show (0 : BitVec width).getLsbD position = false from BitVec.getLsbD_zero]
    rfl
  have total := parity_run generator odd message 0
  rw [final, zero, zero_add] at total
  have one : ((message.count true : Nat) : ZMod 2) = 1 := ZMod.natCast_eq_one_iff_odd.mpr weightOdd
  rw [one] at total
  exact absurd total (by decide)

end Crc
