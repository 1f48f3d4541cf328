/-
This file develops the text of integers in a base up to 16: a sign where one is shown, and
the digits from the highest to the lowest, letters above nine. Texts of one base determine
their number; and a text that is read in two bases stands for at least as much in the
larger one, and for the same only if it is a single digit.
-/

import Mathlib.Data.Nat.Digits.Defs

namespace Numerals

/-- The character of a digit. -/
def digitChar (digit : Nat) : UInt8 :=
  UInt8.ofNat (if digit < 10 then 0x30 + digit else 0x57 + digit)

/-- The digits of a natural number, the highest first. -/
def natText (base number : Nat) : List UInt8 :=
  if number = 0 then [0x30] else (Nat.digits base number).reverse.map digitChar

/-- The text of an integer, with the sign of a negative one if signs are shown. -/
def intText (base : Nat) (signs : Bool) (number : Int) : List UInt8 :=
  if signs = true ∧ number < 0 then 0x2D :: natText base number.natAbs
  else natText base number.natAbs

/-- The decimal notation of an integer. -/
def decimal (number : Int) : List UInt8 := intText 10 true number

example : decimal (-107) = [0x2D, 0x31, 0x30, 0x37] := by decide

/-! ### Natural numbers -/

theorem digitChar_injective {first second : Nat} (small : first < 16) (other : second < 16)
    (same : digitChar first = digitChar second) : first = second := by
  have table : ∀ i j : Fin 16, digitChar i.val = digitChar j.val → i.val = j.val := by decide
  exact table ⟨first, small⟩ ⟨second, other⟩ same

theorem map_digitChar_injective {first second : List Nat} (small : ∀ digit ∈ first, digit < 16)
    (other : ∀ digit ∈ second, digit < 16)
    (same : first.map digitChar = second.map digitChar) : first = second := by
  induction first generalizing second with
  | nil => exact (List.map_eq_nil_iff.mp same.symm).symm
  | cons digit rest inductionHypothesis =>
    cases second with
    | nil => cases same
    | cons otherDigit others =>
      rw [List.map_cons, List.map_cons, List.cons.injEq] at same
      rw [List.forall_mem_cons] at small other
      rw [digitChar_injective small.1 other.1 same.1, inductionHypothesis small.2 other.2 same.2]

/-- The digits that a text shows, the lowest first. -/
def shown (base number : Nat) : List Nat := if number = 0 then [0] else Nat.digits base number

theorem natText_eq (base number : Nat) :
    natText base number = (shown base number).reverse.map digitChar := by
  unfold natText shown
  split
  · rfl
  · rfl

theorem ofDigits_shown (base number : Nat) : Nat.ofDigits base (shown base number) = number := by
  unfold shown
  split
  · rename_i zero
    rw [Nat.ofDigits_singleton, zero]
  · exact Nat.ofDigits_digits base number

theorem shown_lt {base number digit : Nat} (large : 1 < base) (small : base ≤ 16)
    (member : digit ∈ shown base number) : digit < 16 := by
  unfold shown at member
  split at member
  · rw [List.mem_singleton.mp member]
    omega
  · exact (Nat.digits_lt_base large member).trans_le small

/-- Equal texts in two bases show the same digits. -/
theorem shown_eq_of_natText_eq {base other first second : Nat} (large : 1 < base)
    (small : base ≤ 16) (largeOther : 1 < other) (smallOther : other ≤ 16)
    (same : natText base first = natText other second) : shown base first = shown other second := by
  rw [natText_eq, natText_eq] at same
  refine List.reverse_inj.mp (map_digitChar_injective ?_ ?_ same)
  · exact fun digit member => shown_lt large small (List.mem_reverse.mp member)
  · exact fun digit member => shown_lt largeOther smallOther (List.mem_reverse.mp member)

/-- The text determines the number. -/
theorem natText_injective {base first second : Nat} (large : 1 < base) (small : base ≤ 16)
    (same : natText base first = natText base second) : first = second := by
  have digits := shown_eq_of_natText_eq large small large small same
  rw [← ofDigits_shown base first, digits, ofDigits_shown]

/-- A text stands for at least as much in a larger base. -/
theorem le_of_natText_eq {base other first second : Nat} (large : 1 < base) (small : base ≤ 16)
    (largeOther : 1 < other) (below : other ≤ base)
    (same : natText base first = natText other second) : second ≤ first := by
  have digits := shown_eq_of_natText_eq large small largeOther (below.trans small) same
  calc second = Nat.ofDigits other (shown other second) := (ofDigits_shown other second).symm
    _ ≤ Nat.ofDigits base (shown other second) := Nat.ofDigits_monotone _ below
    _ = first := by rw [← digits, ofDigits_shown]

/-- A single digit. -/
theorem natText_of_lt {base number : Nat} (below : number < base) :
    natText base number = [digitChar number] := by
  unfold natText
  by_cases zero : number = 0
  · rw [if_pos zero, zero]
    rfl
  · rw [if_neg zero, Nat.digits_of_lt base number zero below]
    rfl

/-- A number has the same text in two bases exactly if it is a single digit in the smaller one. -/
theorem natText_eq_natText_iff {base other number : Nat} (small : base ≤ 16)
    (largeOther : 1 < other) (below : other < base) :
    natText base number = natText other number ↔ number < other := by
  have large : 1 < base := largeOther.trans below
  constructor
  · intro same
    by_contra above
    have nonzero : number ≠ 0 := by omega
    have digits := shown_eq_of_natText_eq large small largeOther (below.le.trans small) same
    unfold shown at digits
    rw [if_neg nonzero, if_neg nonzero, Nat.digits_eq_cons_digits_div large nonzero,
      Nat.digits_eq_cons_digits_div largeOther nonzero, List.cons.injEq] at digits
    -- the higher digits stand for more in the larger base, the lowest digit is the same
    have higher : number / other ≤ number / base := by
      calc number / other = Nat.ofDigits other (Nat.digits other (number / other)) :=
            (Nat.ofDigits_digits _ _).symm
        _ ≤ Nat.ofDigits base (Nat.digits other (number / other)) :=
            Nat.ofDigits_monotone _ below.le
        _ = number / base := by rw [← digits.2, Nat.ofDigits_digits]
    have some : 0 < number / other := Nat.div_pos (Nat.not_lt.mp above) (by omega)
    have whole : base * (number / base) = other * (number / other) := by
      have first := Nat.div_add_mod number base
      have second := Nat.div_add_mod number other
      omega
    have more : other * (number / other) < base * (number / base) :=
      Nat.mul_lt_mul_of_lt_of_le below higher (by omega)
    omega
  · intro single
    rw [natText_of_lt single, natText_of_lt (single.trans below)]

/-! ### Characters -/

theorem natText_ne_nil (base number : Nat) : natText base number ≠ [] := by
  unfold natText
  split
  · exact List.cons_ne_nil _ _
  · rename_i nonzero
    rw [ne_eq, List.map_eq_nil_iff, List.reverse_eq_nil_iff]
    exact Nat.digits_ne_nil_iff_ne_zero.mpr nonzero

/-- The characters of digits. -/
theorem exists_digitChar_of_mem {base number : Nat} (large : 1 < base) (small : base ≤ 16)
    {character : UInt8} (member : character ∈ natText base number) :
    ∃ digit < 16, character = digitChar digit := by
  rw [natText_eq] at member
  obtain ⟨digit, isShown, rfl⟩ := List.mem_map.mp member
  exact ⟨digit, shown_lt large small (List.mem_reverse.mp isShown), rfl⟩

/-- A digit is no sign. -/
theorem natText_ne_cons_sign {base number : Nat} (large : 1 < base) (small : base ≤ 16)
    (rest : List UInt8) : natText base number ≠ 0x2D :: rest := by
  intro signed
  obtain ⟨digit, below, same⟩ := exists_digitChar_of_mem large small
    (signed ▸ List.mem_cons_self : (0x2D : UInt8) ∈ natText base number)
  have table : ∀ i : Fin 16, (0x2D : UInt8) ≠ digitChar i.val := by decide
  exact table ⟨digit, below⟩ same

/-! ### Integers -/

theorem intText_ne_nil (base : Nat) (signs : Bool) (number : Int) :
    intText base signs number ≠ [] := by
  unfold intText
  split
  · exact List.cons_ne_nil _ _
  · exact natText_ne_nil base _

theorem intText_of_nonneg {base : Nat} {signs : Bool} {number : Int} (nonneg : 0 ≤ number) :
    intText base signs number = natText base number.natAbs :=
  if_neg fun negative => absurd negative.2 (not_lt.mpr nonneg)

theorem intText_of_neg {base : Nat} {number : Int} (negative : number < 0) :
    intText base true number = 0x2D :: natText base number.natAbs :=
  if_pos ⟨rfl, negative⟩

/-- A text that stands for a negative number in one base does so in every base where signs are
shown. -/
theorem magnitudes_of_intText_eq {base other : Nat} {signs : Bool} (large : 1 < base)
    (small : base ≤ 16) {first second : Int} (negative : second < 0)
    (same : intText base signs first = intText other true second) :
    first < 0 ∧ natText base first.natAbs = natText other second.natAbs := by
  rw [intText_of_neg negative] at same
  unfold intText at same
  split at same
  · rename_i signed
    exact ⟨signed.2, (List.cons.inj same).2⟩
  · exact absurd same (natText_ne_cons_sign large small _)

/-- Where signs are shown the text determines the number. -/
theorem intText_injective {base : Nat} (large : 1 < base) (small : base ≤ 16) {first second : Int}
    (same : intText base true first = intText base true second) : first = second := by
  unfold intText at same
  simp only [true_and] at same
  split at same
  · split at same
    · have magnitudes := natText_injective large small (List.cons.inj same).2
      omega
    · exact absurd same.symm (natText_ne_cons_sign large small _)
  · split at same
    · exact absurd same (natText_ne_cons_sign large small _)
    · have magnitudes := natText_injective large small same
      omega

/-- Where signs are not shown it determines the magnitude. -/
theorem intText_unsigned_eq_iff {base : Nat} (large : 1 < base) (small : base ≤ 16)
    {first second : Int} :
    intText base false first = intText base false second ↔ first.natAbs = second.natAbs := by
  have plain : ∀ number : Int, intText base false number = natText base number.natAbs :=
    fun number => if_neg fun shows => absurd shows.1 Bool.false_ne_true
  rw [plain, plain]
  exact ⟨natText_injective large small, congrArg (natText base)⟩

end Numerals
