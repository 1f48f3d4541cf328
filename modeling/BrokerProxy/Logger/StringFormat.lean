/-
This file models `stringFormat` of `logger.cpp`, which both builds share. The buffer is
sized by the length of the format alone, `vsprintf` writes the whole text to it without
a bound, and only then is the length compared with the size. So the text is inside the
buffer exactly if it happens to be shorter than twice the format and fifty characters;
the second pass, which a longer text is meant to take, comes after the damage.

`vsprintf` is a parameter that gives the complete text for a format and its arguments.
-/

import BrokerProxy.Redis.CommandText
import Mathlib.Algebra.Group.Nat.Defs

namespace BrokerProxy.Logger

/-! ### The loop -/

/-- A call of `vsprintf`: the size that the string has, and the number of bytes written. -/
structure VsprintfCall where
  size : Nat
  written : Nat
deriving DecidableEq

/-- How a run of `stringFormat` ends: with a string, in a failed assertion, in the exception that
`resize` throws for a negative size, or in a write past the end of the string. -/
inductive Outcome
  | returned (text : Bytes)
  | aborted
  | thrown
  | undefined
deriving DecidableEq

/-- The `int` that the buffer starts with, converted from the `size_t` of the length. -/
def startSize (fmt : Bytes) : Int :=
  Int.bmod (((cString fmt).length * 2 + 50 : Nat) : Int) (2 ^ 32)

/-- The loop of `stringFormat`, given whether assertions are active and the complete text. The
string has room for one terminating byte beyond its size. The result is made from a C string. -/
def formatLoop (asserts : Bool) (text : Bytes) : Nat → Int → Option (List VsprintfCall × Outcome)
  | 0, _ => none
  | fuel + 1, size =>
      if asserts = true ∧ 10240 ≤ size then some ([], .aborted)
      else if size < 0 then some ([], .thrown)
      else
        let call := { size := size.toNat, written := text.length + 1 }
        if size < text.length then some ([call], .undefined)
        else if text.length < size then some ([call], .returned (cString text))
        else
          (formatLoop asserts text fuel (text.length + 1)).map fun run => (call :: run.1, run.2)

/-- `stringFormat`, with a number of passes that the loop may take. -/
def stringFormat {Args : Type} (asserts : Bool) (vsprintf : Bytes → Args → Bytes) (passes : Nat)
    (fmt : Bytes) (args : Args) : Option (List VsprintfCall × Outcome) :=
  formatLoop asserts (vsprintf fmt args) passes (startSize fmt)

/-- A run that stays inside the buffer: every call finds room for all it writes, and the loop ends
with the complete text. -/
def Inside (text : Bytes) (run : Option (List VsprintfCall × Outcome)) : Prop :=
  ∃ calls, run = some (calls, .returned text) ∧ ∀ call ∈ calls, call.written ≤ call.size

/-! ### The passes -/

theorem formatLoop_of_short {asserts : Bool} {text : Bytes} {size : Int}
    (active : asserts = true → size < 10240) (short : text.length < size) (fuel : Nat) :
    formatLoop asserts text (fuel + 1) size =
      some ([{ size := size.toNat, written := text.length + 1 }],
        .returned (cString text)) := by
  have notAborted : ¬ (asserts = true ∧ 10240 ≤ size) := fun both =>
    absurd (active both.1) (Int.not_lt.mpr both.2)
  rw [formatLoop, if_neg notAborted, if_neg (by omega)]
  dsimp only
  rw [if_neg (by omega), if_pos short]

/-- A text as long as the string puts its terminating byte beyond the size; the second pass has
room. -/
theorem formatLoop_of_level {asserts : Bool} {text : Bytes}
    (active : asserts = true → (text.length + 1 : Int) < 10240) (fuel : Nat) :
    formatLoop asserts text (fuel + 2) text.length =
      some ([{ size := text.length, written := text.length + 1 },
          { size := text.length + 1, written := text.length + 1 }],
        .returned (cString text)) := by
  have notAborted : ¬ (asserts = true ∧ (10240 : Int) ≤ text.length) := fun both => by
    have room := active both.1
    omega
  rw [formatLoop, if_neg notAborted, if_neg (by omega)]
  dsimp only
  rw [if_neg (Int.lt_irrefl _), if_neg (Int.lt_irrefl _), formatLoop_of_short active (by omega)]
  rfl

theorem formatLoop_of_long {asserts : Bool} {text : Bytes} {size : Int}
    (active : asserts = true → size < 10240) (nonnegative : 0 ≤ size)
    (long : size < text.length) (fuel : Nat) :
    formatLoop asserts text (fuel + 1) size =
      some ([{ size := size.toNat, written := text.length + 1 }], .undefined) := by
  have notAborted : ¬ (asserts = true ∧ 10240 ≤ size) := fun both =>
    absurd (active both.1) (Int.not_lt.mpr both.2)
  rw [formatLoop, if_neg notAborted, if_neg (Int.not_lt.mpr nonnegative)]
  dsimp only
  rw [if_pos long]

/-- Two passes are enough: the second finds room, if there is one. -/
theorem formatLoop_ends (asserts : Bool) (text : Bytes) (fuel : Nat) (size : Int) :
    ∃ run, formatLoop asserts text (fuel + 2) size = some run := by
  rw [formatLoop]
  split
  · exact ⟨_, rfl⟩
  split
  · exact ⟨_, rfl⟩
  dsimp only
  split
  · exact ⟨_, rfl⟩
  split
  · exact ⟨_, rfl⟩
  · by_cases active : asserts = true → (text.length + 1 : Int) < 10240
    · rw [formatLoop_of_short active (by omega)]
      exact ⟨_, rfl⟩
    · have aborts : asserts = true ∧ (10240 : Int) ≤ text.length + 1 := by
        rw [Classical.not_imp] at active
        exact ⟨active.1, Int.not_lt.mp active.2⟩
      rw [formatLoop, if_pos aborts]
      exact ⟨_, rfl⟩

/-- A run stays inside the buffer exactly if the first pass does and nothing is cut off. -/
theorem formatLoop_inside_iff (asserts : Bool) (text : Bytes) (fuel : Nat) (size : Int) :
    Inside text (formatLoop asserts text (fuel + 2) size) ↔
      text.length < size ∧ (asserts = true → size < 10240) ∧ 0 ∉ text := by
  constructor
  · rintro ⟨calls, run, room⟩
    rw [formatLoop] at run
    split at run
    · cases run
    rename_i notAborted
    split at run
    · cases run
    dsimp only at run
    split at run
    · cases run
    split at run
    · rename_i short
      rw [Option.some.injEq, Prod.mk.injEq, Outcome.returned.injEq] at run
      exact ⟨short, fun active => Int.not_le.mp fun large => notAborted ⟨active, large⟩,
        cString_eq_iff.mp run.2⟩
    · -- the first of the two passes has written the terminating byte beyond the size
      rename_i notLonger notShorter
      obtain ⟨rest, _, same⟩ := Option.map_eq_some_iff.mp run
      have first := room _ ((Prod.mk.inj same).1 ▸ List.mem_cons_self)
      dsimp only at first
      omega
  · rintro ⟨short, active, noNul⟩
    rw [formatLoop_of_short active short, cString_of_no_nul noNul]
    refine ⟨_, rfl, fun call member => ?_⟩
    rw [List.mem_singleton.mp member]
    dsimp only
    omega

/-! ### stringFormat -/

/-- Whatever the text, the loop ends, and the run stays inside the buffer exactly if the text is
shorter than the size guessed from the format, that size passes the assertion where assertions
are active, and the text has no terminating byte of its own. -/
theorem stringFormat_inside_iff {Args : Type} (asserts : Bool) (vsprintf : Bytes → Args → Bytes)
    (passes : Nat) (fmt : Bytes) (args : Args) :
    (∃ run, stringFormat asserts vsprintf (passes + 2) fmt args = some run) ∧
      (Inside (vsprintf fmt args) (stringFormat asserts vsprintf (passes + 2) fmt args) ↔
        ((vsprintf fmt args).length : Int) < startSize fmt ∧
          (asserts = true → startSize fmt < 10240) ∧ 0 ∉ vsprintf fmt args) :=
  ⟨formatLoop_ends asserts _ passes _, formatLoop_inside_iff asserts _ passes _⟩

/-- The text of a command with a pattern of seventy characters leaves the buffer, which has 76. -/
theorem stringFormat_not_inside :
    ¬ Inside (Redis.ascii "PSUBSCRIBE " ++ List.replicate 70 0x61)
      (stringFormat true (fun fmt args => (Redis.vsprintf fmt args).getD []) 2
        (Redis.ascii "PSUBSCRIBE %s") [List.replicate 70 0x61]) := by
  rintro ⟨calls, run, _⟩
  have leaves : stringFormat true (fun fmt args => (Redis.vsprintf fmt args).getD []) 2
      (Redis.ascii "PSUBSCRIBE %s") [List.replicate 70 0x61] =
        some ([{ size := 76, written := 82 }], .undefined) := by decide +kernel
  rw [leaves] at run
  cases run

/-! ### The formatter of commands -/

theorem bmod_of_short {length : Nat} (short : length * 2 + 51 < 10240) :
    Int.bmod ((length * 2 + 50 : Nat) : Int) (2 ^ 32) = (length * 2 + 50 : Nat) := by
  rw [Int.bmod_eq_emod_of_lt]
  · omega
  · omega

theorem startSize_of_short {fmt : Bytes} (noNul : 0 ∉ fmt)
    (short : fmt.length * 2 + 51 < 10240) : startSize fmt = (fmt.length * 2 + 50 : Nat) := by
  have whole : cString fmt = fmt := cString_of_no_nul noNul
  unfold startSize
  rw [whole]
  exact bmod_of_short short

/-- The formatter of commands is the loop, where the format is short enough for the assertion: it
gives the text where the loop returns it. -/
theorem stringFormat_eq_returned {fmt : Bytes} {args : List Bytes} {text : Bytes}
    (asserts : Bool) (printed : Redis.vsprintf fmt args = some text) (noNul : 0 ∉ fmt)
    (plain : 0 ∉ text) (short : fmt.length * 2 + 51 < 10240) (passes : Nat) :
    Redis.stringFormat fmt args = some text ↔
      ∃ calls, stringFormat asserts (fun fmt args => (Redis.vsprintf fmt args).getD [])
        (passes + 2) fmt args = some (calls, .returned text) := by
  have size := startSize_of_short noNul short
  rw [Redis.stringFormat, printed, Option.bind_some, stringFormat, printed, Option.getD_some, size]
  rcases Nat.lt_trichotomy text.length (fmt.length * 2 + 50) with inside | level | outside
  · rw [if_pos (Nat.le_of_lt inside), formatLoop_of_short (fun _ => by omega) (by omega),
      cString_of_no_nul plain]
    exact ⟨fun _ => ⟨_, rfl⟩, fun _ => rfl⟩
  · rw [if_pos (Nat.le_of_eq level), ← level, formatLoop_of_level (fun _ => by omega),
      cString_of_no_nul plain]
    exact ⟨fun _ => ⟨_, rfl⟩, fun _ => rfl⟩
  · rw [if_neg (Nat.not_le.mpr outside), formatLoop_of_long (fun _ => by omega) (by omega)
      (by omega)]
    refine ⟨fun wrong => absurd wrong.symm (Option.some_ne_none _), ?_⟩
    rintro ⟨calls, run⟩
    cases run

end BrokerProxy.Logger
