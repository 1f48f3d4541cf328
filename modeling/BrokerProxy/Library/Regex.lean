/-
This file develops regular expressions over an alphabet, as far as they can be matched without
remembering a group.

An expression takes a part of the text at the position where it stands. Whether the
position is the first one and whether it is the last one is all that the assertions look
at. A repetition goes on as ECMAScript has it: after the required number of rounds a round
that takes nothing is refused, so the rounds are at most as many as the required ones and
the symbols that are left.
-/

import Mathlib.Data.List.Basic

namespace Regex

/-! ### Expressions -/

/-- An expression over an alphabet. -/
inductive Expression (Symbol : Type)
  | empty
  | symbol (accepts : Symbol → Bool)
  | sequence (first second : Expression Symbol)
  | either (first second : Expression Symbol)
  | start
  | finish
  | repetition (body : Expression Symbol) (least : Nat) (most : Option Nat)

/-- A position in a text: whether there is something before it, and what comes after it. -/
abbrev Position (Symbol : Type) := Bool × List Symbol

section

variable {Symbol : Type}

/-- The positions that a repetition ends at, given those of a round and the number of rounds that
are looked at. -/
def repeated (round : Position Symbol → List (Position Symbol)) :
    Nat → Nat → Option Nat → Position Symbol → List (Position Symbol)
  | 0, least, _, position => if least = 0 then [position] else []
  | fuel + 1, least, most, position =>
      if most = some 0 then [position]
      else
        ((round position).filter fun next =>
            decide (0 < least ∨ next.2.length < position.2.length)).flatMap
          (repeated round fuel (least - 1) (most.map (· - 1))) ++
        if least = 0 then [position] else []

/-- The positions that an expression ends at. -/
def ends : Expression Symbol → Position Symbol → List (Position Symbol)
  | .empty, position => [position]
  | .symbol accepts, position =>
      if position.2.head?.any accepts then [(true, position.2.tail)] else []
  | .sequence first second, position => (ends first position).flatMap (ends second)
  | .either first second, position => ends first position ++ ends second position
  | .start, position => if position.1 then [] else [position]
  | .finish, position => if position.2.isEmpty then [position] else []
  | .repetition body least most, position =>
      repeated (ends body) (least + position.2.length) least most position

/-- The expression matches the whole word. -/
def matchesWord (expression : Expression Symbol) (word : List Symbol) : Bool :=
  (ends expression (false, word)).any fun last => last.2.isEmpty

/-! ### Repetitions -/

/-- No expression goes back. -/
theorem length_repeated {round : Position Symbol → List (Position Symbol)}
    (forward : ∀ position, ∀ next ∈ round position, next.2.length ≤ position.2.length)
    {fuel least : Nat} {most : Option Nat} {position last : Position Symbol}
    (member : last ∈ repeated round fuel least most position) :
    last.2.length ≤ position.2.length := by
  induction fuel generalizing least most position with
  | zero =>
    rw [repeated] at member
    split at member
    · exact Nat.le_of_eq (by rw [List.mem_singleton.mp member])
    · cases member
  | succ fuel inductionHypothesis =>
    rw [repeated] at member
    split at member
    · exact Nat.le_of_eq (by rw [List.mem_singleton.mp member])
    · rcases List.mem_append.mp member with later | here
      · obtain ⟨next, isNext, reached⟩ := List.mem_flatMap.mp later
        exact Nat.le_trans (inductionHypothesis reached)
          (forward position next (List.mem_filter.mp isNext).1)
      · split at here
        · exact Nat.le_of_eq (by rw [List.mem_singleton.mp here])
        · cases here

theorem length_ends {expression : Expression Symbol} {position last : Position Symbol}
    (member : last ∈ ends expression position) : last.2.length ≤ position.2.length := by
  induction expression generalizing position last with
  | empty => exact Nat.le_of_eq (by rw [List.mem_singleton.mp member])
  | symbol accepts =>
    rw [ends] at member
    split at member
    · rw [List.mem_singleton.mp member, List.length_tail]
      exact Nat.sub_le _ _
    · cases member
  | sequence first second firstHypothesis secondHypothesis =>
    obtain ⟨between, isBetween, isLast⟩ := List.mem_flatMap.mp member
    exact Nat.le_trans (secondHypothesis isLast) (firstHypothesis isBetween)
  | either first second firstHypothesis secondHypothesis =>
    rcases List.mem_append.mp member with isFirst | isSecond
    · exact firstHypothesis isFirst
    · exact secondHypothesis isSecond
  | start =>
    rw [ends] at member
    split at member
    · cases member
    · exact Nat.le_of_eq (by rw [List.mem_singleton.mp member])
  | finish =>
    rw [ends] at member
    split at member
    · exact Nat.le_of_eq (by rw [List.mem_singleton.mp member])
    · cases member
  | repetition body least most inductionHypothesis =>
    exact length_repeated (fun _ _ => inductionHypothesis) member

/-- At the end of the text no round is required or possible. -/
theorem repeated_at_end (round : Position Symbol → List (Position Symbol)) (fuel : Nat)
    (most : Option Nat) {position : Position Symbol} (atEnd : position.2.length = 0) :
    repeated round fuel 0 most position = [position] := by
  cases fuel with
  | zero => rfl
  | succ fuel =>
    have none : ((round position).filter fun next =>
        decide (0 < 0 ∨ next.2.length < position.2.length)) = [] := by
      refine List.filter_eq_nil_iff.mpr fun next _ goesOn => ?_
      have goesOn := of_decide_eq_true goesOn
      omega
    rw [repeated, none]
    split <;> rfl

/-- The required rounds and the symbols that are left are rounds enough. -/
theorem repeated_fuel {round : Position Symbol → List (Position Symbol)}
    (forward : ∀ position, ∀ next ∈ round position, next.2.length ≤ position.2.length)
    {fuel other least : Nat} {most : Option Nat} {position : Position Symbol}
    (enough : least + position.2.length ≤ fuel) (enoughToo : least + position.2.length ≤ other) :
    repeated round fuel least most position = repeated round other least most position := by
  induction fuel generalizing other least most position with
  | zero =>
    have none : least = 0 := by omega
    subst none
    rw [repeated_at_end _ _ _ (by omega), repeated_at_end _ _ _ (by omega)]
  | succ fuel inductionHypothesis =>
    cases other with
    | zero =>
      have none : least = 0 := by omega
      subst none
      rw [repeated_at_end _ _ _ (by omega), repeated_at_end _ _ _ (by omega)]
    | succ other =>
      have rounds : ((round position).filter fun next =>
            decide (0 < least ∨ next.2.length < position.2.length)).flatMap
          (repeated round fuel (least - 1) (most.map (· - 1))) =
        ((round position).filter fun next =>
            decide (0 < least ∨ next.2.length < position.2.length)).flatMap
          (repeated round other (least - 1) (most.map (· - 1))) := by
        refine List.flatMap_congr fun next member => ?_
        obtain ⟨isNext, goesOn⟩ := List.mem_filter.mp member
        have goesOn := of_decide_eq_true goesOn
        have shorter := forward position next isNext
        exact inductionHypothesis (by omega) (by omega)
      rw [repeated, repeated, rounds]

/-- A repetition takes one more round, or ends where it stands if no more are required. -/
theorem mem_ends_repetition {body : Expression Symbol} {least : Nat} {most : Option Nat}
    {position last : Position Symbol} :
    last ∈ ends (.repetition body least most) position ↔
      (most ≠ some 0 ∧ ∃ next ∈ ends body position,
          (0 < least ∨ next.2.length < position.2.length) ∧
            last ∈ ends (.repetition body (least - 1) (most.map (· - 1))) next) ∨
        ((most = some 0 ∨ least = 0) ∧ last = position) := by
  have forward : ∀ position : Position Symbol, ∀ next ∈ ends body position,
      next.2.length ≤ position.2.length := fun _ _ => length_ends
  show last ∈ repeated (ends body) (least + position.2.length) least most position ↔ _
  cases size : least + position.2.length with
  | zero =>
    have none : least = 0 := by omega
    subst none
    rw [repeated_at_end _ _ _ (by omega), List.mem_singleton]
    constructor
    · exact fun same => Or.inr ⟨Or.inr rfl, same⟩
    · rintro (⟨-, next, -, goesOn, -⟩ | ⟨-, same⟩)
      · omega
      · exact same
  | succ fuel =>
    have later {next : Position Symbol} (isNext : next ∈ ends body position)
        (goesOn : 0 < least ∨ next.2.length < position.2.length) :
        repeated (ends body) fuel (least - 1) (most.map (· - 1)) next =
          ends (.repetition body (least - 1) (most.map (· - 1))) next := by
      have shorter := forward position next isNext
      exact repeated_fuel forward (by omega) (Nat.le_refl _)
    rw [repeated]
    split
    · rename_i noMore
      rw [List.mem_singleton]
      exact ⟨fun same => Or.inr ⟨Or.inl noMore, same⟩, fun either =>
        either.elim (fun goes => absurd noMore goes.1) fun stays => stays.2⟩
    · rename_i more
      rw [List.mem_append, List.mem_flatMap]
      refine or_congr ?_ ?_
      · constructor
        · rintro ⟨next, member, reached⟩
          obtain ⟨isNext, goesOn⟩ := List.mem_filter.mp member
          have goesOn := of_decide_eq_true goesOn
          exact ⟨more, next, isNext, goesOn, later isNext goesOn ▸ reached⟩
        · rintro ⟨-, next, isNext, goesOn, reached⟩
          exact ⟨next, List.mem_filter.mpr ⟨isNext, decide_eq_true goesOn⟩,
            (later isNext goesOn).symm ▸ reached⟩
      · constructor
        · intro here
          split at here
          · rename_i none
            exact ⟨Or.inr none, List.mem_singleton.mp here⟩
          · cases here
        · rintro ⟨noMore | none, same⟩
          · exact absurd noMore more
          · rw [if_pos none]
            exact List.mem_singleton.mpr same

/-! ### Words that an expression takes -/

/-- The expression takes a word wherever it stands. -/
def Takes (expression : Expression Symbol) (word : List Symbol) : Prop :=
  ∀ before rest, ∃ after, (after, rest) ∈ ends expression (before, word ++ rest)

theorem takes_empty : Takes (.empty : Expression Symbol) [] :=
  fun before _ => ⟨before, List.mem_singleton.mpr rfl⟩

theorem takes_symbol {accepts : Symbol → Bool} {symbol : Symbol}
    (accepted : accepts symbol = true) : Takes (.symbol accepts) [symbol] := by
  intro before rest
  refine ⟨true, ?_⟩
  show (true, rest) ∈ if accepts symbol = true then [(true, rest)] else []
  rw [if_pos accepted]
  exact List.mem_singleton.mpr rfl

theorem Takes.sequence {first second : Expression Symbol} {word later : List Symbol}
    (takes : Takes first word) (takesLater : Takes second later) :
    Takes (.sequence first second) (word ++ later) := by
  intro before rest
  obtain ⟨between, isBetween⟩ := takes before (later ++ rest)
  obtain ⟨after, isAfter⟩ := takesLater between rest
  refine ⟨after, ?_⟩
  rw [List.append_assoc]
  exact List.mem_flatMap.mpr ⟨(between, later ++ rest), isBetween, isAfter⟩

theorem Takes.either {first : Expression Symbol} {word : List Symbol} (takes : Takes first word)
    (second : Expression Symbol) : Takes (.either first second) word := by
  intro before rest
  obtain ⟨after, isAfter⟩ := takes before rest
  exact ⟨after, List.mem_append_left _ isAfter⟩

/-- A repetition takes a word of its body as often as it is required to. -/
theorem Takes.repetition {body : Expression Symbol} {word : List Symbol} (takes : Takes body word)
    {least : Nat} {most : Option Nat} (bounds : ∀ bound, most = some bound → least ≤ bound) :
    Takes (.repetition body least most) (List.replicate least word).flatten := by
  induction least generalizing most with
  | zero => exact fun before rest => ⟨before, mem_ends_repetition.mpr (Or.inr ⟨Or.inr rfl, rfl⟩)⟩
  | succ least inductionHypothesis =>
    intro before rest
    have fewer : ∀ bound, most.map (· - 1) = some bound → least ≤ bound := by
      intro bound isBound
      obtain ⟨whole, isWhole, rfl⟩ := Option.map_eq_some_iff.mp isBound
      have atMost := bounds whole isWhole
      omega
    have more : most ≠ some 0 := by
      intro none
      have atMost := bounds 0 none
      omega
    rw [List.replicate_succ, List.flatten_cons, List.append_assoc]
    obtain ⟨between, isBetween⟩ := takes before ((List.replicate least word).flatten ++ rest)
    obtain ⟨after, isAfter⟩ := inductionHypothesis fewer between rest
    exact ⟨after, mem_ends_repetition.mpr (Or.inl ⟨more, _, isBetween,
      Or.inl (Nat.succ_pos least), isAfter⟩)⟩

theorem Takes.matchesWord {expression : Expression Symbol} {word : List Symbol}
    (takes : Takes expression word) : matchesWord expression word = true := by
  obtain ⟨after, isAfter⟩ := takes false []
  rw [List.append_nil] at isAfter
  exact List.any_eq_true.mpr ⟨(after, []), isAfter, rfl⟩

/-- The expression takes one word and nothing else. -/
def TakesOnly (expression : Expression Symbol) (word : List Symbol) : Prop :=
  ∀ position last, last ∈ ends expression position →
    position.2 = word ++ last.2

theorem takesOnly_empty : TakesOnly (.empty : Expression Symbol) [] := by
  intro position last member
  rw [List.mem_singleton.mp member]
  rfl

theorem takesOnly_symbol [DecidableEq Symbol] (symbol : Symbol) :
    TakesOnly (.symbol fun other => decide (other = symbol)) [symbol] := by
  rintro ⟨before, rest⟩ last member
  cases rest with
  | nil => cases member
  | cons other rest =>
    rw [ends] at member
    split at member
    · rename_i accepted
      rw [List.mem_singleton.mp member, show other = symbol from of_decide_eq_true accepted]
      rfl
    · cases member

theorem TakesOnly.sequence {first second : Expression Symbol} {word later : List Symbol}
    (takes : TakesOnly first word) (takesLater : TakesOnly second later) :
    TakesOnly (.sequence first second) (word ++ later) := by
  intro position last member
  obtain ⟨between, isBetween, isLast⟩ := List.mem_flatMap.mp member
  rw [takes position between isBetween, takesLater between last isLast, List.append_assoc]

/-- An expression that takes one word only matches no other. -/
theorem TakesOnly.matchesWord_iff {expression : Expression Symbol} {word other : List Symbol}
    (only : TakesOnly expression word) (takes : Takes expression word) :
    Regex.matchesWord expression other = true ↔ other = word := by
  constructor
  · intro matched
    obtain ⟨last, isLast, atEnd⟩ := List.any_eq_true.mp matched
    have same := only (false, other) last isLast
    rw [List.isEmpty_iff.mp atEnd, List.append_nil] at same
    exact same
  · rintro rfl
    exact takes.matchesWord

end

end Regex
