/-
This file develops glob patterns: words over an alphabet in which some places stand for any
symbol, for a set of symbols, or for any run of symbols, and the text that such a pattern
is written in. In the text a star stands for a run, a question mark for a symbol, brackets
for a set, and a backslash takes the character after it for itself.

A pattern matches no word with fewer symbols than it has places for one, and a place for
one given symbol makes every word that is matched contain it.
-/

import Mathlib.Data.List.Infix

namespace Glob

/-- A place of a pattern. -/
inductive Token (Symbol : Type)
  | literal (symbol : Symbol)
  | any
  | set (accepts : Symbol → Bool)
  | run

section

variable {Symbol : Type}

/-- The place stands for any run of symbols. -/
def Token.isRun : Token Symbol → Bool
  | .run => true
  | _ => false

/-- The place stands for any symbol, or any run of them. -/
def Token.isWild : Token Symbol → Bool
  | .run | .any => true
  | _ => false

theorem Token.isRun_of_not_isWild {token : Token Symbol} (tame : token.isWild = false) :
    token.isRun = false := by
  cases token with
  | run => cases tame
  | literal | any | set => rfl

variable [DecidableEq Symbol]

/-- The place stands for one symbol, which may be this one. -/
def Token.accepts : Token Symbol → Symbol → Bool
  | .literal symbol, other => other = symbol
  | .any, _ => true
  | .set accepts, symbol => accepts symbol
  | .run, _ => false

/-- The words that a pattern matches. -/
def matchesWord : List (Token Symbol) → List Symbol → Bool
  | [], word => word.isEmpty
  | token :: tokens, word =>
      if token.isRun then word.tails.any (matchesWord tokens)
      else word.head?.any token.accepts && matchesWord tokens word.tail

/-- The places for one symbol. -/
def places (tokens : List (Token Symbol)) : List (Token Symbol) :=
  tokens.filter fun token => !token.isRun

theorem matchesWord_run {token : Token Symbol} (isRun : token.isRun = true)
    {tokens : List (Token Symbol)} {word : List Symbol} :
    matchesWord (token :: tokens) word = true ↔
      ∃ rest, rest <:+ word ∧ matchesWord tokens rest = true := by
  rw [matchesWord, if_pos isRun, List.any_eq_true]
  constructor
  · rintro ⟨rest, member, matched⟩
    exact ⟨rest, (List.mem_tails _ _).mp member, matched⟩
  · rintro ⟨rest, suffix, matched⟩
    exact ⟨rest, (List.mem_tails _ _).mpr suffix, matched⟩

theorem matchesWord_place {token : Token Symbol} (noRun : token.isRun = false)
    {tokens : List (Token Symbol)} {word : List Symbol} :
    matchesWord (token :: tokens) word = true ↔
      ∃ symbol rest, word = symbol :: rest ∧ token.accepts symbol = true ∧
        matchesWord tokens rest = true := by
  rw [matchesWord, if_neg (by rw [noRun]; exact Bool.false_ne_true)]
  constructor
  · intro matched
    cases word with
    | nil => cases matched
    | cons symbol rest =>
      obtain ⟨accepted, later⟩ := Bool.and_eq_true_iff.mp matched
      exact ⟨symbol, rest, rfl, accepted, later⟩
  · rintro ⟨symbol, rest, rfl, accepted, later⟩
    exact Bool.and_eq_true_iff.mpr ⟨accepted, later⟩

/-- A word that is matched has a symbol for every place, and no more if the pattern has no run. -/
theorem length_places_le {tokens : List (Token Symbol)} {word : List Symbol}
    (matched : matchesWord tokens word = true) :
    (places tokens).length ≤ word.length ∧
      ((∀ token ∈ tokens, token.isRun = false) → word.length = tokens.length) := by
  induction tokens generalizing word with
  | nil =>
    rw [List.isEmpty_iff.mp matched]
    exact ⟨Nat.le_refl _, fun _ => rfl⟩
  | cons token tokens inductionHypothesis =>
    unfold places
    cases isRun : token.isRun with
    | true =>
      obtain ⟨rest, suffix, later⟩ := (matchesWord_run isRun).mp matched
      have short := (inductionHypothesis later).1
      unfold places at short
      rw [List.filter_cons_of_neg (by rw [isRun]; decide)]
      refine ⟨Nat.le_trans short suffix.length_le, fun none => ?_⟩
      cases isRun.symm.trans (none token List.mem_cons_self)
    | false =>
      obtain ⟨symbol, rest, rfl, -, later⟩ := (matchesWord_place isRun).mp matched
      obtain ⟨short, exactly⟩ := inductionHypothesis later
      unfold places at short
      rw [List.filter_cons_of_pos (by rw [isRun]; decide), List.length_cons, List.length_cons,
        List.length_cons]
      exact ⟨Nat.succ_le_succ short, fun none => congrArg (· + 1)
        (exactly fun other member => none other (List.mem_cons_of_mem _ member))⟩

/-- Every place for a symbol has a symbol in a word that is matched. -/
theorem exists_accepted {tokens : List (Token Symbol)} {word : List Symbol}
    (matched : matchesWord tokens word = true) {token : Token Symbol} (member : token ∈ tokens)
    (place : token.isRun = false) : ∃ symbol ∈ word, token.accepts symbol = true := by
  induction tokens generalizing word with
  | nil => cases member
  | cons first tokens inductionHypothesis =>
    cases isRun : first.isRun with
    | true =>
      obtain ⟨rest, suffix, later⟩ := (matchesWord_run isRun).mp matched
      rcases List.mem_cons.mp member with rfl | member
      · cases isRun.symm.trans place
      · obtain ⟨symbol, inside, accepted⟩ := inductionHypothesis later member
        exact ⟨symbol, suffix.subset inside, accepted⟩
    | false =>
      obtain ⟨symbol, rest, rfl, accepted, later⟩ := (matchesWord_place isRun).mp matched
      rcases List.mem_cons.mp member with rfl | member
      · exact ⟨symbol, List.mem_cons_self, accepted⟩
      · obtain ⟨other, inside, accepted⟩ := inductionHypothesis later member
        exact ⟨other, List.mem_cons_of_mem _ inside, accepted⟩

/-- A pattern without runs, sets and places for any symbol matches its own word only. -/
theorem matchesWord_literals (pattern word : List Symbol) :
    matchesWord (pattern.map Token.literal) word = true ↔ word = pattern := by
  induction pattern generalizing word with
  | nil => exact List.isEmpty_iff
  | cons symbol pattern inductionHypothesis =>
    rw [List.map_cons, matchesWord_place rfl]
    constructor
    · rintro ⟨other, rest, rfl, accepted, later⟩
      rw [(inductionHypothesis rest).mp later, of_decide_eq_true accepted]
    · rintro rfl
      exact ⟨symbol, pattern, rfl, decide_eq_true rfl, (inductionHypothesis pattern).mpr rfl⟩

end

/-! ### The text of a pattern -/

/-- A set of bytes, as it is written: ranges, and whether they are what the set leaves out. -/
structure ByteSet where
  negated : Bool
  ranges : List (UInt8 × UInt8)

/-- The value of a byte as a `char`, which has a sign on some machines. -/
def charValue (signed : Bool) (byte : UInt8) : Int :=
  if signed && 0x80 ≤ byte then byte.toNat - 256 else byte.toNat

/-- The byte is in a range. The ends of the range may be in either order. -/
def between (signed : Bool) (range : UInt8 × UInt8) (byte : UInt8) : Bool :=
  (charValue signed range.1 ≤ charValue signed byte &&
      charValue signed byte ≤ charValue signed range.2) ||
    (charValue signed range.2 ≤ charValue signed byte &&
      charValue signed byte ≤ charValue signed range.1)

/-- The bytes of a set. -/
def ByteSet.accepts (signed : Bool) (set : ByteSet) (byte : UInt8) : Bool :=
  (set.ranges.any fun range => between signed range byte) != set.negated

/-- Add a range. -/
def ByteSet.add (set : ByteSet) (first last : UInt8) : ByteSet :=
  { set with ranges := set.ranges ++ [(first, last)] }

/-- The place that a byte outside of a set makes, if it does not open one. -/
def placeOf (byte : UInt8) : Token UInt8 :=
  if byte = 0x2A then .run else if byte = 0x3F then .any else .literal byte

theorem placeOf_of_not_isWild {byte : UInt8} (tame : (placeOf byte).isWild = false) :
    placeOf byte = .literal byte := by
  unfold placeOf at *
  split at tame
  · cases tame
  · rename_i noStar
    rw [if_neg noStar]
    split at tame
    · cases tame
    · rename_i noQuestion
      exact if_neg noQuestion

section

variable (signed : Bool)

/-- Read a pattern, outside of a set or inside of one, where a caret counts directly after the
bracket. A set that is not closed ends with the pattern. -/
def scan : Option (Bool × ByteSet) → List UInt8 → List (Token UInt8)
  | none, [] => []
  | some (_, set), [] => [.set (set.accepts signed)]
  | none, byte :: rest =>
      if byte = 0x5B then scan (some (true, { negated := false, ranges := [] })) rest
      else if byte = 0x5C then
        match rest with
        | [] => [.literal byte]
        | escaped :: rest => .literal escaped :: scan none rest
      else placeOf byte :: scan none rest
  | some (opened, set), byte :: rest =>
      if byte = 0x5E ∧ opened = true then
        scan (some (false, { negated := true, ranges := [] })) rest
      else if byte = 0x5D then .set (set.accepts signed) :: scan none rest
      else if byte = 0x5C then
        match rest with
        | [] => scan (some (false, set.add byte byte)) []
        | escaped :: rest => scan (some (false, set.add escaped escaped)) rest
      else
        match rest with
        | 0x2D :: last :: rest => scan (some (false, set.add byte last)) rest
        | rest => scan (some (false, set.add byte byte)) rest

/-- The words that a pattern matches, given its text. -/
def matchesText (pattern word : List UInt8) : Bool := matchesWord (scan signed none pattern) word

variable {signed} {opened : Bool} {set : ByteSet} {byte : UInt8} {rest : List UInt8}

theorem scan_place (noSet : byte ≠ 0x5B) (noEscape : byte ≠ 0x5C) :
    scan signed none (byte :: rest) = placeOf byte :: scan signed none rest := by
  rw [scan.eq_def]
  dsimp only
  rw [if_neg noSet, if_neg noEscape]

theorem scan_opens :
    scan signed none (0x5B :: rest) =
      scan signed (some (true, { negated := false, ranges := [] })) rest := by
  rw [scan.eq_def]
  rfl

theorem scan_negates (negates : byte = 0x5E ∧ opened = true) :
    scan signed (some (opened, set)) (byte :: rest) =
      scan signed (some (false, { negated := true, ranges := [] })) rest := by
  rw [scan.eq_def]
  dsimp only
  rw [if_pos negates]

theorem scan_closes :
    scan signed (some (opened, set)) (0x5D :: rest) =
      .set (set.accepts signed) :: scan signed none rest := by
  rw [scan.eq_def]
  dsimp only
  rw [if_neg (fun negates => absurd negates.1 (by decide)), if_pos rfl]

theorem scan_range (notNegates : ¬ (byte = 0x5E ∧ opened = true)) (notLast : byte ≠ 0x5D)
    (noEscape : byte ≠ 0x5C) (last : UInt8) :
    scan signed (some (opened, set)) (byte :: 0x2D :: last :: rest) =
      scan signed (some (false, set.add byte last)) rest := by
  rw [scan.eq_def]
  dsimp only
  rw [if_neg notNegates, if_neg notLast, if_neg noEscape]
  rfl

theorem scan_member (notNegates : ¬ (byte = 0x5E ∧ opened = true)) (notLast : byte ≠ 0x5D)
    (noEscape : byte ≠ 0x5C) (single : ∀ last others, rest ≠ 0x2D :: last :: others) :
    scan signed (some (opened, set)) (byte :: rest) =
      scan signed (some (false, set.add byte byte)) rest := by
  rw [scan.eq_def]
  dsimp only
  rw [if_neg notNegates, if_neg notLast, if_neg noEscape]
  split
  · exact absurd rfl (single _ _)
  · rfl

/-- Without sets and escapes every byte makes a place. -/
theorem scan_eq_map {text : List UInt8} (noSet : 0x5B ∉ text) (noEscape : 0x5C ∉ text) :
    scan signed none text = text.map placeOf := by
  induction text with
  | nil => rfl
  | cons byte rest inductionHypothesis =>
    rw [scan_place (List.ne_of_not_mem_cons noSet).symm (List.ne_of_not_mem_cons noEscape).symm,
      inductionHypothesis (List.not_mem_of_not_mem_cons noSet)
        (List.not_mem_of_not_mem_cons noEscape), List.map_cons]

end

end Glob
