/-
This file develops the ECMAScript syntax of regular expressions, without escapes, classes of
characters that have a name, and groups that begin with a question mark. A text is cut into
its parts, and the parts are read into an expression.

Three results say what is matched without running the expression: ordinary text matches itself
only; a property that goes from the parts of an expression to the whole is had by what is read;
and without assertions some word is taken that is not longer than the parts which are no stars
are many, and is shorter as soon as a part is not an atom.
-/

import BrokerProxy.Library.Glob
import BrokerProxy.Library.Regex

namespace Regex

/-! ### The text of an expression -/

open Glob (ByteSet charValue)

/-- Where implementations differ: a closing bracket or brace that closes nothing may stand for
itself, an atom may have several quantifiers, and a `char` may have a sign. -/
structure Dialect where
  loneClosers : Bool
  stackedQuantifiers : Bool
  signedChars : Bool

/-- A part of the text. -/
inductive Lexeme
  | literal (byte : UInt8)
  | any
  | set (set : ByteSet)
  | bar
  | opening
  | closing
  | start
  | finish
  | quantifier (least : Nat) (most : Option Nat)

/-- What has been read of a part: nothing (and whether the part before it is a quantifier), the
beginning of a set (and whether that is the bracket alone), or that of the bounds of a
quantifier. -/
inductive Reading
  | nothing (quantified : Bool)
  | inSet (opened : Bool) (set : ByteSet)
  | lower (value : Option Nat)
  | upper (least : Nat) (value : Option Nat)

/-- The value of a digit. -/
def digit (byte : UInt8) : Option Nat :=
  if 0x30 ≤ byte && byte ≤ 0x39 then some (byte.toNat - 0x30) else none

/-- The number with one more digit. -/
def extended (value : Option Nat) (byte : UInt8) : Option Nat :=
  (digit byte).map fun last => 10 * value.getD 0 + last

/-- The parts that are one character. -/
def punctuation : List (UInt8 × Lexeme) :=
  [(0x2A, .quantifier 0 none), (0x2B, .quantifier 1 none), (0x3F, .quantifier 0 (some 1)),
    (0x2E, .any), (0x7C, .bar), (0x28, .opening), (0x29, .closing), (0x5E, .start),
    (0x24, .finish)]

def Lexeme.isQuantifier : Lexeme → Bool
  | .quantifier _ _ => true
  | _ => false

/-- The part stands for one symbol. -/
def Lexeme.isAtom : Lexeme → Bool
  | .literal _ | .any | .set _ => true
  | _ => false

/-- The part is a star. -/
def Lexeme.isStar : Lexeme → Bool
  | .quantifier 0 none => true
  | _ => false

/-- The parts of a text. A question mark after a quantifier makes it lazy, which does not change
what is matched. -/
def lex (dialect : Dialect) : Reading → List UInt8 → Option (List Lexeme)
  | .nothing _, [] => some []
  | _, [] => none
  | .nothing quantified, byte :: rest =>
      if byte = 0x3F ∧ quantified = true then lex dialect (.nothing false) rest
      else
        match punctuation.lookup byte with
        | some lexeme => (lex dialect (.nothing lexeme.isQuantifier) rest).map (lexeme :: ·)
        | none =>
            if byte = 0x7B then lex dialect (.lower none) rest
            else if byte = 0x5B then
              lex dialect (.inSet true { negated := false, ranges := [] }) rest
            else if byte = 0x5C ∨ (dialect.loneClosers = false ∧ (byte = 0x5D ∨ byte = 0x7D)) then
              none
            else (lex dialect (.nothing false) rest).map (.literal byte :: ·)
  | .inSet opened set, byte :: rest =>
      if byte = 0x5E ∧ opened = true then
        lex dialect (.inSet false { negated := true, ranges := [] }) rest
      else if byte = 0x5D then (lex dialect (.nothing false) rest).map (.set set :: ·)
      else
        match rest with
        | 0x2D :: last :: others =>
            if last = 0x5D then
              lex dialect (.inSet false (set.add byte byte)) (0x2D :: last :: others)
            else if charValue dialect.signedChars byte ≤ charValue dialect.signedChars last then
              lex dialect (.inSet false (set.add byte last)) others
            else none
        | rest => lex dialect (.inSet false (set.add byte byte)) rest
  | .lower value, byte :: rest =>
      match extended value byte with
      | some value => lex dialect (.lower (some value)) rest
      | none =>
          match value with
          | none => none
          | some least =>
              if byte = 0x7D then
                (lex dialect (.nothing true) rest).map (.quantifier least (some least) :: ·)
              else if byte = 0x2C then lex dialect (.upper least none) rest
              else none
  | .upper least value, byte :: rest =>
      match extended value byte with
      | some value => lex dialect (.upper least (some value)) rest
      | none =>
          if byte = 0x7D ∧ (∀ most ∈ value, least ≤ most) then
            (lex dialect (.nothing true) rest).map (.quantifier least value :: ·)
          else none

/-- A group that is being read: the alternatives before, and in the current one what is in front of
the last part, and the last part with whether it may be repeated. -/
structure Group where
  alternatives : Option (Expression UInt8) := none
  sequence : Expression UInt8 := .empty
  last : Option (Expression UInt8 × Bool) := none

namespace Group

/-- The current alternative. -/
def alternative (group : Group) : Expression UInt8 :=
  match group.last with
  | none => group.sequence
  | some last => .sequence group.sequence last.1

/-- The whole group. -/
def close (group : Group) : Expression UInt8 :=
  match group.alternatives with
  | none => group.alternative
  | some before => .either before group.alternative

/-- Add a part. -/
def push (group : Group) (expression : Expression UInt8) (repeatable : Bool) : Group :=
  { group with sequence := group.alternative, last := some (expression, repeatable) }

end Group

/-- The bytes that end a line. -/
def terminatesLine (byte : UInt8) : Bool := byte = 0x0A || byte = 0x0D

/-- Read the parts into the group at hand, given the groups around it. -/
def parse (dialect : Dialect) : Group → List Group → List Lexeme → Option (Expression UInt8)
  | group, [], [] => some group.close
  | _, _ :: _, [] => none
  | group, around, .literal byte :: rest =>
      parse dialect (group.push (.symbol fun other => decide (other = byte)) true) around rest
  | group, around, .any :: rest =>
      parse dialect (group.push (.symbol fun byte => !terminatesLine byte) true) around rest
  | group, around, .set set :: rest =>
      parse dialect (group.push (.symbol (set.accepts dialect.signedChars)) true) around rest
  | group, around, .start :: rest => parse dialect (group.push .start false) around rest
  | group, around, .finish :: rest => parse dialect (group.push .finish false) around rest
  | group, around, .bar :: rest =>
      parse dialect { alternatives := some group.close } around rest
  | group, around, .opening :: rest => parse dialect {} (group :: around) rest
  | group, outer :: around, .closing :: rest =>
      parse dialect (outer.push group.close true) around rest
  | _, [], .closing :: _ => none
  | group, around, .quantifier least most :: rest =>
      match group.last with
      | some (body, true) =>
          parse dialect
            { group with
              last := some (.repetition body least most, dialect.stackedQuantifiers) }
            around rest
      | _ => none

/-- The expression that a text stands for, if it is one. -/
def expression (dialect : Dialect) (text : List UInt8) : Option (Expression UInt8) :=
  (lex dialect (.nothing false) text).bind (parse dialect {} [])

/-- One of the second bytes follows the first one somewhere. -/
def hasPair (first : UInt8) (seconds : List UInt8) : List UInt8 → Bool
  | [] => false
  | byte :: rest =>
      (byte = first && rest.head?.any seconds.contains) || hasPair first seconds rest

theorem hasPair_rest {first byte : UInt8} {seconds rest : List UInt8}
    (none : hasPair first seconds (byte :: rest) = false) : hasPair first seconds rest = false :=
  (Bool.or_eq_false_iff.mp none).2

/-- The text has no escapes, no classes of characters with a name (which stand inside of a set,
after another bracket), and no groups that begin with a question mark. -/
def covered (text : List UInt8) : Bool :=
  !text.contains 0x5C && !hasPair 0x28 [0x3F] text &&
    !hasPair 0x5B [0x3A, 0x2E, 0x3D] (text.dropWhile (· != 0x5B)).tail

/-! ### Parts of a text -/

/-- A character that stands for itself. -/
def Ordinary (dialect : Dialect) (byte : UInt8) : Prop :=
  punctuation.lookup byte = none ∧ byte ≠ 0x7B ∧ byte ≠ 0x5B ∧
    ¬ (byte = 0x5C ∨ (dialect.loneClosers = false ∧ (byte = 0x5D ∨ byte = 0x7D)))

instance (dialect : Dialect) (byte : UInt8) : Decidable (Ordinary dialect byte) := by
  unfold Ordinary
  infer_instance

variable {dialect : Dialect}

theorem lex_ordinary {byte : UInt8} (ordinary : Ordinary dialect byte) (quantified : Bool)
    (rest : List UInt8) :
    lex dialect (.nothing quantified) (byte :: rest) =
      (lex dialect (.nothing false) rest).map (.literal byte :: ·) := by
  obtain ⟨single, noBrace, noBracket, closes⟩ := ordinary
  have noQuestion : ¬ (byte = 0x3F ∧ quantified = true) := by
    rintro ⟨rfl, -⟩
    cases single
  rw [lex, if_neg noQuestion, single]
  dsimp only
  rw [if_neg noBrace, if_neg noBracket, if_neg closes]

/-- Ordinary text is read character by character. -/
theorem lex_of_ordinary {text : List UInt8} (ordinary : ∀ byte ∈ text, Ordinary dialect byte) :
    lex dialect (.nothing false) text = some (text.map .literal) := by
  induction text with
  | nil => rfl
  | cons byte rest inductionHypothesis =>
    obtain ⟨first, others⟩ := List.forall_mem_cons.mp ordinary
    rw [lex_ordinary first, inductionHypothesis others]
    rfl

/-- What a part says about the text that it comes from. -/
def Lexeme.Fits (dialect : Dialect) (text : List UInt8) : Lexeme → Prop
  | .literal byte => byte ∈ text ∧ Ordinary dialect byte
  | .set _ => 0x5B ∈ text
  | .start => 0x5E ∈ text
  | .finish => 0x24 ∈ text
  | .quantifier least most => ∀ bound, most = some bound → least ≤ bound
  | _ => True

theorem mem_punctuation {byte : UInt8} {lexeme : Lexeme}
    (found : punctuation.lookup byte = some lexeme) : (byte, lexeme) ∈ punctuation := by
  obtain ⟨front, back, split, -⟩ := List.lookup_eq_some_iff.mp found
  rw [split]
  exact List.mem_append_right _ List.mem_cons_self

theorem fits_of_punctuation {text : List UInt8} {byte : UInt8} {lexeme : Lexeme}
    (found : punctuation.lookup byte = some lexeme) (member : byte ∈ text) :
    lexeme.Fits dialect text := by
  have each : ∀ entry ∈ punctuation, entry.1 ∈ text → entry.2.Fits dialect text := by
    simp [punctuation, Lexeme.Fits]
  exact each _ (mem_punctuation found) member

/-- A part in front of parts that have a property. -/
theorem forall_mem_of_map_cons {property : Lexeme → Prop} {first : Lexeme}
    {others : Option (List Lexeme)} {lexemes : List Lexeme}
    (read : others.map (first :: ·) = some lexemes) (holds : property first)
    (later : ∀ rest, others = some rest → ∀ lexeme ∈ rest, property lexeme) :
    ∀ lexeme ∈ lexemes, property lexeme := by
  obtain ⟨rest, isRest, rfl⟩ := Option.map_eq_some_iff.mp read
  exact List.forall_mem_cons.mpr ⟨holds, later rest isRest⟩

/-- Every part fits the text that it is read from. -/
theorem lex_fits {text whole : List UInt8} {reading : Reading} {lexemes : List Lexeme}
    (read : lex dialect reading text = some lexemes) (inside : ∀ byte ∈ text, byte ∈ whole)
    (opened : ∀ opened set, reading = .inSet opened set → 0x5B ∈ whole) :
    ∀ lexeme ∈ lexemes, lexeme.Fits dialect whole := by
  fun_induction lex dialect reading text generalizing lexemes with
  | case1 =>
    cases read
    exact List.forall_mem_nil _
  | case2 | case7 | case13 | case16 | case19 | case22 => cases read
  | case3 quantified byte rest lazy inductionHypothesis =>
    exact inductionHypothesis read (List.forall_mem_cons.mp inside).2 nofun
  | case4 quantified byte rest notLazy lexeme found inductionHypothesis =>
    obtain ⟨first, others⟩ := List.forall_mem_cons.mp inside
    exact forall_mem_of_map_cons read (fits_of_punctuation found first)
      fun rest isRest => inductionHypothesis isRest others nofun
  | case5 quantified rest notLazy found inductionHypothesis =>
    exact inductionHypothesis read (List.forall_mem_cons.mp inside).2 nofun
  | case6 quantified rest notLazy found noBrace inductionHypothesis =>
    obtain ⟨first, others⟩ := List.forall_mem_cons.mp inside
    exact inductionHypothesis read others fun _ _ _ => first
  | case8 quantified byte rest notLazy found noBrace noBracket closes inductionHypothesis =>
    obtain ⟨first, others⟩ := List.forall_mem_cons.mp inside
    exact forall_mem_of_map_cons read ⟨first, found, noBrace, noBracket, closes⟩
      fun rest isRest => inductionHypothesis isRest others nofun
  | case9 opening set byte rest negates inductionHypothesis =>
    exact inductionHypothesis read (List.forall_mem_cons.mp inside).2
      fun _ _ _ => opened _ _ rfl
  | case10 opening set rest notNegates inductionHypothesis =>
    exact forall_mem_of_map_cons read (opened _ _ rfl)
      fun rest isRest => inductionHypothesis isRest (List.forall_mem_cons.mp inside).2 nofun
  | case11 opening set byte notNegates notLast others inductionHypothesis =>
    exact inductionHypothesis read (List.forall_mem_cons.mp inside).2
      fun _ _ _ => opened _ _ rfl
  | case12 opening set byte notNegates notLast last others isRange ordered inductionHypothesis =>
    obtain ⟨-, inside⟩ := List.forall_mem_cons.mp inside
    obtain ⟨-, inside⟩ := List.forall_mem_cons.mp inside
    exact inductionHypothesis read (List.forall_mem_cons.mp inside).2
      fun _ _ _ => opened _ _ rfl
  | case14 opening set byte notNegates notLast rest single inductionHypothesis =>
    exact inductionHypothesis read (List.forall_mem_cons.mp inside).2
      fun _ _ _ => opened _ _ rfl
  | case15 before byte rest value found inductionHypothesis
  | case18 rest least notLast found inductionHypothesis
  | case20 least before byte rest value found inductionHypothesis =>
    exact inductionHypothesis read (List.forall_mem_cons.mp inside).2 nofun
  | case17 rest least found inductionHypothesis =>
    refine forall_mem_of_map_cons read ?_
      fun rest isRest => inductionHypothesis isRest (List.forall_mem_cons.mp inside).2 nofun
    rintro bound same
    cases same
    exact Nat.le_refl _
  | case21 least value byte rest found last inductionHypothesis =>
    exact forall_mem_of_map_cons read (fun bound isBound => last.2 bound isBound)
      fun rest isRest => inductionHypothesis isRest (List.forall_mem_cons.mp inside).2 nofun

/-! ### What is read from the parts -/

/-- A property that an expression has when its parts have it. -/
structure Compositional (property : Expression UInt8 → Prop) : Prop where
  empty : property .empty
  sequence : ∀ {first second}, property first → property second →
    property (.sequence first second)
  either : ∀ {first second}, property first → property second → property (.either first second)
  repetition : ∀ {body least most}, property body →
    (∀ bound, most = some bound → least ≤ bound) → property (.repetition body least most)

/-- The expression that a part stands for has the property, and the bounds of a quantifier are in
order. -/
def Lexeme.Has (dialect : Dialect) (property : Expression UInt8 → Prop) : Lexeme → Prop
  | .literal byte => property (.symbol fun other => decide (other = byte))
  | .any => property (.symbol fun byte => !terminatesLine byte)
  | .set members => property (.symbol (members.accepts dialect.signedChars))
  | .start => property .start
  | .finish => property .finish
  | .quantifier least most => ∀ bound, most = some bound → least ≤ bound
  | _ => True

/-- Everything that is read of a group has the property. -/
structure Group.Has (property : Expression UInt8 → Prop) (group : Group) : Prop where
  alternatives : ∀ before, group.alternatives = some before → property before
  sequence : property group.sequence
  last : ∀ last, group.last = some last → property last.1

namespace Group.Has

variable {property : Expression UInt8 → Prop} {group : Group}

theorem fresh (composes : Compositional property) : ({} : Group).Has property :=
  ⟨nofun, composes.empty, nofun⟩

theorem alternative (composes : Compositional property) (has : group.Has property) :
    property group.alternative := by
  unfold Group.alternative
  cases isLast : group.last with
  | none => exact has.sequence
  | some last => exact composes.sequence has.sequence (has.last last isLast)

theorem close (composes : Compositional property) (has : group.Has property) :
    property group.close := by
  unfold Group.close
  cases isBefore : group.alternatives with
  | none => exact has.alternative composes
  | some before =>
    exact composes.either (has.alternatives before isBefore) (has.alternative composes)

theorem push (composes : Compositional property) (has : group.Has property)
    {expression : Expression UInt8} (holds : property expression) (repeatable : Bool) :
    (group.push expression repeatable).Has property := by
  refine ⟨has.alternatives, has.alternative composes, fun last isLast => ?_⟩
  cases isLast
  exact holds

end Group.Has

/-- An expression has what its parts have. -/
theorem parse_has {property : Expression UInt8 → Prop} (composes : Compositional property)
    {group : Group} {around : List Group} {lexemes : List Lexeme}
    {expression : Expression UInt8}
    (parsed : parse dialect group around lexemes = some expression)
    (has : group.Has property) (hasAround : ∀ outer ∈ around, outer.Has property)
    (parts : ∀ lexeme ∈ lexemes, lexeme.Has dialect property) : property expression := by
  fun_induction parse dialect group around lexemes with
  | case1 group =>
    cases parsed
    exact has.close composes
  | case2 | case11 | case13 => cases parsed
  | case3 group around byte rest inductionHypothesis
  | case4 group around rest inductionHypothesis
  | case5 group around set rest inductionHypothesis
  | case6 group around rest inductionHypothesis
  | case7 group around rest inductionHypothesis =>
    obtain ⟨first, others⟩ := List.forall_mem_cons.mp parts
    exact inductionHypothesis parsed (has.push composes first _) hasAround others
  | case8 group around rest inductionHypothesis =>
    refine inductionHypothesis parsed ⟨fun before isBefore => ?_, composes.empty, nofun⟩ hasAround
      (List.forall_mem_cons.mp parts).2
    cases isBefore
    exact has.close composes
  | case9 group around rest inductionHypothesis =>
    exact inductionHypothesis parsed (.fresh composes) (List.forall_mem_cons.mpr ⟨has, hasAround⟩)
      (List.forall_mem_cons.mp parts).2
  | case10 group outer around rest inductionHypothesis =>
    obtain ⟨hasOuter, hasAround⟩ := List.forall_mem_cons.mp hasAround
    exact inductionHypothesis parsed (hasOuter.push composes (has.close composes) true) hasAround
      (List.forall_mem_cons.mp parts).2
  | case12 group around least most rest body isLast inductionHypothesis =>
    obtain ⟨bounds, others⟩ := List.forall_mem_cons.mp parts
    refine inductionHypothesis parsed ⟨has.alternatives, has.sequence, fun last isLast => ?_⟩
      hasAround others
    cases isLast
    exact composes.repetition (has.last _ ‹_›) bounds

/-! ### Literal text -/

theorem Group.close_eq_alternative {group : Group} (single : group.alternatives = none) :
    group.close = group.alternative := by
  rw [Group.close, single]

/-- Literal parts take their own text, and nothing else. -/
theorem parse_literals (dialect : Dialect) {group : Group} {front : List UInt8}
    (takes : Takes group.alternative front) (only : TakesOnly group.alternative front)
    (single : group.alternatives = none) (text : List UInt8) :
    ∃ expression, parse dialect group [] (text.map .literal) = some expression ∧
      Takes expression (front ++ text) ∧ TakesOnly expression (front ++ text) := by
  induction text generalizing group front with
  | nil =>
    rw [List.append_nil]
    rw [← Group.close_eq_alternative single] at takes only
    exact ⟨group.close, rfl, takes, only⟩
  | cons byte rest inductionHypothesis =>
    let pushed := group.push (.symbol fun other => decide (other = byte)) true
    have takesByte : Takes pushed.alternative (front ++ [byte]) :=
      takes.sequence (takes_symbol (decide_eq_true rfl))
    have onlyByte : TakesOnly pushed.alternative (front ++ [byte]) :=
      only.sequence (takesOnly_symbol byte)
    have later := inductionHypothesis takesByte onlyByte single
    rw [List.append_assoc] at later
    rw [List.map_cons, parse]
    exact later

/-- Ordinary text is an expression that matches itself only. -/
theorem expression_of_ordinary {text : List UInt8}
    (ordinary : ∀ byte ∈ text, Ordinary dialect byte) :
    ∃ read, expression dialect text = some read ∧
      ∀ word, matchesWord read word = true ↔ word = text := by
  have nothing : Takes ({} : Group).alternative [] := takes_empty
  obtain ⟨read, parsed, takes, only⟩ :=
    parse_literals dialect nothing takesOnly_empty rfl text
  refine ⟨read, ?_, fun word => only.matchesWord_iff takes⟩
  rw [expression, lex_of_ordinary ordinary]
  exact parsed

/-! ### Short words -/

/-- A part that takes one symbol, or adds to the words that are taken none that is longer. -/
def Lexeme.Light (dialect : Dialect) : Lexeme → Prop
  | .set members => ∃ byte, members.accepts dialect.signedChars byte = true
  | .quantifier least most => least ≤ 1 ∧ ∀ bound, most = some bound → least ≤ bound
  | .start | .finish => False
  | _ => True

/-- Words that are taken by what has been read of a group: one by what is in front of the last part,
and one by the last part. They are not longer than the size, which counts the parts that are no
stars, and there is slack as soon as a part was no atom. -/
structure Group.Short (group : Group) (front back : List UInt8) (size : Nat) (slack : Bool) :
    Prop where
  sequence : Takes group.sequence front
  last : ∀ last, group.last = some last → Takes last.1 back
  fresh : group.last = none → back = []
  alternatives : ∀ before, group.alternatives = some before →
    slack = true ∧ ∃ word, Takes before word ∧ word.length < size
  fits : front.length + back.length + slack.toNat ≤ size
  tight : slack = false → back = [] → group.last = none

namespace Group.Short

variable {group : Group} {front back : List UInt8} {size : Nat} {slack : Bool}

theorem nothing : ({} : Group).Short [] [] 0 false :=
  ⟨takes_empty, nofun, fun _ => rfl, nofun, Nat.le_refl _, fun _ _ => rfl⟩

theorem alternative (short : group.Short front back size slack) :
    Takes group.alternative (front ++ back) := by
  unfold Group.alternative
  cases isLast : group.last with
  | none =>
    rw [short.fresh isLast, List.append_nil]
    exact short.sequence
  | some last => exact short.sequence.sequence (short.last last isLast)

theorem close (short : group.Short front back size slack) :
    ∃ word, Takes group.close word ∧ word.length + slack.toNat ≤ size := by
  unfold Group.close
  cases isBefore : group.alternatives with
  | none =>
    refine ⟨front ++ back, short.alternative, ?_⟩
    rw [List.length_append]
    exact short.fits
  | some before =>
    obtain ⟨hasSlack, word, takes, fits⟩ := short.alternatives before isBefore
    refine ⟨word, takes.either _, ?_⟩
    rw [hasSlack]
    exact fits

/-- One more part that is an atom. -/
theorem push_atom (short : group.Short front back size slack) {leaf : Expression UInt8}
    {byte : UInt8} (takes : Takes leaf [byte]) :
    (group.push leaf true).Short (front ++ back) [byte] (size + 1) slack := by
  refine ⟨short.alternative, fun last isLast => ?_, nofun, fun before isBefore => ?_, ?_, nofun⟩
  · cases isLast
    exact takes
  · obtain ⟨hasSlack, word, takesWord, fits⟩ := short.alternatives before isBefore
    exact ⟨hasSlack, word, takesWord, Nat.lt_succ_of_lt fits⟩
  · have fits := short.fits
    rw [List.length_append, List.length_singleton]
    omega

/-- A part that is no atom makes slack. -/
theorem spend (short : group.Short front back size slack) :
    group.Short front back (size + 1) true := by
  refine ⟨short.sequence, short.last, short.fresh, fun before isBefore => ?_, ?_, nofun⟩
  · obtain ⟨-, word, takes, fits⟩ := short.alternatives before isBefore
    exact ⟨rfl, word, takes, Nat.lt_succ_of_lt fits⟩
  · have fits := short.fits
    exact Nat.succ_le_succ (Nat.le_trans (Nat.le_add_right _ _) fits)

/-- A group inside, with the bracket that opens it and the one that closes it. -/
theorem push_group (short : group.Short front back size slack) {inner : Expression UInt8}
    {word : List UInt8} {innerSize : Nat} (takes : Takes inner word)
    (innerFits : word.length ≤ innerSize) :
    (group.push inner true).Short (front ++ back) word (size + innerSize + 1) true := by
  refine ⟨short.alternative, fun last isLast => ?_, nofun, fun before isBefore => ?_, ?_, nofun⟩
  · cases isLast
    exact takes
  · obtain ⟨-, other, takesOther, fits⟩ := short.alternatives before isBefore
    exact ⟨rfl, other, takesOther, by omega⟩
  · have fits := short.fits
    rw [List.length_append]
    show front.length + back.length + word.length + 1 ≤ size + innerSize + 1
    omega

/-- Another alternative. -/
theorem bar (short : group.Short front back size slack) :
    Group.Short { alternatives := some group.close } [] [] (size + 1) true := by
  refine ⟨takes_empty, nofun, fun _ => rfl, fun before isBefore => ?_, ?_, nofun⟩
  · obtain ⟨word, takes, fits⟩ := short.close
    cases isBefore
    exact ⟨rfl, word, takes, by omega⟩
  · exact Nat.succ_le_succ (Nat.zero_le size)

/-- A star does without the last part. -/
theorem star (short : group.Short front back size slack) {body : Expression UInt8}
    (isLast : group.last = some (body, true)) (repeatable : Bool) :
    Group.Short { group with last := some (.repetition body 0 none, repeatable) }
      front [] size true := by
  have skips : Takes (.repetition body 0 none) [] :=
    (short.last _ isLast).repetition fun _ _ => Nat.zero_le _
  refine ⟨short.sequence, fun last isLast => ?_, nofun, fun before isBefore => ?_, ?_, nofun⟩
  · cases isLast
    exact skips
  · exact ⟨rfl, (short.alternatives before isBefore).2⟩
  · have fits := short.fits
    show front.length + 0 + 1 ≤ size
    cases slack with
    | true => exact Nat.le_trans (Nat.succ_le_succ (Nat.le_add_right _ _)) fits
    | false =>
      have some : back ≠ [] := fun none => by cases isLast.symm.trans (short.tight rfl none)
      have long := List.length_pos_iff.mpr some
      omega

/-- Another quantifier that requires one round at most does with the last part as it is. -/
theorem quantify (short : group.Short front back size slack) {body : Expression UInt8}
    (isLast : group.last = some (body, true)) {least : Nat} {most : Option Nat} (few : least ≤ 1)
    (bounds : ∀ bound, most = some bound → least ≤ bound) (repeatable : Bool) :
    Group.Short { group with last := some (.repetition body least most, repeatable) }
      front (List.replicate least back).flatten (size + 1) true := by
  refine ⟨short.sequence, fun last isLast => ?_, nofun, short.spend.alternatives, ?_, nofun⟩
  · cases isLast
    exact (short.last _ ‹_›).repetition bounds
  · have fits := short.fits
    have noLonger : least * back.length ≤ 1 * back.length := Nat.mul_le_mul_right _ few
    rw [List.length_flatten, List.map_replicate, List.sum_replicate_nat]
    show front.length + least * back.length + 1 ≤ size + 1
    omega

end Group.Short

/-- The groups around the one at hand, with the sum of their sizes. -/
inductive ShortAround : List Group → Nat → Prop
  | nil : ShortAround [] 0
  | cons {outer : Group} {front back : List UInt8} {size : Nat} {slack : Bool}
      {around : List Group} {total : Nat} (short : outer.Short front back size slack)
      (others : ShortAround around total) : ShortAround (outer :: around) (size + total)

/-- What fits the parts after an atom fits them with the atom. -/
theorem fits_atom {lexeme : Lexeme} (atom : lexeme.isAtom = true) (noStar : lexeme.isStar = false)
    {rest : List Lexeme} {length size sum : Nat} {before : Bool}
    (fits : length + (before || rest.any (!·.isAtom)).toNat ≤
      size + 1 + sum + rest.countP (!·.isStar)) :
    length + (before || (lexeme :: rest).any (!·.isAtom)).toNat ≤
      size + sum + (lexeme :: rest).countP (!·.isStar) := by
  rw [List.countP_cons_of_pos (by rw [noStar]; rfl), List.any_cons, atom, Bool.not_true,
    Bool.false_or]
  omega

/-- What leaves room for one symbol fits with a part that is neither an atom nor a star. -/
theorem fits_other {lexeme : Lexeme} (noStar : lexeme.isStar = false) {rest : List Lexeme}
    {length size sum : Nat} (before : Bool)
    (fits : length + 1 ≤ size + 1 + sum + rest.countP (!·.isStar)) :
    length + (before || (lexeme :: rest).any (!·.isAtom)).toNat ≤
      size + sum + (lexeme :: rest).countP (!·.isStar) := by
  have atMost := Bool.toNat_le (before || (lexeme :: rest).any (!·.isAtom))
  rw [List.countP_cons_of_pos (by rw [noStar]; rfl)]
  omega

/-- Light parts take a word that is not longer than the parts without stars are many, and shorter
if a part is no atom. -/
theorem parse_short {group : Group} {around : List Group} {lexemes : List Lexeme}
    {expression : Expression UInt8}
    (parsed : parse dialect group around lexemes = some expression)
    (light : ∀ lexeme ∈ lexemes, lexeme.Light dialect)
    {front back : List UInt8} {size total : Nat} {slack : Bool}
    (short : group.Short front back size slack) (outer : ShortAround around total) :
    ∃ word, Takes expression word ∧
      word.length + (slack || !around.isEmpty || lexemes.any (!·.isAtom)).toNat ≤
        size + total + lexemes.countP (!·.isStar) := by
  fun_induction parse dialect group around lexemes generalizing front back size total slack with
  | case1 group =>
    cases parsed
    cases outer
    obtain ⟨word, takes, fits⟩ := short.close
    refine ⟨word, takes, ?_⟩
    rw [List.isEmpty_nil, List.any_nil, Bool.not_true, Bool.or_false, Bool.or_false]
    exact fits
  | case2 | case11 | case13 => cases parsed
  | case3 group around byte rest inductionHypothesis =>
    obtain ⟨word, takes, fits⟩ := inductionHypothesis parsed (List.forall_mem_cons.mp light).2
      (short.push_atom (takes_symbol (decide_eq_true rfl))) outer
    exact ⟨word, takes, fits_atom rfl rfl fits⟩
  | case4 group around rest inductionHypothesis =>
    have accepted : (!terminatesLine 0x61) = true := rfl
    obtain ⟨word, takes, fits⟩ := inductionHypothesis parsed (List.forall_mem_cons.mp light).2
      (short.push_atom (takes_symbol accepted)) outer
    exact ⟨word, takes, fits_atom rfl rfl fits⟩
  | case5 group around set rest inductionHypothesis =>
    obtain ⟨⟨byte, accepted⟩, others⟩ := List.forall_mem_cons.mp light
    obtain ⟨word, takes, fits⟩ := inductionHypothesis parsed others
      (short.push_atom (takes_symbol accepted)) outer
    exact ⟨word, takes, fits_atom rfl rfl fits⟩
  | case6 group around rest inductionHypothesis
  | case7 group around rest inductionHypothesis =>
    exact (light _ List.mem_cons_self).elim
  | case8 group around rest inductionHypothesis =>
    obtain ⟨word, takes, fits⟩ := inductionHypothesis parsed (List.forall_mem_cons.mp light).2
      short.bar outer
    exact ⟨word, takes, fits_other rfl _ fits⟩
  | case9 group around rest inductionHypothesis =>
    obtain ⟨word, takes, fits⟩ := inductionHypothesis parsed (List.forall_mem_cons.mp light).2
      .nothing (.cons short.spend outer)
    have fits : word.length + 1 ≤ 0 + ((size + 1) + total) + _ := fits
    refine ⟨word, takes, fits_other rfl _ ?_⟩
    omega
  | case10 group outerGroup around rest inductionHypothesis =>
    obtain ⟨inner, takesInner, innerFits⟩ := short.close
    cases outer with
    | @cons _ _ _ outerSize _ _ total outerShort outer =>
      obtain ⟨word, takes, fits⟩ := inductionHypothesis parsed (List.forall_mem_cons.mp light).2
        (outerShort.push_group takesInner (Nat.le_trans (Nat.le_add_right _ _) innerFits)) outer
      refine ⟨word, takes, fits_other rfl _ ?_⟩
      have fits : word.length + 1 ≤ (outerSize + size + 1) + total + _ := fits
      omega
  | case12 group around least most rest body isLast inductionHypothesis =>
    obtain ⟨⟨few, bounds⟩, others⟩ := List.forall_mem_cons.mp light
    cases kind : Lexeme.isStar (.quantifier least most) with
    | true =>
      cases least with
      | succ least => cases kind
      | zero =>
        cases most with
        | some bound => cases kind
        | none =>
          obtain ⟨word, takes, fits⟩ := inductionHypothesis parsed others
            (short.star isLast _) outer
          refine ⟨word, takes, ?_⟩
          have atMost := Bool.toNat_le (slack || !around.isEmpty ||
            (Lexeme.quantifier 0 none :: rest).any (!·.isAtom))
          have fits : word.length + 1 ≤ size + total + _ := fits
          rw [List.countP_cons_of_neg (by rw [kind]; decide)]
          omega
    | false =>
      obtain ⟨word, takes, fits⟩ := inductionHypothesis parsed others
        (short.quantify isLast few bounds _) outer
      exact ⟨word, takes, fits_other kind _ fits⟩

end Regex
