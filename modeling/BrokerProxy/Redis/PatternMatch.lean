/-
This file models which messages a flow that `subscriber` has made takes, and compares them
with the messages that the server delivers for the pattern of the flow. The server reads the
pattern as a glob; `BrokerRedis::match` reads the same string as an ECMAScript regular
expression, and beside it `subscriber` compares the strings.

The two agree for the patterns whose characters all stand for themselves in a regular
expression. The argument for the converse is about lengths: a quantifier of the expression
takes away the need for a symbol or leaves it as it is, and the same character of the glob
is a place for one more symbol or for a run of them, so that the expression takes a word that
is too short for the glob. Left open are expressions with assertions, which may match nothing
at all, and those whose sets the two syntaxes read differently.
-/

import BrokerProxy.Library.RegexText
import BrokerProxy.Redis.ReplyStream

namespace BrokerProxy.Redis

open Glob Regex

/-! ### One text in both syntaxes -/

/-- The text is read outside of sets. -/
def outside : Reading → Bool
  | .nothing _ => true
  | _ => false

/-- The part that has been read is a quantifier. -/
def quantified : Reading → Bool
  | .nothing quantified => quantified
  | _ => false

/-- The same state of reading the text as a glob. -/
def globReading : Reading → Option (Option (Bool × ByteSet))
  | .nothing _ => some none
  | .inSet opened set => some (some (opened, set))
  | _ => none

/-- What the parts of an expression have to do with the places of the glob that is read from the
same text. -/
structure Shared (signed : Bool) (reading : Reading) (text : Bytes) (lexemes : List Lexeme)
    (tokens : List (Token UInt8)) : Prop where
  sets : ∀ members, .set members ∈ lexemes → .set (members.accepts signed) ∈ tokens
  quantifiers : ∀ least most, .quantifier least most ∈ lexemes → least ≤ 1
  count : lexemes.countP (!·.isStar) ≤ (places tokens).length
  tame : quantified reading = false → lexemes.any (!·.isAtom) = false →
    ∀ token ∈ tokens, token.isWild = false
  short : tokens.length ≤ text.length
  shorter : outside reading = true → 0x5B ∈ text → tokens.length < text.length

namespace Shared

variable {signed : Bool} {reading later : Reading} {text rest : Bytes} {lexemes : List Lexeme}
  {tokens : List (Token UInt8)}

/-- Some text that makes neither a part nor a place. -/
theorem skip (shared : Shared signed later rest lexemes tokens)
    (fresh : quantified later = false) (longer : rest.length < text.length) :
    Shared signed reading text lexemes tokens := by
  have short := Nat.lt_of_le_of_lt shared.short longer
  exact ⟨shared.sets, shared.quantifiers, shared.count, fun _ => shared.tame fresh,
    Nat.le_of_lt short, fun _ _ => short⟩

/-- A character that makes a part and a place. -/
theorem cons (shared : Shared signed later rest lexemes tokens) {byte : UInt8} {lexeme : Lexeme}
    {token : Token UInt8}
    (sets : ∀ members, lexeme = .set members → token = .set (members.accepts signed))
    (quantifiers : ∀ least most, lexeme = .quantifier least most → least ≤ 1)
    (run : token.isRun = lexeme.isStar)
    (tame : lexeme.isAtom = true → quantified later = false ∧ token.isWild = false)
    (stays : outside reading = true → byte ≠ 0x5B ∧ outside later = true) :
    Shared signed reading (byte :: rest) (lexeme :: lexemes) (token :: tokens) where
  sets members member := by
    rcases List.mem_cons.mp member with same | member
    · rw [sets members same.symm]
      exact List.mem_cons_self
    · exact List.mem_cons_of_mem _ (shared.sets members member)
  quantifiers least most member := by
    rcases List.mem_cons.mp member with same | member
    · exact quantifiers least most same.symm
    · exact shared.quantifiers least most member
  count := by
    have count := shared.count
    unfold places at count ⊢
    rw [List.countP_cons, List.filter_cons, run]
    split
    · exact Nat.succ_le_succ count
    · exact count
  tame _ atoms := by
    rw [List.any_cons, Bool.or_eq_false_iff, Bool.not_eq_false'] at atoms
    obtain ⟨fresh, first⟩ := tame atoms.1
    exact List.forall_mem_cons.mpr ⟨first, shared.tame fresh atoms.2⟩
  short := Nat.succ_le_succ shared.short
  shorter here member := by
    obtain ⟨other, stays⟩ := stays here
    exact Nat.succ_lt_succ (shared.shorter stays (List.mem_of_ne_of_mem other.symm member))

end Shared

/-- The parts that are one character, and the places of the same characters. -/
theorem punctuation_placeOf {byte : UInt8} {lexeme : Lexeme}
    (found : punctuation.lookup byte = some lexeme) :
    (placeOf byte).isRun = lexeme.isStar ∧ byte ≠ 0x5B ∧ byte ≠ 0x5C ∧
      (lexeme.isAtom = true → lexeme.isQuantifier = false ∧ (placeOf byte).isWild = false) ∧
      (∀ members, lexeme ≠ .set members) ∧
      ∀ least most, lexeme = .quantifier least most → least ≤ 1 := by
  have places : ∀ entry ∈ punctuation, (placeOf entry.1).isRun = entry.2.isStar ∧
      entry.1 ≠ 0x5B ∧ entry.1 ≠ 0x5C ∧ (entry.2.isAtom = true →
        entry.2.isQuantifier = false ∧ (placeOf entry.1).isWild = false) := by
    decide
  have shapes : ∀ entry ∈ punctuation, (∀ members, entry.2 ≠ .set members) ∧
      ∀ least most, entry.2 = .quantifier least most → least ≤ 1 := by
    simp [punctuation]
  obtain ⟨run, noBracket, noBackslash, tame⟩ := places _ (mem_punctuation found)
  exact ⟨run, noBracket, noBackslash, tame, shapes _ (mem_punctuation found)⟩

/-- A character that stands for itself in an expression, and its place in the glob. -/
theorem Ordinary.placeOf {dialect : Dialect} {byte : UInt8} (ordinary : Ordinary dialect byte) :
    Glob.placeOf byte = .literal byte ∧ byte ≠ 0x5B ∧ byte ≠ 0x5C := by
  obtain ⟨single, -, noBracket, closes⟩ := ordinary
  refine ⟨?_, noBracket, fun same => closes (Or.inl same)⟩
  unfold Glob.placeOf
  rw [if_neg, if_neg]
  · rintro rfl
    cases single
  · rintro rfl
    cases single

/-- A text without escapes and braces, and without a hyphen at the end of a set. -/
structure Alike (reading : Reading) (text : Bytes) : Prop where
  noBrace : 0x7B ∉ text
  noEscape : 0x5C ∉ text
  hyphen : (outside reading = true → 0x5B ∈ text) → hasPair 0x2D [0x5D] text = false

namespace Alike

variable {reading later : Reading} {byte : UInt8} {rest : Bytes}

/-- Outside of a set. -/
theorem stays (alike : Alike reading (byte :: rest)) (away : outside later = true) :
    Alike later rest where
  noBrace := List.not_mem_of_not_mem_cons alike.noBrace
  noEscape := List.not_mem_of_not_mem_cons alike.noEscape
  hyphen opens := hasPair_rest (alike.hyphen fun _ => List.mem_cons_of_mem _ (opens away))

/-- Inside of a set, and where one begins. -/
theorem inside (alike : Alike reading (byte :: rest))
    (within : outside reading = true → byte = 0x5B) : Alike later rest where
  noBrace := List.not_mem_of_not_mem_cons alike.noBrace
  noEscape := List.not_mem_of_not_mem_cons alike.noEscape
  hyphen _ := hasPair_rest (alike.hyphen fun away => within away ▸ List.mem_cons_self)

end Alike

/-- Such a text is read in both syntaxes alike. -/
theorem lex_shared {dialect : Dialect} {reading : Reading} {text : Bytes} {lexemes : List Lexeme}
    (read : lex dialect reading text = some lexemes) {state : Option (Bool × ByteSet)}
    (same : globReading reading = some state) (alike : Alike reading text) (signed : Bool) :
    Shared signed reading text lexemes (scan signed state text) := by
  fun_induction lex dialect reading text generalizing lexemes state with
  | case1 =>
    cases read
    cases same
    exact ⟨fun _ member => absurd member List.not_mem_nil,
      fun _ _ member => absurd member List.not_mem_nil, Nat.le_refl _,
      fun _ _ _ member => absurd member List.not_mem_nil, Nat.le_refl _,
      fun _ member => absurd member List.not_mem_nil⟩
  | case2 | case7 | case13 => cases read
  | case15 | case16 | case17 | case18 | case19 | case20 | case21 | case22 => cases same
  | case3 quantified byte rest lazy inductionHypothesis =>
    obtain ⟨rfl, rfl⟩ := lazy
    cases same
    have shared := inductionHypothesis read rfl (alike.stays rfl)
    rw [scan_place (by decide) (by decide)]
    exact ⟨fun members member => List.mem_cons_of_mem _ (shared.sets members member),
      shared.quantifiers, Nat.le_succ_of_le shared.count,
      fun fresh => (by cases fresh), Nat.succ_le_succ shared.short,
      fun _ member => Nat.succ_lt_succ
        (shared.shorter rfl (List.mem_of_ne_of_mem (by decide) member))⟩
  | case4 quantified byte rest notLazy lexeme found inductionHypothesis =>
    obtain ⟨others, isOthers, rfl⟩ := Option.map_eq_some_iff.mp read
    cases same
    have shared := inductionHypothesis isOthers rfl (alike.stays rfl)
    obtain ⟨run, noBracket, noBackslash, tame, noSet, quantifiers⟩ := punctuation_placeOf found
    rw [scan_place noBracket noBackslash]
    exact shared.cons (fun members isSet => absurd isSet (noSet members)) quantifiers run tame
      fun _ => ⟨noBracket, rfl⟩
  | case5 => exact absurd List.mem_cons_self alike.noBrace
  | case6 quantified rest notLazy found otherBrace inductionHypothesis =>
    cases same
    have shared := inductionHypothesis read rfl (alike.inside fun _ => rfl)
    rw [scan_opens]
    exact shared.skip rfl (Nat.lt_succ_self _)
  | case8 quantified byte rest notLazy found otherBrace noBracket closes inductionHypothesis =>
    obtain ⟨others, isOthers, rfl⟩ := Option.map_eq_some_iff.mp read
    cases same
    have shared := inductionHypothesis isOthers rfl (alike.stays rfl)
    have ordinary : Ordinary dialect byte := ⟨found, otherBrace, noBracket, closes⟩
    obtain ⟨literal, -, noBackslash⟩ := Ordinary.placeOf ordinary
    rw [scan_place noBracket noBackslash, literal]
    exact shared.cons (fun _ isSet => by cases isSet) (fun _ _ bounded => by cases bounded) rfl
      (fun _ => ⟨rfl, rfl⟩) fun _ => ⟨noBracket, rfl⟩
  | case9 opening set byte rest negates inductionHypothesis =>
    cases same
    have shared := inductionHypothesis read rfl (alike.inside fun away => by cases away)
    rw [scan_negates negates]
    exact shared.skip rfl (Nat.lt_succ_self _)
  | case10 opening set rest notNegates inductionHypothesis =>
    obtain ⟨others, isOthers, rfl⟩ := Option.map_eq_some_iff.mp read
    cases same
    have shared := inductionHypothesis isOthers rfl (alike.inside fun away => by cases away)
    rw [scan_closes]
    exact shared.cons (fun members isSet => by cases isSet; rfl)
      (fun _ _ bounded => by cases bounded) rfl (fun _ => ⟨rfl, rfl⟩) fun away => by cases away
  | case11 opening set byte notNegates notLast others inductionHypothesis =>
    have none := hasPair_rest (alike.hyphen fun away => by cases away)
    cases none
  | case12 opening set byte notNegates notLast last others isRange ordered inductionHypothesis =>
    cases same
    have within : outside (.inSet opening set) = true → byte = 0x5B := fun away => by cases away
    have hyphenNext : Alike (.inSet opening set) (0x2D :: last :: others) := alike.inside within
    have lastNext : Alike (.inSet opening set) (last :: others) :=
      hyphenNext.inside fun away => by cases away
    have shared := inductionHypothesis read rfl (lastNext.inside fun away => by cases away)
    rw [scan_range notNegates notLast (List.ne_of_not_mem_cons alike.noEscape).symm]
    exact shared.skip rfl (Nat.lt_add_of_pos_right (Nat.succ_pos 2))
  | case14 opening set byte notNegates notLast rest single inductionHypothesis =>
    cases same
    have shared := inductionHypothesis read rfl (alike.inside fun away => by cases away)
    rw [scan_member notNegates notLast (List.ne_of_not_mem_cons alike.noEscape).symm single]
    exact shared.skip rfl (Nat.lt_succ_self _)

/-! ### The flow and the server -/

/-- An expression that takes a text in which every character stands for itself. -/
def TakesOrdinary (dialect : Dialect) (read : Expression UInt8) : Prop :=
  ∃ word, Takes read word ∧ ∀ byte ∈ word, Ordinary dialect byte

theorem takesOrdinary_compositional (dialect : Dialect) :
    Compositional (TakesOrdinary dialect) where
  empty := ⟨[], takes_empty, fun _ member => absurd member List.not_mem_nil⟩
  sequence := by
    rintro first second ⟨word, takes, ordinary⟩ ⟨later, takesLater, ordinaryLater⟩
    exact ⟨word ++ later, takes.sequence takesLater,
      List.forall_mem_append.mpr ⟨ordinary, ordinaryLater⟩⟩
  either := by
    rintro first second ⟨word, takes, ordinary⟩ -
    exact ⟨word, takes.either second, ordinary⟩
  repetition := by
    rintro body least most ⟨word, takes, ordinary⟩ bounds
    refine ⟨_, takes.repetition bounds, fun byte member => ?_⟩
    obtain ⟨copy, isCopy, inside⟩ := List.mem_flatten.mp member
    rw [List.eq_of_mem_replicate isCopy] at inside
    exact ordinary byte inside

section

variable (dialect : Dialect) (beyond : Bytes → Bytes → Option Bool) (signed : Bool)

/-- `BrokerRedis::match`, which has no result where the constructor of the regular expression
throws. Nothing is assumed about the expressions that are not covered. -/
def brokerMatch (pattern topic : Bytes) : Option Bool :=
  if covered pattern = true then
    (expression dialect pattern).map fun read => Regex.matchesWord read topic
  else beyond pattern topic

/-- The condition of the flow that `subscriber` makes. -/
def receives (absPattern topic : Bytes) : Option Bool :=
  if topic = absPattern then some true else brokerMatch dialect beyond absPattern topic

/-- The flow takes exactly the topics that the server delivers for the pattern. -/
def Agrees (pattern : Bytes) : Prop :=
  ∀ topic, receives dialect beyond pattern topic = some (matchesText signed pattern topic)

/-- Every character of the pattern stands for itself in a regular expression. -/
def Plain (pattern : Bytes) : Prop := ∀ byte ∈ pattern, Ordinary dialect byte

instance (pattern : Bytes) : Decidable (Plain dialect pattern) :=
  inferInstanceAs (Decidable (∀ byte ∈ pattern, Ordinary dialect byte))

/-- The expression has no assertions. -/
def Unanchored (pattern : Bytes) : Prop :=
  ∀ lexemes, lex dialect (.nothing false) pattern = some lexemes →
    .start ∉ lexemes ∧ .finish ∉ lexemes

/-- The patterns for which the converse is decided: the glob does not match its own text, or the
expression has no assertions, and where it has sets no braces, no hyphen at the end of a set, and
`char`s as the server has them. -/
def Decided (pattern : Bytes) : Prop :=
  matchesText signed pattern pattern = false ∨
    covered pattern = true ∧ Unanchored dialect pattern ∧
      (0x5B ∈ pattern → 0x7B ∉ pattern ∧ hasPair 0x2D [0x5D] pattern = false ∧
        dialect.signedChars = signed)

end

variable {dialect : Dialect} {beyond : Bytes → Bytes → Option Bool} {signed : Bool}
  {pattern : Bytes}

/-! ### Plain patterns -/

theorem hasPair_of_not_mem {first : UInt8} {text : Bytes} (absent : first ∉ text)
    (seconds : List UInt8) : hasPair first seconds text = false := by
  induction text with
  | nil => rfl
  | cons byte rest inductionHypothesis =>
    rw [hasPair, inductionHypothesis (List.not_mem_of_not_mem_cons absent), Bool.or_false,
      decide_eq_false (List.ne_of_not_mem_cons absent).symm, Bool.false_and]

theorem covered_of_not_mem {text : Bytes} (noEscape : 0x5C ∉ text) (noGroup : 0x28 ∉ text)
    (noSet : 0x5B ∉ text) : covered text = true := by
  have noClass : 0x5B ∉ (text.dropWhile (· != 0x5B)).tail := fun member =>
    noSet ((List.dropWhile_suffix _).subset (List.mem_of_mem_tail member))
  rw [covered, hasPair_of_not_mem noGroup, hasPair_of_not_mem noClass, Bool.not_false,
    Bool.and_true, Bool.and_true, List.contains_eq_mem, decide_eq_false noEscape, Bool.not_false]

/-- A plain pattern is received and delivered for its own text only. -/
theorem Plain.agrees (plain : Plain dialect pattern) : Agrees dialect beyond signed pattern := by
  have noEscape : 0x5C ∉ pattern := fun member => (Ordinary.placeOf (plain _ member)).2.2 rfl
  have noSet : 0x5B ∉ pattern := fun member => (Ordinary.placeOf (plain _ member)).2.1 rfl
  have noGroup : 0x28 ∉ pattern := fun member => by cases (plain _ member).1
  have places : scan signed none pattern = pattern.map Token.literal := by
    rw [scan_eq_map noSet noEscape]
    exact List.map_congr_left fun byte member => (Ordinary.placeOf (plain byte member)).1
  have delivered : ∀ topic, matchesText signed pattern topic = true ↔ topic = pattern := by
    intro topic
    rw [matchesText, places]
    exact matchesWord_literals pattern topic
  obtain ⟨read, isRead, matched⟩ := expression_of_ordinary plain
  intro topic
  unfold receives
  split
  · rename_i same
    rw [(delivered topic).mpr same]
  · rename_i different
    rw [brokerMatch, if_pos (covered_of_not_mem noEscape noGroup noSet), isRead, Option.map_some]
    refine congrArg some (Bool.eq_iff_iff.mpr ?_)
    rw [matched, delivered]

/-! ### Patterns that agree -/

/-- The flow takes the text of its pattern, so the server must deliver it. -/
theorem Agrees.itself (agrees : Agrees dialect beyond signed pattern) :
    matchesText signed pattern pattern = true := by
  have same := agrees pattern
  rw [receives, if_pos rfl] at same
  exact (Option.some.inj same).symm

/-- The expression exists, and what it matches is delivered. -/
theorem Agrees.expression (agrees : Agrees dialect beyond signed pattern)
    (isCovered : covered pattern = true) :
    ∃ read, Regex.expression dialect pattern = some read ∧
      ∀ topic, Regex.matchesWord read topic = true → matchesText signed pattern topic = true := by
  have matched {topic : Bytes} (different : topic ≠ pattern) :
      (Regex.expression dialect pattern).map (fun read => Regex.matchesWord read topic) =
        some (matchesText signed pattern topic) := by
    have same := agrees topic
    rw [receives, if_neg different, brokerMatch, if_pos isCovered] at same
    exact same
  have longer : pattern ++ [0] ≠ pattern := fun same => by
    have lengths := congrArg List.length same
    rw [List.length_append, List.length_singleton] at lengths
    omega
  obtain ⟨read, isRead, -⟩ := Option.map_eq_some_iff.mp (matched longer)
  refine ⟨read, isRead, fun topic isMatched => ?_⟩
  by_cases same : topic = pattern
  · rw [same]
    exact agrees.itself
  · have delivered := matched same
    rw [isRead, Option.map_some, isMatched] at delivered
    exact (Option.some.inj delivered).symm

theorem not_mem_of_covered (isCovered : covered pattern = true) : 0x5C ∉ pattern := by
  intro member
  rw [covered, List.contains_eq_mem, decide_eq_true member] at isCovered
  cases isCovered

/-- Without sets and assertions, only a star and a question mark may be special in a pattern that
agrees: the expression takes a text of ordinary characters, and the glob requires every other
character of the pattern to be in it. -/
theorem Agrees.ordinary_or_wild (agrees : Agrees dialect beyond signed pattern)
    (isCovered : covered pattern = true) (unanchored : Unanchored dialect pattern)
    (noSet : 0x5B ∉ pattern) {byte : UInt8} (member : byte ∈ pattern) :
    Ordinary dialect byte ∨ (placeOf byte).isWild = true := by
  obtain ⟨read, isRead, delivered⟩ := agrees.expression isCovered
  obtain ⟨lexemes, isLexed, parsed⟩ := Option.bind_eq_some_iff.mp isRead
  have fits := lex_fits isLexed (fun _ inside => inside) fun _ _ inSet => by cases inSet
  obtain ⟨noStart, noFinish⟩ := unanchored lexemes isLexed
  have parts : ∀ lexeme ∈ lexemes, lexeme.Has dialect (TakesOrdinary dialect) := by
    intro lexeme inside
    have fits := fits lexeme inside
    cases lexeme with
    | literal byte =>
      exact ⟨[byte], takes_symbol (decide_eq_true rfl), List.forall_mem_singleton.mpr fits.2⟩
    | any =>
      have ordinary : Ordinary dialect 0x61 := ⟨rfl, by decide, by decide, by simp⟩
      exact ⟨[0x61], takes_symbol rfl, List.forall_mem_singleton.mpr ordinary⟩
    | set members => exact absurd fits noSet
    | start => exact absurd inside noStart
    | finish => exact absurd inside noFinish
    | quantifier least most => exact fits
    | bar | opening | closing => exact trivial
  obtain ⟨word, takes, ordinary⟩ := parse_has (takesOrdinary_compositional dialect) parsed
    (.fresh (takesOrdinary_compositional dialect)) (fun _ member => absurd member List.not_mem_nil)
    parts
  have matched := delivered word takes.matchesWord
  rw [matchesText, scan_eq_map noSet (not_mem_of_covered isCovered)] at matched
  cases wild : (placeOf byte).isWild with
  | true => exact Or.inr rfl
  | false =>
    obtain ⟨symbol, inside, accepted⟩ := exists_accepted matched (List.mem_map_of_mem member)
      (Token.isRun_of_not_isWild wild)
    rw [placeOf_of_not_isWild wild] at accepted
    have same : symbol = byte := of_decide_eq_true accepted
    exact Or.inl (same ▸ ordinary symbol inside)

/-- In a pattern that agrees and is read in both syntaxes alike, every part is an atom: with any
other part the expression takes a word that is shorter than the places of the glob are many. -/
theorem Agrees.all_atoms (agrees : Agrees dialect beyond signed pattern)
    (isCovered : covered pattern = true) (unanchored : Unanchored dialect pattern)
    {lexemes : List Lexeme} (isLexed : lex dialect (.nothing false) pattern = some lexemes)
    (shared : Shared signed (.nothing false) pattern lexemes (scan signed none pattern))
    (sameChars : 0x5B ∈ pattern → dialect.signedChars = signed) :
    lexemes.any (!·.isAtom) = false := by
  obtain ⟨read, isRead, delivered⟩ := agrees.expression isCovered
  rw [Regex.expression, isLexed] at isRead
  have fits := lex_fits isLexed (fun _ inside => inside) fun _ _ inSet => by cases inSet
  obtain ⟨noStart, noFinish⟩ := unanchored lexemes isLexed
  have light : ∀ lexeme ∈ lexemes, lexeme.Light dialect := by
    intro lexeme inside
    have fits := fits lexeme inside
    cases lexeme with
    | set members =>
      obtain ⟨byte, -, accepted⟩ := exists_accepted agrees.itself (shared.sets members inside) rfl
      refine ⟨byte, ?_⟩
      rw [sameChars fits]
      exact accepted
    | start => exact absurd inside noStart
    | finish => exact absurd inside noFinish
    | quantifier least most => exact ⟨shared.quantifiers least most inside, fits⟩
    | literal | any | bar | opening | closing => exact trivial
  obtain ⟨word, takes, short⟩ := parse_short isRead light .nothing .nil
  have long := (length_places_le (delivered word takes.matchesWord)).1
  have count := shared.count
  cases other : lexemes.any (!·.isAtom) with
  | false => rfl
  | true =>
    rw [other, Bool.or_true] at short
    have short : word.length + 1 ≤ 0 + 0 + _ := short
    omega

/-- The agreeing patterns among those that are decided are the plain ones. -/
theorem Agrees.plain (agrees : Agrees dialect beyond signed pattern)
    (decided : Decided dialect signed pattern) : Plain dialect pattern := by
  rcases decided with unmatched | ⟨isCovered, unanchored, sets⟩
  · cases unmatched.symm.trans agrees.itself
  obtain ⟨read, isRead, -⟩ := agrees.expression isCovered
  obtain ⟨lexemes, isLexed, -⟩ := Option.bind_eq_some_iff.mp isRead
  have noEscape := not_mem_of_covered isCovered
  by_cases set : 0x5B ∈ pattern
  · obtain ⟨noBrace, hyphen, sameChars⟩ := sets set
    have shared := lex_shared isLexed rfl ⟨noBrace, noEscape, fun _ => hyphen⟩ signed
    have atoms := agrees.all_atoms isCovered unanchored isLexed shared fun _ => sameChars
    -- Without a run the glob matches texts of one length only, which is not that of the pattern.
    have noRun : ∀ token ∈ scan signed none pattern, token.isRun = false := fun token member =>
      Token.isRun_of_not_isWild (shared.tame rfl atoms token member)
    have exactly := (length_places_le agrees.itself).2 noRun
    have shorter := shared.shorter rfl set
    omega
  · have special {byte : UInt8} (member : byte ∈ pattern) :=
      agrees.ordinary_or_wild isCovered unanchored set member
    have noBrace : 0x7B ∉ pattern := fun member => by
      rcases special member with ordinary | wild
      · exact ordinary.2.1 rfl
      · cases wild
    have shared := lex_shared isLexed rfl
      ⟨noBrace, noEscape, fun opens => absurd (opens rfl) set⟩ signed
    have atoms := agrees.all_atoms isCovered unanchored isLexed shared
      fun member => absurd member set
    have tame := shared.tame rfl atoms
    rw [scan_eq_map set noEscape] at tame
    intro byte member
    rcases special member with ordinary | wild
    · exact ordinary
    · cases wild.symm.trans (tame _ (List.mem_map_of_mem member))

/-- A flow whose pattern is plain takes exactly the messages that the server delivers for it, and
among the patterns that are decided there are no others. -/
theorem agrees_of_plain (dialect : Dialect) (beyond : Bytes → Bytes → Option Bool) (signed : Bool)
    (pattern : Bytes) :
    (Plain dialect pattern → Agrees dialect beyond signed pattern) ∧
      (Decided dialect signed pattern →
        (Agrees dialect beyond signed pattern ↔ Plain dialect pattern)) :=
  ⟨Plain.agrees, fun decided => ⟨fun agrees => agrees.plain decided, Plain.agrees⟩⟩

/-- Two patterns of `brain`: the one of a flow, and the one that it subscribes to. -/
theorem agrees_of_plain_brain :
    Agrees ⟨true, true, true⟩ (fun _ _ => none) true (ascii "src/brain/system/uptime") ∧
      ¬ Agrees ⟨true, true, true⟩ (fun _ _ => none) true (ascii "src/*") := by
  have plain : Plain ⟨true, true, true⟩ (ascii "src/brain/system/uptime") := by decide +kernel
  have notPlain : ¬ Plain ⟨true, true, true⟩ (ascii "src/*") := by decide +kernel
  have lexed : lex ⟨true, true, true⟩ (.nothing false) (ascii "src/*") =
      some [.literal 0x73, .literal 0x72, .literal 0x63, .literal 0x2F, .quantifier 0 none] := rfl
  have unanchored : Unanchored ⟨true, true, true⟩ (ascii "src/*") := by
    intro lexemes isLexed
    cases lexed.symm.trans isLexed
    exact ⟨by simp, by simp⟩
  have noSet : 0x5B ∉ ascii "src/*" := by decide +kernel
  refine ⟨(agrees_of_plain _ _ _ _).1 plain, fun agrees => notPlain ?_⟩
  refine ((agrees_of_plain _ _ _ _).2 (Or.inr ⟨by decide +kernel, unanchored, ?_⟩)).mp agrees
  exact fun set => absurd set noSet

/-- A topic below the pattern that `brain` subscribes to is delivered and not received, and a dot
receives a topic that is not delivered. -/
theorem star_not_received :
    ¬ Agrees ⟨true, true, true⟩ (fun _ _ => none) true (ascii "src/*") ∧
      receives ⟨true, true, true⟩ (fun _ _ => none) (ascii "src/*") (ascii "src/lamp") =
        some false ∧
      matchesText true (ascii "src/*") (ascii "src/lamp") = true ∧
      receives ⟨true, true, true⟩ (fun _ _ => none) (ascii "src/a.b") (ascii "src/a-b") =
        some true ∧
      matchesText true (ascii "src/a.b") (ascii "src/a-b") = false := by
  have missed : receives ⟨true, true, true⟩ (fun _ _ => none) (ascii "src/*") (ascii "src/lamp") =
      some false := by decide +kernel
  have delivered : matchesText true (ascii "src/*") (ascii "src/lamp") = true := by decide +kernel
  refine ⟨fun agrees => ?_, missed, delivered, by decide +kernel, by decide +kernel⟩
  have same := (agrees (ascii "src/lamp")).symm.trans missed
  rw [delivered] at same
  cases same

end BrokerProxy.Redis
