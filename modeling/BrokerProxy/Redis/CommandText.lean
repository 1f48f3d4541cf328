/-
This file models how `BrokerRedis::subscribe` and the callback of `brain` on a message make
the text of a command, and which argument vector the text becomes.

The text goes through two formatters. `stringFormat` substitutes the strings into it; then
hiredis, to which the result is passed as a format without arguments, splits it at spaces
and interprets what follows a percent sign. Quotes have no meaning to either. So a string is
one argument of the command only where it has no space and no percent sign that something
follows, and the quotes that `brain` puts around a value become a part of it.
-/

import BrokerProxy.Library.Framing
import BrokerProxy.Redis.ReplyStream

namespace BrokerProxy.Redis

open Framing

/-! ### stringFormat -/

/-- The character `%`. -/
def percent : UInt8 := 0x25

/-- `vsprintf` with the conversion `%s`, whose argument is a C string. -/
def vsprintf : Bytes → List Bytes → Option Bytes
  | [], _ => some []
  | [c], _ => if c = percent then none else some [c]
  | c :: d :: rest, args =>
      if c = percent then
        if d = 0x73 then
          args.head?.bind fun arg => (vsprintf rest args.tail).map (cString arg ++ ·)
        else none
      else (vsprintf (d :: rest) args).map (c :: ·)

/-- `stringFormat`. The buffer is sized by the length of the format, and `vsprintf` writes to it
without a bound: beyond its end the result is undefined. -/
def stringFormat (fmt : Bytes) (args : List Bytes) : Option Bytes :=
  (vsprintf fmt args).bind fun text =>
    if text.length ≤ fmt.length * 2 + 50 then some text else none

theorem vsprintf_cons {c : UInt8} (other : c ≠ percent) (rest : Bytes) (args : List Bytes) :
    vsprintf (c :: rest) args = (vsprintf rest args).map (c :: ·) := by
  cases rest with
  | nil => exact if_neg other
  | cons d rest => rw [vsprintf, if_neg other]

/-- Text without a percent sign is copied. -/
theorem vsprintf_append {text : Bytes} (plain : percent ∉ text) (rest : Bytes)
    (args : List Bytes) :
    vsprintf (text ++ rest) args = (vsprintf rest args).map (text ++ ·) := by
  induction text with
  | nil => exact Option.map_id'.symm
  | cons c text inductionHypothesis =>
    rw [List.mem_cons, not_or] at plain
    obtain ⟨other, plain⟩ := plain
    rw [List.cons_append, vsprintf_cons (Ne.symm other), inductionHypothesis plain,
      Option.map_map]
    rfl

theorem vsprintf_string (rest : Bytes) (arg : Bytes) (args : List Bytes) :
    vsprintf (ascii "%s" ++ rest) (arg :: args) =
      (vsprintf rest args).map (cString arg ++ ·) := by
  have format : ascii "%s" ++ rest = percent :: 0x73 :: rest := rfl
  rw [format, vsprintf, if_pos rfl, if_pos rfl]
  rfl

/-- A format that ends with its only conversion. -/
theorem stringFormat_string {text : Bytes} (plain : percent ∉ text) (arg : Bytes) :
    stringFormat (text ++ ascii "%s") [arg] =
      if text.length + (cString arg).length ≤ (text.length + 2) * 2 + 50 then
        some (text ++ cString arg)
      else none := by
  have printed : vsprintf (text ++ ascii "%s") [arg] = some (text ++ cString arg) := by
    have last := vsprintf_string [] arg []
    rw [List.append_nil] at last
    rw [vsprintf_append plain, last, vsprintf, Option.map_some, Option.map_some, List.append_nil]
  rw [stringFormat, printed, Option.bind_some, List.length_append, List.length_append]
  rfl

/-! ### The format of hiredis -/

/-- The space. -/
def space : UInt8 := 0x20

/-- The literal text that a format without arguments stands for. A percent sign is doubled or the
last character; any other sequence is refused or takes an argument that was not passed, so that
the text is not determined. -/
def unescape : Bytes → Option Bytes
  | [] => some []
  | [c] => some [c]
  | c :: d :: rest =>
      if c = percent then
        if d = percent then (unescape rest).map (percent :: ·) else none
      else (unescape (d :: rest)).map (c :: ·)

/-- The arguments between the spaces of a text. -/
def words (text : Bytes) : List Bytes :=
  ((segments space [] text).1 ++ [(segments space [] text).2]).filter (· ≠ [])

theorem unescape_cons {c : UInt8} (other : c ≠ percent) (rest : Bytes) :
    unescape (c :: rest) = (unescape rest).map (c :: ·) := by
  cases rest with
  | nil => rfl
  | cons d rest => rw [unescape, if_neg other]

/-- Text without a percent sign stands for itself. -/
theorem unescape_append {text : Bytes} (plain : percent ∉ text) (rest : Bytes) :
    unescape (text ++ rest) = (unescape rest).map (text ++ ·) := by
  induction text with
  | nil => exact Option.map_id'.symm
  | cons c text inductionHypothesis =>
    rw [List.mem_cons, not_or] at plain
    obtain ⟨other, plain⟩ := plain
    rw [List.cons_append, unescape_cons (Ne.symm other), inductionHypothesis plain,
      Option.map_map]
    rfl

/-- Interpreting percent signs makes a text shorter, unless there is none but at its end. -/
theorem unescape_length {format : Bytes} : ∀ {text : Bytes}, unescape format = some text →
    text.length ≤ format.length ∧ (text.length = format.length → percent ∉ format.dropLast) := by
  induction format using unescape.induct with
  | case1 =>
    intro text done
    exact ⟨Option.some.inj done ▸ Nat.le_refl 0, fun _ => List.not_mem_nil⟩
  | case2 c =>
    intro text done
    exact ⟨Option.some.inj done ▸ Nat.le_refl 1, fun _ => List.not_mem_nil⟩
  | case3 rest inductionHypothesis =>
    intro text done
    rw [unescape, if_pos rfl, if_pos rfl] at done
    obtain ⟨tail, interpreted, rfl⟩ := Option.map_eq_some_iff.mp done
    have shorter := (inductionHypothesis interpreted).1
    rw [List.length_cons, List.length_cons, List.length_cons]
    exact ⟨by omega, fun same => by omega⟩
  | case4 d rest other =>
    intro text done
    rw [unescape, if_pos rfl, if_neg other] at done
    cases done
  | case5 c d rest other inductionHypothesis =>
    intro text done
    rw [unescape, if_neg other] at done
    obtain ⟨tail, interpreted, rfl⟩ := Option.map_eq_some_iff.mp done
    obtain ⟨shorter, plain⟩ := inductionHypothesis interpreted
    rw [List.length_cons, List.length_cons, Nat.succ_le_succ_iff, Nat.succ_inj]
    refine ⟨shorter, fun same member => ?_⟩
    rw [List.dropLast_cons_cons, List.mem_cons] at member
    exact member.elim (fun first => other first.symm) (plain same)

/-- Only percent signs are interpreted. -/
theorem unescape_of_plain {format : Bytes} (plain : percent ∉ format.dropLast) :
    unescape format = some format := by
  induction format using unescape.induct with
  | case1 | case2 c => rfl
  | case3 rest | case4 d rest =>
    exact absurd (List.dropLast_cons_cons ▸ List.mem_cons_self) plain
  | case5 c d rest other inductionHypothesis =>
    rw [List.dropLast_cons_cons, List.mem_cons, not_or] at plain
    rw [unescape, if_neg other, inductionHypothesis plain.2, Option.map_some]

/-- Other characters stay. -/
theorem unescape_count {c : UInt8} (other : c ≠ percent) {format : Bytes} :
    ∀ {text : Bytes}, unescape format = some text → text.count c = format.count c := by
  induction format using unescape.induct with
  | case1 | case2 d =>
    intro text done
    exact Option.some.inj done ▸ rfl
  | case3 rest inductionHypothesis =>
    intro text done
    rw [unescape, if_pos rfl, if_pos rfl] at done
    obtain ⟨tail, interpreted, rfl⟩ := Option.map_eq_some_iff.mp done
    rw [List.count_cons_of_ne other.symm, List.count_cons_of_ne other.symm,
      List.count_cons_of_ne other.symm, inductionHypothesis interpreted]
  | case4 d rest doubled =>
    intro text done
    rw [unescape, if_pos rfl, if_neg doubled] at done
    cases done
  | case5 d e rest plain inductionHypothesis =>
    intro text done
    rw [unescape, if_neg plain] at done
    obtain ⟨tail, interpreted, rfl⟩ := Option.map_eq_some_iff.mp done
    rw [List.count_cons, List.count_cons, inductionHypothesis interpreted]

/-- The arguments hold everything but the spaces. -/
theorem words_flatten (text : Bytes) : (words text).flatten = text.filter (· ≠ space) := by
  have whole := segments_flatten space text []
  rw [words, List.flatten_filter_ne_nil, List.flatten_append, List.flatten_singleton, whole,
    List.nil_append]

/-- A word and a space, before more text. -/
theorem words_append {word : Bytes} (nonempty : word ≠ []) (free : space ∉ word) (text : Bytes) :
    words (word ++ space :: text) = word :: words text := by
  unfold words
  rw [segments_append_of_notMem space word _ [] free, List.nil_append, segments, if_pos rfl,
    List.cons_append, List.filter_cons_of_pos (p := fun word : Bytes => decide (word ≠ []))
      (decide_eq_true nonempty)]

/-- A text is one argument exactly when it is not empty and has no space. -/
theorem words_eq_singleton_iff (text : Bytes) :
    words text = [text] ↔ text ≠ [] ∧ space ∉ text := by
  constructor
  · intro one
    have whole := words_flatten text
    rw [one, List.flatten_singleton] at whole
    have member : text ∈ words text := one ▸ List.mem_singleton_self text
    refine ⟨of_decide_eq_true (List.mem_filter.mp member).2, fun inside => ?_⟩
    rw [whole] at inside
    exact of_decide_eq_true (List.mem_filter.mp inside).2 rfl
  · rintro ⟨nonempty, free⟩
    have whole := segments_append_of_notMem space text [] [] free
    rw [List.append_nil, List.nil_append] at whole
    unfold words
    rw [whole]
    exact List.filter_cons_of_pos (decide_eq_true nonempty)

/-! ### The two commands -/

/-- The text of `PSUBSCRIBE`, after the line that `subscribe` writes to the log. -/
def subscribeText (pattern : Bytes) : Option Bytes :=
  (stringFormat (ascii " REDIS psubscribe %s") [pattern]).bind fun _ =>
    stringFormat (ascii "PSUBSCRIBE %s") [pattern]

/-- The text of `SET` that `brain` makes of a topic and a string value. -/
def setText (key s : Bytes) : Option Bytes := stringFormat (ascii "SET  %s \"%s\" ") [key, s]

/-- The argument vector of a command whose text is determined, given what hiredis makes of a
format. -/
def sent (vector : Bytes → Option (List Bytes)) (text : Option Bytes) : Option (List Bytes) :=
  text.bind vector

theorem subscribeText_eq (pattern : Bytes) :
    subscribeText pattern =
      if (cString pattern).length ≤ 65 then some (ascii "PSUBSCRIBE " ++ cString pattern)
      else none := by
  have line := stringFormat_string
    (show percent ∉ ascii " REDIS psubscribe " by decide +kernel) pattern
  have command := stringFormat_string
    (show percent ∉ ascii "PSUBSCRIBE " by decide +kernel) pattern
  have lineLength : (ascii " REDIS psubscribe ").length = 18 := by decide +kernel
  have commandLength : (ascii "PSUBSCRIBE ").length = 11 := by decide +kernel
  have lineFormat : ascii " REDIS psubscribe " ++ ascii "%s" = ascii " REDIS psubscribe %s" := by
    decide +kernel
  have commandFormat : ascii "PSUBSCRIBE " ++ ascii "%s" = ascii "PSUBSCRIBE %s" := by
    decide +kernel
  rw [lineFormat, lineLength] at line
  rw [commandFormat, commandLength] at command
  rw [subscribeText, line, command]
  by_cases short : (cString pattern).length ≤ 65
  · rw [if_pos (by omega), Option.bind_some, if_pos (by omega), if_pos short]
  · rw [if_neg (by omega : ¬ 11 + (cString pattern).length ≤ (11 + 2) * 2 + 50), if_neg short]
    split <;> rfl

theorem setText_eq {key s text : Bytes} (done : setText key s = some text) :
    text = ascii "SET  " ++ (cString key ++ (ascii " \"" ++ (cString s ++ ascii "\" "))) := by
  have format : ascii "SET  %s \"%s\" " =
      ascii "SET  " ++ (ascii "%s" ++ (ascii " \"" ++ (ascii "%s" ++ ascii "\" "))) := by
    decide +kernel
  have closing : vsprintf (ascii "\" ") [] = some (ascii "\" ") := by decide +kernel
  have printed : vsprintf (ascii "SET  %s \"%s\" ") [key, s] =
      some (ascii "SET  " ++ (cString key ++ (ascii " \"" ++ (cString s ++ ascii "\" ")))) := by
    rw [format, vsprintf_append (by decide +kernel), vsprintf_string,
      vsprintf_append (by decide +kernel), vsprintf_string, closing]
    rfl
  rw [setText, stringFormat, printed, Option.bind_some] at done
  split at done
  · exact (Option.some.inj done).symm
  · cases done

/-- A prefix of a text gives back the text as its only argument exactly when it is the text, and
nothing in it is interpreted. -/
theorem unescape_words_iff {part whole : Bytes} (shorter : part.length ≤ whole.length) :
    (unescape part).map words = some [whole] ↔
      part = whole ∧ whole ≠ [] ∧ space ∉ whole ∧ percent ∉ whole.dropLast := by
  constructor
  · intro same
    obtain ⟨text, interpreted, one⟩ := Option.map_eq_some_iff.mp same
    obtain ⟨notLonger, plain⟩ := unescape_length interpreted
    have flat := words_flatten text
    rw [one, List.flatten_singleton] at flat
    have filtered : (text.filter (· ≠ space)).length ≤ text.length := List.length_filter_le _ _
    rw [← flat] at filtered
    -- Nothing can be lost on the way, because the argument is as long as the text it is made of.
    have length : text.length = part.length := by omega
    have kept : whole = text := by
      rw [flat]
      exact List.filter_sublist.eq_of_length (by rw [← flat]; omega)
    have part_eq : part = text := by
      rw [unescape_of_plain (plain length)] at interpreted
      exact Option.some.inj interpreted
    rw [kept] at one ⊢
    obtain ⟨nonempty, free⟩ := (words_eq_singleton_iff text).mp one
    exact ⟨part_eq, nonempty, free, part_eq ▸ plain length⟩
  · rintro ⟨rfl, nonempty, free, plain⟩
    rw [unescape_of_plain plain, Option.map_some]
    exact congrArg some ((words_eq_singleton_iff part).mpr ⟨nonempty, free⟩)

theorem length_cString_le (bytes : Bytes) : (cString bytes).length ≤ bytes.length :=
  (List.takeWhile_sublist _).length_le

theorem no_nul_of_cString (bytes : Bytes) : (cString bytes).count 0 = 0 := by
  refine List.count_eq_zero.mpr fun member => ?_
  have kept : decide ((0 : UInt8) ≠ 0) = true :=
    List.mem_takeWhile_imp (p := fun byte : UInt8 => decide (byte ≠ 0)) member
  exact of_decide_eq_true kept rfl

section Documented

variable {vector : Bytes → Option (List Bytes)}
  (documented : ∀ format, vector format = (unescape format).map words)
include documented

/-- The name of a command before its text is the first argument. -/
theorem vector_append {name : Bytes} (nonempty : name ≠ []) (free : space ∉ name)
    (plain : percent ∉ name ++ [space]) (text : Bytes) :
    vector (name ++ [space] ++ text) = ((unescape text).map words).map (name :: ·) := by
  rw [documented, unescape_append plain, Option.map_map, Option.map_map]
  refine congrArg (Option.map · (unescape text)) (funext fun rest => ?_)
  show words (name ++ [space] ++ rest) = name :: words rest
  rw [List.append_assoc, List.singleton_append, words_append nonempty free]

theorem subscribe_vector_iff (pattern : Bytes) :
    sent vector (subscribeText pattern) = some [ascii "PSUBSCRIBE", pattern] ↔
      pattern ≠ [] ∧ space ∉ pattern ∧ 0 ∉ pattern ∧ percent ∉ pattern.dropLast ∧
        pattern.length ≤ 65 := by
  rw [subscribeText_eq, sent]
  by_cases short : (cString pattern).length ≤ 65
  · have command : ascii "PSUBSCRIBE " = ascii "PSUBSCRIBE" ++ [space] := by decide +kernel
    rw [if_pos short, Option.bind_some, command, vector_append documented (by decide +kernel)
      (by decide +kernel) (by decide +kernel)]
    have argument := unescape_words_iff (length_cString_le pattern)
    rw [cString_eq_iff] at argument
    constructor
    · intro same
      obtain ⟨arguments, one, tail⟩ := Option.map_eq_some_iff.mp same
      obtain ⟨noNul, nonempty, free, plain⟩ :=
        argument.mp (one.trans (congrArg some (List.cons.inj tail).2))
      exact ⟨nonempty, free, noNul, plain, cString_of_no_nul noNul ▸ short⟩
    · rintro ⟨nonempty, free, noNul, plain, -⟩
      rw [argument.mpr ⟨noNul, nonempty, free, plain⟩, Option.map_some]
  · rw [if_neg short, Option.bind_none]
    refine ⟨nofun, fun ⟨_, _, noNul, _, atMost⟩ => ?_⟩
    rw [cString_of_no_nul noNul] at short
    exact absurd atMost short

/-- The quotes around a string value are two characters that neither the key nor the value has. -/
theorem set_vector_ne (key s : Bytes) :
    sent vector (setText key s) ≠ some [ascii "SET", key, s] := by
  intro same
  obtain ⟨text, done, same⟩ := Option.bind_eq_some_iff.mp same
  rw [documented] at same
  obtain ⟨literal, interpreted, split⟩ := Option.map_eq_some_iff.mp same
  have flat := words_flatten literal
  rw [split] at flat
  -- A character that is neither a space nor a percent sign is as often in the arguments as in the
  -- text.
  have counts : ∀ c, c ≠ percent → c ≠ space →
      (ascii "SET").count c + (key.count c + s.count c) = (ascii "SET  ").count c +
        ((cString key).count c + ((ascii " \"").count c +
          ((cString s).count c + (ascii "\" ").count c))) := by
    intro c notPercent notSpace
    have kept : (literal.filter (· ≠ space)).count c = literal.count c :=
      List.count_filter (decide_eq_true notSpace)
    rw [← flat, unescape_count notPercent interpreted, setText_eq done] at kept
    simpa only [List.flatten_cons, List.flatten_nil, List.append_nil, List.count_append]
      using kept
  have nul := counts 0 (by decide) (by decide)
  have quote := counts 0x22 (by decide) (by decide)
  have name : (ascii "SET").count 0 = 0 ∧ (ascii "SET  ").count 0 = 0 ∧
      (ascii " \"").count 0 = 0 ∧ (ascii "\" ").count 0 = 0 := by decide +kernel
  have quotes : (ascii "SET").count 0x22 = 0 ∧ (ascii "SET  ").count 0x22 = 0 ∧
      (ascii " \"").count 0x22 = 1 ∧ (ascii "\" ").count 0x22 = 1 := by decide +kernel
  rw [no_nul_of_cString, no_nul_of_cString] at nul
  have keyWhole : cString key = key :=
    cString_of_no_nul (List.count_eq_zero.mp (by omega))
  have valueWhole : cString s = s :=
    cString_of_no_nul (List.count_eq_zero.mp (by omega))
  rw [keyWhole, valueWhole] at quote
  omega

/-- With what is documented of the format of hiredis, a pattern reaches the server unchanged as one
argument exactly when it is not empty, has no space, no NUL byte and no percent sign but as its
last character, and at most 65 bytes; a string value never does. -/
theorem one_argument_iff :
    (∀ pattern, sent vector (subscribeText pattern) = some [ascii "PSUBSCRIBE", pattern] ↔
        pattern ≠ [] ∧ space ∉ pattern ∧ 0 ∉ pattern ∧ percent ∉ pattern.dropLast ∧
          pattern.length ≤ 65) ∧
      ∀ key s, sent vector (setText key s) ≠ some [ascii "SET", key, s] :=
  ⟨subscribe_vector_iff documented, set_vector_ne documented⟩

end Documented

/-- The pattern of a node, with the vector that hiredis makes. -/
theorem one_argument_wildcard :
    sent (fun format => (unescape format).map words) (subscribeText (ascii "dst/brain/*")) =
      some [ascii "PSUBSCRIBE", ascii "dst/brain/*"] :=
  ((one_argument_iff fun _ => rfl).1 (ascii "dst/brain/*")).mpr (by decide +kernel)

/-- A space in a pattern makes two patterns of it, and a value arrives with the quotes. -/
theorem arguments_split :
    sent (fun format => (unescape format).map words) (subscribeText (ascii "src/living room")) =
        some [ascii "PSUBSCRIBE", ascii "src/living", ascii "room"] ∧
      sent (fun format => (unescape format).map words)
          (setText (ascii "src/lamp") (ascii "on")) =
        some [ascii "SET", ascii "src/lamp", ascii "\"on\""] := by
  decide +kernel

end BrokerProxy.Redis
