/-
This file models what `brain` does with a message: it reads the payload as an integer, as
a floating-point number and as a string, and for each reading that succeeds sends commands
to the server, which set the key with the name of the topic to the text of the value. A
number is also added to a time series.

The texts of the commands are printed into a buffer of a fixed size, interpreted once more
by hiredis, and split at spaces. For a topic that is a word the effect is simple: a number
sets the key to its text, a string without spaces to its text in quotes, and a string with
a space makes a command that the server refuses.
-/

import BrokerProxy.Codec.Scalars
import BrokerProxy.Library.LastWrite
import BrokerProxy.Library.Numerals
import BrokerProxy.Redis.CommandText

namespace BrokerProxy.Redis

open Codec Numerals

/-! ### stringFormat with numbers -/

/-- A character of a format, or a conversion: `%s`, `%ld`, `%lu` or `%f`. -/
inductive Piece
  | character (c : UInt8)
  | string
  | long
  | unsignedLong
  | double
deriving DecidableEq

/-- What has been read of a conversion. -/
inductive Conversion
  | nothing
  | percent
  | long

/-- The pieces of a format. Other conversions are not used. -/
def pieces : Conversion → Bytes → Option (List Piece)
  | .nothing, [] => some []
  | _, [] => none
  | .nothing, c :: rest =>
      if c = percent then pieces .percent rest
      else (pieces .nothing rest).map (.character c :: ·)
  | .percent, c :: rest =>
      if c = 0x73 then (pieces .nothing rest).map (.string :: ·)
      else if c = 0x66 then (pieces .nothing rest).map (.double :: ·)
      else if c = 0x6C then pieces .long rest
      else none
  | .long, c :: rest =>
      if c = 0x64 then (pieces .nothing rest).map (.long :: ·)
      else if c = 0x75 then (pieces .nothing rest).map (.unsignedLong :: ·)
      else none

/-- An argument. What `%f` prints of a floating-point number is given with it. -/
inductive PrintArgument
  | string (s : Bytes)
  | long (n : Int64)
  | unsignedLong (n : UInt64)
  | double (text : Bytes)

/-- What is printed of the pieces, if the arguments are of their types. -/
def printed : List Piece → List PrintArgument → Option Bytes
  | [], _ => some []
  | .character c :: rest, args => (printed rest args).map (c :: ·)
  | .string :: rest, .string s :: args => (printed rest args).map (cString s ++ ·)
  | .long :: rest, .long n :: args => (printed rest args).map (decimal n.toInt ++ ·)
  | .unsignedLong :: rest, .unsignedLong n :: args =>
      (printed rest args).map (decimal n.toNat ++ ·)
  | .double :: rest, .double text :: args => (printed rest args).map (text ++ ·)
  | _ :: _, _ => none

/-- `stringFormat` with numbers among its arguments. -/
def stringFormatOf (fmt : Bytes) (args : List PrintArgument) : Option Bytes :=
  ((pieces .nothing fmt).bind fun parts => printed parts args).bind fun text =>
    if text.length ≤ fmt.length * 2 + 50 then some text else none

/-- What is printed does not depend on the size of the buffer, if it has a result. -/
theorem stringFormatOf_eq {fmt text whole : Bytes} {args : List PrintArgument} {parts : List Piece}
    (parsed : pieces .nothing fmt = some parts) (prints : printed parts args = some whole)
    (done : stringFormatOf fmt args = some text) : text = whole := by
  rw [stringFormatOf, parsed, Option.bind_some, prints, Option.bind_some] at done
  split at done
  · exact (Option.some.inj done).symm
  · cases done

theorem printed_characters (text : Bytes) (rest : List Piece) (args : List PrintArgument) :
    printed (text.map .character ++ rest) args = (printed rest args).map (text ++ ·) := by
  induction text with
  | nil => exact Option.map_id'.symm
  | cons c text inductionHypothesis =>
    show (printed (text.map .character ++ rest) args).map (c :: ·) = _
    rw [inductionHypothesis, Option.map_map]
    rfl

/-- The text of `SET` for an integer. -/
def setLong (key : Bytes) (n : Int64) : Option Bytes :=
  stringFormatOf (ascii "SET %s %ld ") [.string key, .long n]

/-- The text of `TS.ADD` for an integer. -/
def addLong (key : Bytes) (millis : UInt64) (n : Int64) : Option Bytes :=
  stringFormatOf (ascii "TS.ADD ts:%s %lu %ld") [.string key, .unsignedLong millis, .long n]

/-- The text of `SET` for a floating-point number. -/
def setDouble (key text : Bytes) : Option Bytes :=
  stringFormatOf (ascii "SET %s %f ") [.string key, .double text]

/-- The text of `TS.ADD` for a floating-point number. -/
def addDouble (key : Bytes) (millis : UInt64) (text : Bytes) : Option Bytes :=
  stringFormatOf (ascii "TS.ADD ts:%s %lu %f") [.string key, .unsignedLong millis, .double text]

/-- What `SET` makes of the text of a number. -/
def setNumberText (key number : Bytes) : Bytes :=
  ascii "SET " ++ (cString key ++ ([space] ++ (number ++ [space])))

/-- What `TS.ADD` makes of it. -/
def addNumberText (key : Bytes) (millis : UInt64) (number : Bytes) : Bytes :=
  ascii "TS.ADD ts:" ++ (cString key ++ ([space] ++ (decimal millis.toNat ++ ([space] ++ number))))

theorem setLong_eq {key text : Bytes} {n : Int64} (done : setLong key n = some text) :
    text = setNumberText key (decimal n.toInt) := by
  have parsed : pieces .nothing (ascii "SET %s %ld ") = some ((ascii "SET ").map .character ++
      [.string, .character space, .long, .character space]) := by
    decide +kernel
  exact stringFormatOf_eq parsed (printed_characters _ _ _) done

theorem setDouble_eq {key number text : Bytes} (done : setDouble key number = some text) :
    text = setNumberText key number := by
  have parsed : pieces .nothing (ascii "SET %s %f ") = some ((ascii "SET ").map .character ++
      [.string, .character space, .double, .character space]) := by
    decide +kernel
  exact stringFormatOf_eq parsed (printed_characters _ _ _) done

theorem addLong_eq {key text : Bytes} {millis : UInt64} {n : Int64}
    (done : addLong key millis n = some text) :
    text = addNumberText key millis (decimal n.toInt) := by
  have parsed : pieces .nothing (ascii "TS.ADD ts:%s %lu %ld") = some
      ((ascii "TS.ADD ts:").map .character ++
        [.string, .character space, .unsignedLong, .character space, .long]) := by
    decide +kernel
  have prints := stringFormatOf_eq parsed (printed_characters _ _ _) done
  dsimp only at prints
  rw [List.append_nil] at prints
  exact prints

theorem addDouble_eq {key number text : Bytes} {millis : UInt64}
    (done : addDouble key millis number = some text) :
    text = addNumberText key millis number := by
  have parsed : pieces .nothing (ascii "TS.ADD ts:%s %lu %f") = some
      ((ascii "TS.ADD ts:").map .character ++
        [.string, .character space, .unsignedLong, .character space, .double]) := by
    decide +kernel
  have prints := stringFormatOf_eq parsed (printed_characters _ _ _) done
  dsimp only at prints
  rw [List.append_nil] at prints
  exact prints

/-! ### Words -/

/-- The character `"`. -/
def quote : UInt8 := 0x22

/-- A text that hiredis takes for one argument as it is. -/
structure Word (text : Bytes) : Prop where
  nonempty : text ≠ []
  noSpace : space ∉ text
  noPercent : percent ∉ text

instance (text : Bytes) : Decidable (Word text) :=
  decidable_of_iff (text ≠ [] ∧ space ∉ text ∧ percent ∉ text)
    ⟨fun all => ⟨all.1, all.2.1, all.2.2⟩,
      fun isWord => ⟨isWord.nonempty, isWord.noSpace, isWord.noPercent⟩⟩

theorem plain_of_mem_natText {number : Nat} {character : UInt8}
    (member : character ∈ natText 10 number) : character ≠ space ∧ character ≠ percent := by
  obtain ⟨digit, small, rfl⟩ := exists_digitChar_of_mem (by decide) (by decide) member
  have table : ∀ i : Fin 16, digitChar i.val ≠ space ∧ digitChar i.val ≠ percent := by decide
  exact table ⟨digit, small⟩

theorem word_decimal (number : Int) : Word (decimal number) := by
  have plain : ∀ character ∈ decimal number, character ≠ space ∧ character ≠ percent := by
    intro character member
    by_cases negative : number < 0
    · rw [decimal, intText_of_neg negative] at member
      rcases List.mem_cons.mp member with rfl | digit
      · decide
      · exact plain_of_mem_natText digit
    · rw [decimal, intText_of_nonneg (not_lt.mp negative)] at member
      exact plain_of_mem_natText member
  exact
    { nonempty := intText_ne_nil 10 true number
      noSpace := fun member => (plain _ member).1 rfl
      noPercent := fun member => (plain _ member).2 rfl }

/-- A space after the last word does not matter. -/
theorem words_append_space (text : Bytes) : words (text ++ space :: []) = words text := by
  unfold words
  rw [Framing.segments_append, Framing.segments, if_pos rfl]
  exact (List.filter_append _ [[]]).trans (List.append_nil _)

/-- The last word ends with the last character. -/
theorem exists_words_concat {c : UInt8} (other : c ≠ space) (text : Bytes) :
    ∃ rest word, words (text ++ [c]) = rest ++ [word ++ [c]] := by
  refine ⟨(Framing.segments space [] text).1.filter (· ≠ []),
    (Framing.segments space [] text).2, ?_⟩
  unfold words
  rw [Framing.segments_append, Framing.segments, if_neg other, Framing.segments, List.append_nil,
    List.filter_append]
  refine congrArg _ (List.filter_cons_of_pos (decide_eq_true ?_))
  exact List.append_ne_nil_of_right_ne_nil _ (List.cons_ne_nil _ _)

/-- A space before the first word does not matter. -/
theorem words_space (text : Bytes) : words (space :: text) = words text := by
  unfold words
  rw [Framing.segments, if_pos rfl, List.cons_append, List.filter_cons, if_neg (by decide)]

theorem Word.words_append {word : Bytes} (isWord : Word word) (text : Bytes) :
    words (word ++ space :: text) = word :: words text :=
  Redis.words_append isWord.nonempty isWord.noSpace text

theorem Word.words_eq {word : Bytes} (isWord : Word word) : words word = [word] :=
  (words_eq_singleton_iff word).mpr ⟨isWord.nonempty, isWord.noSpace⟩

theorem unescape_of_noPercent {text : Bytes} (plain : percent ∉ text) :
    unescape text = some text := by
  have copied := unescape_append plain []
  rw [List.append_nil, unescape, Option.map_some, List.append_nil] at copied
  exact copied

section Documented

variable {vector : Bytes → Option (List Bytes)}
  (documented : ∀ format, vector format = (unescape format).map words)
include documented

theorem vector_of_noPercent {text : Bytes} (plain : percent ∉ text) :
    vector text = some (words text) := by
  rw [documented, unescape_of_noPercent plain, Option.map_some]

/-- The arguments of `SET` for a number. -/
theorem vector_setNumberText {key number : Bytes} (isWord : Word key) (noNul : 0 ∉ key)
    (isNumber : Word number) :
    vector (setNumberText key number) = some [ascii "SET", key, number] := by
  have plain : percent ∉ setNumberText key number := by
    unfold setNumberText
    rw [cString_of_no_nul noNul]
    exact List.not_mem_append (by decide +kernel) (List.not_mem_append isWord.noPercent
      (List.not_mem_append (by decide) (List.not_mem_append isNumber.noPercent (by decide))))
  have set : Word (ascii "SET") := ⟨by decide +kernel, by decide +kernel, by decide +kernel⟩
  have command : ascii "SET " = ascii "SET" ++ [space] := by decide +kernel
  rw [vector_of_noPercent documented plain, setNumberText, cString_of_no_nul noNul, command,
    List.append_assoc, List.singleton_append, List.singleton_append, set.words_append,
    isWord.words_append, isNumber.words_append]
  rfl

/-- The arguments of `TS.ADD`. -/
theorem vector_addNumberText {key number : Bytes} (isWord : Word key) (noNul : 0 ∉ key)
    (isNumber : Word number) (millis : UInt64) :
    vector (addNumberText key millis number) =
      some [ascii "TS.ADD", ascii "ts:" ++ key, decimal millis.toNat, number] := by
  have time := word_decimal millis.toNat
  have plain : percent ∉ addNumberText key millis number := by
    unfold addNumberText
    rw [cString_of_no_nul noNul]
    exact List.not_mem_append (by decide +kernel) (List.not_mem_append isWord.noPercent
      (List.not_mem_append (by decide) (List.not_mem_append time.noPercent
        (List.not_mem_append (by decide) isNumber.noPercent))))
  have add : Word (ascii "TS.ADD") := ⟨by decide +kernel, by decide +kernel, by decide +kernel⟩
  have series : Word (ascii "ts:" ++ key) :=
    { nonempty := List.append_ne_nil_of_right_ne_nil _ isWord.nonempty
      noSpace := List.not_mem_append (by decide +kernel) isWord.noSpace
      noPercent := List.not_mem_append (by decide +kernel) isWord.noPercent }
  have command : ascii "TS.ADD ts:" = ascii "TS.ADD" ++ ([space] ++ ascii "ts:") := by
    decide +kernel
  rw [vector_of_noPercent documented plain, addNumberText, cString_of_no_nul noNul, command,
    List.append_assoc, List.append_assoc, List.singleton_append, List.singleton_append,
    List.singleton_append, add.words_append, ← List.append_assoc (ascii "ts:"),
    series.words_append, time.words_append, isNumber.words_eq]

/-- The arguments of `SET` for a string: three if it has no space, and otherwise more, of which the
last ends with the quote. -/
theorem vector_setText {key s text : Bytes} (done : setText key s = some text) (isWord : Word key)
    (noNul : 0 ∉ key) (noPercent : percent ∉ s) (whole : 0 ∉ s) :
    (space ∉ s → vector text = some [ascii "SET", key, quote :: (s ++ [quote])]) ∧
      (space ∈ s → ∃ value rest word,
        vector text = some (ascii "SET" :: key :: value :: (rest ++ [word ++ [quote]]))) := by
  have set : Word (ascii "SET") := ⟨by decide +kernel, by decide +kernel, by decide +kernel⟩
  have opening : ascii " \"" = [space] ++ [quote] := by decide +kernel
  have closing : ascii "\" " = [quote] ++ [space] := by decide +kernel
  have command : ascii "SET  " = ascii "SET" ++ ([space] ++ [space]) := by decide +kernel
  have shape : text = ascii "SET" ++ space :: (space ::
      (key ++ space :: (quote :: (s ++ [quote]) ++ space :: []))) := by
    rw [setText_eq done, cString_of_no_nul noNul, cString_of_no_nul whole, opening, closing,
      command]
    simp only [List.append_assoc, List.cons_append, List.nil_append]
  have plain : percent ∉ text := by
    rw [setText_eq done, cString_of_no_nul noNul, cString_of_no_nul whole]
    exact List.not_mem_append (by decide +kernel) (List.not_mem_append isWord.noPercent
      (List.not_mem_append (by decide +kernel) (List.not_mem_append noPercent
        (by decide +kernel))))
  rw [vector_of_noPercent documented plain, shape, set.words_append, words_space,
    isWord.words_append]
  constructor
  · intro noSpace
    have value : Word (quote :: (s ++ [quote])) :=
      { nonempty := List.cons_ne_nil _ _
        noSpace := List.not_mem_cons_of_ne_of_not_mem (by decide)
          (List.not_mem_append noSpace (by decide))
        noPercent := List.not_mem_cons_of_ne_of_not_mem (by decide)
          (List.not_mem_append noPercent (by decide)) }
    rw [value.words_append]
    rfl
  · intro inside
    obtain ⟨before, after, split, free⟩ := List.eq_append_cons_of_mem inside
    obtain ⟨rest, word, last⟩ := exists_words_concat (show quote ≠ space by decide) after
    refine ⟨quote :: before, rest, word, ?_⟩
    have value : quote :: (s ++ [quote]) ++ space :: [] =
        (quote :: before) ++ space :: (after ++ [quote] ++ space :: []) := by
      rw [split]
      simp only [List.append_assoc, List.cons_append, List.nil_append]
    rw [value, words_append (List.cons_ne_nil _ _)
      (List.not_mem_cons_of_ne_of_not_mem (by decide) free), words_append_space, last]

end Documented

/-! ### The callback -/

/-- What Redis documents of the commands of `brain`. `SET` with a key and a value sets the string at
the key. With further arguments that are no options it is refused, and neither an option nor the
number after one ends with a quote. `TS.ADD` changes no string. -/
structure KeyServer (State : Type) where
  execute : State → List Bytes → State
  get : State → Bytes → Option Bytes
  get_set : ∀ state key value place, get (execute state [ascii "SET", key, value]) place =
    if key = place then some value else get state place
  get_refused : ∀ state key value rest word,
    get (execute state (ascii "SET" :: key :: value :: (rest ++ [word ++ [quote]]))) = get state
  get_add : ∀ state arguments, get (execute state (ascii "TS.ADD" :: arguments)) = get state

/-- The deserializer of `brain` and the keys of the server. -/
structure Mirror (Value State : Type) where
  cborDeserializer : CborDeserializer Value
  store : State

/-- What an invocation of the callback finds: the values of its variables that are not initialised,
and the readings of `Sys::millis`. -/
structure Invocation (Double : Type) where
  i64 : Int64
  d : Double
  millis : Nat → UInt64

variable {Value Double State : Type}

section

variable (vector : Bytes → Option (List Bytes)) (server : KeyServer State)
  {tiny : TinyCborDecoder Value} (doubles : DoubleDecoder tiny Double)
  (printDouble : Double → Bytes)

/-- `command` on a broker that is connected, with a text without arguments. -/
def KeyServer.command (store : State) (text : Option Bytes) : Option State :=
  (sent vector text).map (server.execute store)

/-- The callback on `broker.incoming()`. -/
def Mirror.incoming (mirror : Mirror Value State) (msg : PubMsg) (invocation : Invocation Double) :
    Option (Mirror Value State) :=
  let key := msg.topic
  let i64 := ((mirror.cborDeserializer.fromBytes msg.payload).begin tiny).getInt64 tiny
    invocation.i64
  (if i64.2.success then
      (server.command vector mirror.store (setLong key i64.1)).bind fun store =>
        server.command vector store (addLong key (invocation.millis 0) i64.1)
    else some mirror.store).bind fun store =>
  let d := ((i64.2.fromBytes msg.payload).begin tiny).getDouble doubles invocation.d
  (if d.2.success then
      (server.command vector store (setDouble key (printDouble d.1))).bind fun store =>
        server.command vector store (addDouble key (invocation.millis 1) (printDouble d.1))
    else some store).bind fun store =>
  (((d.2.fromBytes msg.payload).begin tiny).getString tiny []).bind fun s =>
  (if s.2.success then server.command vector store (setText key s.1) else some store).map
    fun store => { cborDeserializer := s.2, store := store }

/-! ### What it leaves -/

/-- A string leaves itself in quotes, unless it has a space. -/
def quoted (s : Bytes) : Option Bytes :=
  if space ∈ s then none else some (quote :: (s ++ [quote]))

/-- What a scalar leaves under the key. -/
def shownScalar : Scalar Double → Option Bytes
  | .integer n => some (decimal n.toInt)
  | .double d => some (printDouble d)
  | .text s => quoted s

/-- What a message leaves, given that the deserializer has 1024 bytes. -/
def stored (msg : PubMsg) : Option Bytes :=
  (scalar doubles (msg.payload.take 1024)).bind (shownScalar printDouble)

end

/-- The text that a value leaves that was written as the only one of an array. -/
def textOf : Argument → Option Bytes
  | .int t => some (decimal t.toInt)
  | .uint32 t => some (decimal t.toNat)
  | .int64 t => some (decimal t.toInt)
  | .uint64 t => some (decimal (Int64.ofInt t.toNat).toInt)
  | .string t => quoted (cString t)
  | .bytes _ => none

theorem stored_arrayEncoding {tiny : TinyCborDecoder Value} (doubles : DoubleDecoder tiny Double)
    (printDouble : Double → Bytes) (topic : Bytes) {argument : Argument}
    (small : (arrayEncoding [argument]).length ≤ 1024) :
    stored doubles printDouble { topic := topic, payload := arrayEncoding [argument] } =
      textOf argument := by
  rw [stored, List.take_of_length_le small,
    scalar_arrayEncoding doubles argument (small.trans_lt (by decide))]
  have fits {number : Int} (lower : -2 ^ 63 ≤ number) (upper : number < 2 ^ 63) :
      (Int64.ofInt number).toInt = number :=
    Int64.toInt_ofInt_of_le lower upper
  cases argument with
  | int t =>
    have lower := t.le_toInt
    have upper := t.toInt_lt
    exact congrArg (fun number => some (decimal number)) (fits (by omega) (by omega))
  | uint32 t =>
    have upper := t.toNat_lt
    exact congrArg (fun number => some (decimal number)) (fits (by omega) (by omega))
  | int64 t | uint64 t | string t | bytes t => rfl

section Documented

variable {vector : Bytes → Option (List Bytes)} {server : KeyServer State}
  {tiny : TinyCborDecoder Value} {doubles : DoubleDecoder tiny Double}
  {printDouble : Double → Bytes}
  (documented : ∀ format, vector format = (unescape format).map words)
include documented

/-- The two commands for a number set the key to its text. -/
theorem get_number {key number : Bytes} (isWord : Word key) (noNul : 0 ∉ key)
    (isNumber : Word number) {store after : State} {set add : Option Bytes} {millis : UInt64}
    (setText : ∀ text, set = some text → text = setNumberText key number)
    (addText : ∀ text, add = some text → text = addNumberText key millis number)
    (done : ((server.command vector store set).bind fun store =>
      server.command vector store add) = some after) (place : Bytes) :
    server.get after place = if key = place then some number else server.get store place := by
  obtain ⟨between, first, second⟩ := Option.bind_eq_some_iff.mp done
  obtain ⟨arguments, setSent, rfl⟩ := Option.map_eq_some_iff.mp first
  obtain ⟨sample, addSent, rfl⟩ := Option.map_eq_some_iff.mp second
  obtain ⟨text, rfl, vectored⟩ := Option.bind_eq_some_iff.mp setSent
  obtain ⟨line, rfl, sampled⟩ := Option.bind_eq_some_iff.mp addSent
  rw [setText text rfl, vector_setNumberText documented isWord noNul isNumber] at vectored
  rw [addText line rfl, vector_addNumberText documented isWord noNul isNumber] at sampled
  obtain rfl := Option.some.inj vectored
  obtain rfl := Option.some.inj sampled
  rw [server.get_add, server.get_set]

/-- The command for a string sets the key, or changes nothing. -/
theorem get_string {key s : Bytes} (isWord : Word key) (noNul : 0 ∉ key) (noPercent : percent ∉ s)
    (whole : 0 ∉ s) {store after : State}
    (done : server.command vector store (setText key s) = some after) (place : Bytes) :
    server.get after place =
      if key = place then (quoted s).or (server.get store place) else server.get store place := by
  obtain ⟨arguments, textSent, rfl⟩ := Option.map_eq_some_iff.mp done
  obtain ⟨text, printed, vectored⟩ := Option.bind_eq_some_iff.mp textSent
  obtain ⟨single, several⟩ := vector_setText documented printed isWord noNul noPercent whole
  rw [quoted]
  by_cases inside : space ∈ s
  · obtain ⟨value, rest, word, split⟩ := several inside
    obtain rfl := Option.some.inj (split.symm.trans vectored)
    rw [server.get_refused, if_pos inside, Option.none_or, ite_self]
  · obtain rfl := Option.some.inj ((single inside).symm.trans vectored)
    rw [server.get_set, if_neg inside, Option.some_or]

/-- The callback sets the key with the name of the topic to what the message leaves, and no other
key. -/
theorem incoming_get (isNumber : ∀ d, Word (printDouble d)) {mirror after : Mirror Value State}
    {msg : PubMsg} {invocation : Invocation Double}
    (capacity : mirror.cborDeserializer.capacity = 1024) (isWord : Word msg.topic)
    (noNul : 0 ∉ msg.topic)
    (plain : ∀ s, scalar doubles (msg.payload.take 1024) = some (.text s) → percent ∉ s)
    (done : mirror.incoming vector server doubles printDouble msg invocation = some after) :
    after.cborDeserializer.capacity = 1024 ∧
      ∀ place, server.get after.store place =
        if msg.topic = place then
          (stored doubles printDouble msg).or (server.get mirror.store place)
        else server.get mirror.store place := by
  obtain ⟨first, ofInteger, done⟩ := Option.bind_eq_some_iff.mp done
  obtain ⟨second, ofDouble, done⟩ := Option.bind_eq_some_iff.mp done
  obtain ⟨s, got, done⟩ := Option.bind_eq_some_iff.mp done
  obtain ⟨third, ofString, rfl⟩ := Option.map_eq_some_iff.mp done
  -- Each getter has the same bytes, whatever the getters before it have left.
  generalize ofInt64 : ((mirror.cborDeserializer.fromBytes msg.payload).begin tiny).getInt64 tiny
    invocation.i64 = i64 at ofInteger ofDouble got
  have capacities : i64.2.capacity = 1024 := by
    rw [← ofInt64, CborDeserializer.getInt64, CborDeserializer.getNumber_capacity,
      CborDeserializer.begin_capacity]
    exact capacity
  have integer := CborDeserializer.success_or_failure
    (CborDeserializer.getInt64_success_iff mirror.cborDeserializer doubles msg.payload
      invocation.i64)
  rw [ofInt64, capacity] at integer
  generalize ofGetDouble : ((i64.2.fromBytes msg.payload).begin tiny).getDouble doubles
    invocation.d = d at ofDouble got
  have double := CborDeserializer.success_or_failure
    (CborDeserializer.getDouble_success_iff i64.2 doubles msg.payload invocation.d)
  rw [ofGetDouble, capacities] at double
  have last : d.2.capacity = 1024 := by
    rw [← ofGetDouble, CborDeserializer.getDouble, CborDeserializer.getNumber_capacity,
      CborDeserializer.begin_capacity]
    exact capacities
  have string := CborDeserializer.success_or_failure fun t =>
    CborDeserializer.getString_scalar_iff d.2 doubles msg.payload (s := t) got
  rw [last] at string
  refine ⟨(CborDeserializer.getString_capacity got).trans
    ((CborDeserializer.begin_capacity _ _).trans last), fun place => ?_⟩
  show server.get third place = _
  rw [stored]
  rcases integer with ⟨isInteger, found⟩ | ⟨noInteger, other⟩
  · -- An integer: the other two getters fail.
    have noDouble := CborDeserializer.not_success double fun _ same => by
      cases found.symm.trans same
    have noString := CborDeserializer.not_success string fun _ same => by
      cases found.symm.trans same
    rw [if_pos isInteger] at ofInteger
    rw [if_neg noDouble] at ofDouble
    rw [if_neg noString] at ofString
    obtain rfl := Option.some.inj ofDouble
    obtain rfl := Option.some.inj ofString
    rw [get_number documented isWord noNul (word_decimal i64.1.toInt)
      (fun text => setLong_eq) (fun text => addLong_eq) ofInteger, found]
    rfl
  · rw [if_neg (by rw [noInteger]; exact Bool.false_ne_true)] at ofInteger
    obtain rfl := Option.some.inj ofInteger
    rcases double with ⟨isDouble, found⟩ | ⟨noDouble, another⟩
    · have noString := CborDeserializer.not_success string fun _ same => by
        cases found.symm.trans same
      rw [if_pos isDouble] at ofDouble
      rw [if_neg noString] at ofString
      obtain rfl := Option.some.inj ofString
      rw [get_number documented isWord noNul (isNumber d.1)
        (fun text => setDouble_eq) (fun text => addDouble_eq) ofDouble, found]
      rfl
    · rw [if_neg (by rw [noDouble]; exact Bool.false_ne_true)] at ofDouble
      obtain rfl := Option.some.inj ofDouble
      rcases string with ⟨isString, found⟩ | ⟨noString, last⟩
      · rw [if_pos isString] at ofString
        rw [found]
        exact get_string documented isWord noNul (plain s.1 found) (noNul_of_scalar found) ofString
          place
      · rw [if_neg (by rw [noString]; exact Bool.false_ne_true)] at ofString
        obtain rfl := Option.some.inj ofString
        have nothing : scalar doubles (msg.payload.take 1024) = none := by
          cases found : scalar doubles (msg.payload.take 1024) with
          | none => rfl
          | some held =>
            cases held with
            | integer n => exact absurd found (other n)
            | double n => exact absurd found (another n)
            | text n => exact absurd found (last n)
        rw [nothing, Option.bind_none, Option.none_or, ite_self]

end Documented

/-- The keys of the reference server after a command, the newest first. -/
def executeKeys (keys : List (Bytes × Bytes)) : List Bytes → List (Bytes × Bytes)
  | [name, key, value] => if name = ascii "SET" then (key, value) :: keys else keys
  | _ => keys

def getKey (keys : List (Bytes × Bytes)) (place : Bytes) : Option Bytes :=
  (keys.find? fun entry => entry.1 = place).map Prod.snd

theorem getKey_set (keys : List (Bytes × Bytes)) (key value place : Bytes) :
    getKey (executeKeys keys [ascii "SET", key, value]) place =
      if key = place then some value else getKey keys place := by
  rw [executeKeys, if_pos rfl, getKey, List.find?_cons]
  by_cases same : key = place
  · rw [if_pos same, decide_eq_true same]
    rfl
  · rw [if_neg same, decide_eq_false same]
    rfl

theorem executeKeys_refused (keys : List (Bytes × Bytes)) (key value last : Bytes)
    (rest : List Bytes) :
    executeKeys keys (ascii "SET" :: key :: value :: (rest ++ [last])) = keys := by
  cases rest with
  | nil | cons _ _ => rfl

theorem executeKeys_add (keys : List (Bytes × Bytes)) (arguments : List Bytes) :
    executeKeys keys (ascii "TS.ADD" :: arguments) = keys := by
  unfold executeKeys
  split
  · rename_i same
    rw [if_neg (by rw [← (List.cons.inj same).1]; decide +kernel)]
  · rfl

/-- A server with the documented behaviour. -/
def referenceServer : KeyServer (List (Bytes × Bytes)) where
  execute := executeKeys
  get := getKey
  get_set := getKey_set
  get_refused keys key value rest word :=
    congrArg getKey (executeKeys_refused keys key value (word ++ [quote]) rest)
  get_add keys arguments := congrArg getKey (executeKeys_add keys arguments)

end BrokerProxy.Redis
