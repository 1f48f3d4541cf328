/-
This file develops byte stuffing and flag delimiting over an arbitrary alphabet.

A stuffing code names a flag symbol, an escape symbol and an involution that moves
both off the two reserved symbols. Stuffing replaces a reserved symbol by the
escape symbol and its masked form, so a stuffed word never contains the flag.
Unstuffing carries one bit, whether the next symbol is escaped; a repeated escape
symbol leaves that bit set. Delimiting cuts a stream at its flags and keeps the
symbols after the last flag as the beginning of the next segment, which is what a
receiver's buffer holds between two reads.
-/

import Mathlib.Data.List.Basic

namespace Framing

/-- A stuffing code: two reserved symbols and an involution that moves both of them off the
reserved symbols. -/
structure Code (Symbol : Type) where
  flag : Symbol
  escape : Symbol
  mask : Symbol → Symbol
  flag_ne_escape : flag ≠ escape
  mask_mask : ∀ symbol, mask (mask symbol) = symbol
  mask_flag_ne_flag : mask flag ≠ flag
  mask_flag_ne_escape : mask flag ≠ escape
  mask_escape_ne_flag : mask escape ≠ flag
  mask_escape_ne_escape : mask escape ≠ escape

variable {Symbol : Type} [DecidableEq Symbol]

/-! ### Stuffing one symbol and a word -/

/-- The stuffed form of one symbol. -/
def stuffSymbol (code : Code Symbol) (symbol : Symbol) : List Symbol :=
  if symbol = code.escape ∨ symbol = code.flag then [code.escape, code.mask symbol] else [symbol]

/-- The stuffed form of a word. -/
def stuff (code : Code Symbol) (word : List Symbol) : List Symbol :=
  word.flatMap (stuffSymbol code)

/-- Unstuffing a word, given whether its first symbol is escaped: the symbols it stands for and
whether the symbol after it is escaped. -/
def unstuff (code : Code Symbol) : Bool → List Symbol → List Symbol × Bool
  | escaped, [] => ([], escaped)
  | escaped, symbol :: rest =>
      if symbol = code.escape then unstuff code true rest
      else
        ((if escaped then code.mask symbol else symbol) :: (unstuff code false rest).1,
          (unstuff code false rest).2)

theorem stuffSymbol_flag_notMem (code : Code Symbol) (symbol : Symbol) :
    code.flag ∉ stuffSymbol code symbol := by
  unfold stuffSymbol
  split
  · rename_i reserved
    rcases reserved with rfl | rfl
    · simp only [List.mem_cons, List.not_mem_nil, or_false, not_or]
      exact ⟨code.flag_ne_escape, code.mask_escape_ne_flag.symm⟩
    · simp only [List.mem_cons, List.not_mem_nil, or_false, not_or]
      exact ⟨code.flag_ne_escape, code.mask_flag_ne_flag.symm⟩
  · rename_i free
    simp only [List.mem_cons, List.not_mem_nil, or_false]
    exact fun same => free (Or.inr same.symm)

/-- A stuffed word never contains the flag. -/
theorem stuff_flag_notMem (code : Code Symbol) (word : List Symbol) :
    code.flag ∉ stuff code word := by
  simp only [stuff, List.mem_flatMap, not_exists, not_and]
  exact fun symbol _ => stuffSymbol_flag_notMem code symbol

theorem stuff_append (code : Code Symbol) (first second : List Symbol) :
    stuff code (first ++ second) = stuff code first ++ stuff code second :=
  List.flatMap_append

/-- A stuffed word is at least as long as the word. -/
theorem length_le_length_stuff (code : Code Symbol) (word : List Symbol) :
    word.length ≤ (stuff code word).length := by
  induction word with
  | nil => exact Nat.zero_le _
  | cons symbol rest inductionHypothesis =>
    have one : 1 ≤ (stuffSymbol code symbol).length := by
      unfold stuffSymbol
      split <;> simp only [List.length_cons, List.length_nil] <;> omega
    simp only [stuff, List.flatMap_cons, List.length_append, List.length_cons] at *
    omega

/-! ### Unstuffing -/

/-- Unstuffing passes the escape bit from one part of a word to the next. -/
theorem unstuff_append (code : Code Symbol) (first second : List Symbol) :
    ∀ escaped, unstuff code escaped (first ++ second) =
      ((unstuff code escaped first).1 ++ (unstuff code (unstuff code escaped first).2 second).1,
        (unstuff code (unstuff code escaped first).2 second).2) := by
  induction first with
  | nil =>
    intro escaped
    rfl
  | cons symbol rest inductionHypothesis =>
    intro escaped
    by_cases escape : symbol = code.escape
    · simp only [List.cons_append, unstuff, escape, if_true, inductionHypothesis true]
    · simp only [List.cons_append, unstuff, escape, if_false, inductionHypothesis false]

/-- A beginning of a word stands for a beginning of what the word stands for. -/
theorem unstuff_prefix (code : Code Symbol) (escaped : Bool) {first word : List Symbol}
    (beginning : first <+: word) :
    (unstuff code escaped first).1 <+: (unstuff code escaped word).1 := by
  obtain ⟨second, rfl⟩ := beginning
  rw [unstuff_append]
  exact List.prefix_append _ _

theorem unstuff_stuffSymbol (code : Code Symbol) (symbol : Symbol) :
    unstuff code false (stuffSymbol code symbol) = ([symbol], false) := by
  unfold stuffSymbol
  split
  · rename_i reserved
    have masked : code.mask symbol ≠ code.escape := by
      rcases reserved with rfl | rfl
      · exact code.mask_escape_ne_escape
      · exact code.mask_flag_ne_escape
    simp only [unstuff, if_true, masked, if_false, code.mask_mask]
  · rename_i free
    have plain : symbol ≠ code.escape := fun same => free (Or.inl same)
    simp only [unstuff, plain, if_false, Bool.false_eq_true]

/-- Unstuffing a stuffed word gives the word back and leaves no escape pending. -/
theorem unstuff_stuff (code : Code Symbol) (word : List Symbol) :
    unstuff code false (stuff code word) = (word, false) := by
  induction word with
  | nil => rfl
  | cons symbol rest inductionHypothesis =>
    have split : stuff code (symbol :: rest) = stuffSymbol code symbol ++ stuff code rest := rfl
    rw [split, unstuff_append, unstuff_stuffSymbol, inductionHypothesis]
    rfl

/-- Unstuffing yields one symbol for each symbol that is not the escape symbol. -/
theorem length_unstuff (code : Code Symbol) (word : List Symbol) :
    ∀ escaped, (unstuff code escaped word).1.length =
      word.countP fun symbol => decide (symbol ≠ code.escape) := by
  induction word with
  | nil =>
    intro escaped
    rfl
  | cons symbol rest inductionHypothesis =>
    intro escaped
    by_cases escape : symbol = code.escape
    · rw [unstuff, if_pos escape, List.countP_cons_of_neg (by simpa using escape),
        inductionHypothesis]
    · rw [unstuff, if_neg escape, List.countP_cons_of_pos (by simpa using escape),
        List.length_cons, inductionHypothesis]

/-! ### Delimiting -/

/-- Cutting a stream at its flags, given the symbols received since the last flag: the segments
that a flag has ended, in order, and the symbols after the last flag. -/
def segments (flag : Symbol) : List Symbol → List Symbol → List (List Symbol) × List Symbol
  | buffer, [] => ([], buffer)
  | buffer, symbol :: rest =>
      if symbol = flag then
        (buffer :: (segments flag [] rest).1, (segments flag [] rest).2)
      else segments flag (buffer ++ [symbol]) rest

/-- Symbols other than the flag only extend the buffer. -/
theorem segments_append_of_notMem (flag : Symbol) (word rest : List Symbol) :
    ∀ buffer, flag ∉ word → segments flag buffer (word ++ rest) =
      segments flag (buffer ++ word) rest := by
  induction word with
  | nil =>
    intro buffer _
    rw [List.nil_append, List.append_nil]
  | cons symbol word inductionHypothesis =>
    intro buffer free
    rw [List.mem_cons, not_or] at free
    rw [List.cons_append, segments, if_neg (Ne.symm free.1),
      inductionHypothesis (buffer ++ [symbol]) free.2, List.append_assoc, List.singleton_append]

/-- Cutting a stream at any place, the segments of its second part begin with what the first part
has left. -/
theorem segments_append (flag : Symbol) (first second : List Symbol) : ∀ buffer,
    segments flag buffer (first ++ second) =
      ((segments flag buffer first).1 ++ (segments flag (segments flag buffer first).2 second).1,
        (segments flag (segments flag buffer first).2 second).2) := by
  induction first with
  | nil => exact fun buffer => rfl
  | cons symbol rest inductionHypothesis =>
    intro buffer
    rw [List.cons_append, segments, segments]
    split
    · rw [inductionHypothesis, List.cons_append]
    · exact inductionHypothesis _

/-- Every flag ends one segment. -/
theorem length_segments (flag : Symbol) (word : List Symbol) : ∀ buffer : List Symbol,
    (segments flag buffer word).1.length = word.count flag := by
  induction word with
  | nil => exact fun _ => rfl
  | cons symbol rest inductionHypothesis =>
    intro buffer
    rw [segments]
    split
    · rename_i isFlag
      rw [List.length_cons, inductionHypothesis, isFlag, List.count_cons_self]
    · rename_i plain
      rw [inductionHypothesis, List.count_cons_of_ne plain]

/-- Together the segments hold everything but the flags. -/
theorem segments_flatten (flag : Symbol) (word : List Symbol) : ∀ buffer : List Symbol,
    (segments flag buffer word).1.flatten ++ (segments flag buffer word).2 =
      buffer ++ word.filter (· ≠ flag) := by
  induction word with
  | nil => exact fun buffer => (List.append_nil buffer).symm
  | cons symbol rest inductionHypothesis =>
    intro buffer
    rw [segments]
    by_cases isFlag : symbol = flag
    · rw [if_pos isFlag, List.flatten_cons, List.append_assoc, inductionHypothesis [],
        List.filter_cons_of_neg (by simpa using isFlag), List.nil_append]
    · rw [if_neg isFlag, inductionHypothesis, List.filter_cons_of_pos (by simpa using isFlag),
        List.append_assoc, List.singleton_append]

/-- The segments and what is left are the parts that `List.splitOn` gives. -/
theorem segments_eq_splitOn (flag : Symbol) (word : List Symbol) : ∀ buffer : List Symbol,
    (segments flag buffer word).1 ++ [(segments flag buffer word).2] =
      (word.splitOn flag).modifyHead (buffer ++ ·) := by
  induction word with
  | nil =>
    intro buffer
    rw [List.splitOn_nil, List.modifyHead_cons, List.append_nil]
    rfl
  | cons symbol rest inductionHypothesis =>
    intro buffer
    rw [segments, List.splitOn_cons_eq_if_modifyHead]
    by_cases isFlag : symbol = flag
    · have parts := inductionHypothesis []
      rw [show (([] : List Symbol) ++ ·) = id from funext List.nil_append,
        List.modifyHead_id] at parts
      rw [if_pos isFlag, if_pos (beq_iff_eq.mpr isFlag), List.modifyHead_cons, List.append_nil,
        List.cons_append, parts]
      rfl
    · rw [if_neg isFlag, if_neg (beq_iff_eq.not.mpr isFlag), inductionHypothesis,
        List.modifyHead_modifyHead]
      congr 1
      funext part
      exact List.append_assoc buffer [symbol] part

/-- A frame ends the buffered segment, is a segment itself and leaves the buffer empty. -/
theorem segments_frame (flag : Symbol) (buffer body rest : List Symbol) (free : flag ∉ body) :
    segments flag buffer (flag :: (body ++ flag :: rest)) =
      (buffer :: body :: (segments flag [] rest).1, (segments flag [] rest).2) := by
  rw [segments, if_pos rfl, segments_append_of_notMem flag body _ [] free, List.nil_append,
    segments, if_pos rfl]

/-! ### Parts -/

/-- What a stream holds between its flags, given the symbols received since the last flag. -/
def parts (flag : Symbol) (buffer word : List Symbol) : List (List Symbol) :=
  ((segments flag buffer word).1 ++ [(segments flag buffer word).2]).filter (!·.isEmpty)

/-- Cutting a stream at any place, its parts are those that the first part of the stream ends and
those of what is left. -/
theorem parts_append (flag : Symbol) (buffer first second : List Symbol) :
    parts flag buffer (first ++ second) =
      (segments flag buffer first).1.filter (!·.isEmpty) ++
        parts flag (segments flag buffer first).2 second := by
  unfold parts
  rw [segments_append, List.append_assoc, List.filter_append]

/-- The beginning of a frame adds one part to a stream, a beginning of its body, or none. -/
theorem parts_take_frame {flag : Symbol} {body : List Symbol} (free : flag ∉ body)
    (buffer : List Symbol) (kept : Nat) :
    ∃ piece, piece <+: body ∧ parts flag buffer ((flag :: (body ++ [flag])).take kept) =
      parts flag buffer [] ++ [piece].filter (!·.isEmpty) := by
  cases kept with
  | zero => exact ⟨[], List.nil_prefix, (List.append_nil _).symm⟩
  | succ kept =>
    by_cases inside : kept ≤ body.length
    · refine ⟨body.take kept, List.take_prefix kept body, ?_⟩
      have plain : flag ∉ body.take kept := fun member => free (List.mem_of_mem_take member)
      have segment := segments_append_of_notMem flag (body.take kept) [] [] plain
      rw [List.append_nil, List.nil_append] at segment
      have cut : segments flag buffer (flag :: body.take kept) = ([buffer], body.take kept) := by
        rw [segments, if_pos rfl, segment]
        rfl
      rw [List.take_succ_cons, List.take_append_of_le_length inside]
      unfold parts
      rw [cut]
      exact List.filter_append [buffer] [body.take kept]
    · refine ⟨body, List.prefix_rfl, ?_⟩
      have whole : (body ++ [flag]).length ≤ kept := by
        rw [List.length_append, List.length_singleton]
        omega
      rw [List.take_succ_cons, List.take_of_length_le whole]
      unfold parts
      rw [segments_frame flag buffer body [] free]
      exact List.filter_append [buffer] [body, []]

/-- So it does after anything else on the stream. -/
theorem parts_append_take_frame {flag : Symbol} {body : List Symbol} (free : flag ∉ body)
    (buffer word : List Symbol) (kept : Nat) :
    ∃ piece, piece <+: body ∧
      parts flag buffer (word ++ (flag :: (body ++ [flag])).take kept) =
        parts flag buffer word ++ [piece].filter (!·.isEmpty) := by
  obtain ⟨piece, begins, added⟩ := parts_take_frame free (segments flag buffer word).2 kept
  have before := parts_append flag buffer word []
  rw [List.append_nil] at before
  refine ⟨piece, begins, ?_⟩
  rw [parts_append, added, before, List.append_assoc]

/-! ### Cutting at marked symbols -/

omit [DecidableEq Symbol]

/-- Cutting a stream at the symbols that end a segment, for symbols that carry more than what marks
them. -/
def cuts (ends : Symbol → Bool) : List Symbol → List Symbol → List (List Symbol) × List Symbol
  | buffer, [] => ([], buffer)
  | buffer, symbol :: rest =>
      if ends symbol then (buffer :: (cuts ends [] rest).1, (cuts ends [] rest).2)
      else cuts ends (buffer ++ [symbol]) rest

/-- Forgetting what the symbols carry turns the cuts into the segments. -/
theorem segments_map {Carrier : Type} [DecidableEq Symbol] (flag : Symbol)
    (value : Carrier → Symbol) (word : List Carrier) : ∀ buffer : List Carrier,
      segments flag (buffer.map value) (word.map value) =
        ((cuts (value · = flag) buffer word).1.map (List.map value),
          (cuts (value · = flag) buffer word).2.map value) := by
  induction word with
  | nil =>
    intro buffer
    rfl
  | cons symbol rest inductionHypothesis =>
    intro buffer
    have fresh := inductionHypothesis []
    rw [List.map_nil] at fresh
    rw [List.map_cons, segments, cuts]
    by_cases isFlag : value symbol = flag
    · rw [if_pos isFlag, if_pos (decide_eq_true isFlag), fresh]
      rfl
    · have extended := inductionHypothesis (buffer ++ [symbol])
      rw [List.map_append, List.map_singleton] at extended
      rw [if_neg isFlag, if_neg (fun same => isFlag (of_decide_eq_true same)), extended]

/-- Without a symbol that ends a segment nothing but the buffer grows. -/
theorem cuts_nil {ends : Symbol → Bool} {word : List Symbol} : ∀ {first : List Symbol},
    (cuts ends first word).1 = [] → ∀ buffer,
      cuts ends (buffer ++ first) word = ([], buffer ++ (first ++ word)) := by
  induction word with
  | nil => exact fun _ buffer => by rw [cuts, List.append_nil]
  | cons symbol rest inductionHypothesis =>
    intro first none buffer
    rw [cuts] at none ⊢
    split at none
    · cases none
    · rename_i plain
      have extended := inductionHypothesis none buffer
      rw [if_neg plain, List.append_assoc, extended, List.append_assoc, List.singleton_append]

/-- What the buffer holds belongs to the first segment that is ended. -/
theorem cuts_cons {ends : Symbol → Bool} {word segment : List Symbol}
    {others : List (List Symbol)} : ∀ {first : List Symbol},
      (cuts ends first word).1 = segment :: others → ∀ buffer,
        cuts ends (buffer ++ first) word =
          ((buffer ++ segment) :: others, (cuts ends first word).2) := by
  induction word with
  | nil => exact nofun
  | cons symbol rest inductionHypothesis =>
    intro first some buffer
    rw [cuts] at some ⊢
    rw [cuts]
    split at some
    · rename_i ended
      obtain ⟨rfl, rfl⟩ := List.cons.inj some
      rw [if_pos ended, if_pos ended]
    · rename_i plain
      rw [if_neg plain, if_neg plain, List.append_assoc]
      exact inductionHypothesis some buffer

/-- The segments and what is left stand in the stream in their order. -/
theorem cuts_sublist (ends : Symbol → Bool) (word : List Symbol) : ∀ buffer : List Symbol,
    ((cuts ends buffer word).1.flatten ++ (cuts ends buffer word).2).Sublist (buffer ++ word) := by
  induction word with
  | nil =>
    intro buffer
    exact (List.append_nil buffer).symm ▸ List.Sublist.refl buffer
  | cons symbol rest inductionHypothesis =>
    intro buffer
    rw [cuts]
    split
    · rw [List.flatten_cons, List.append_assoc]
      exact (List.Sublist.refl buffer).append ((inductionHypothesis []).cons symbol)
    · have extended := inductionHypothesis (buffer ++ [symbol])
      rwa [List.append_assoc, List.singleton_append] at extended

/-- What the flags cut holds no flag, where the buffer held none. -/
theorem segments_free [DecidableEq Symbol] (flag : Symbol) (word : List Symbol) :
    ∀ {buffer : List Symbol}, flag ∉ buffer →
      (∀ segment ∈ (segments flag buffer word).1, flag ∉ segment) ∧
        flag ∉ (segments flag buffer word).2 := by
  induction word with
  | nil => exact fun free => ⟨nofun, free⟩
  | cons symbol rest inductionHypothesis =>
    intro buffer free
    rw [segments]
    split
    · obtain ⟨ended, left⟩ := inductionHypothesis List.not_mem_nil
      exact ⟨List.forall_mem_cons.mpr ⟨free, ended⟩, left⟩
    · rename_i plain
      refine inductionHypothesis fun member => ?_
      rcases List.mem_append.mp member with inside | last
      · exact free inside
      · exact plain (List.mem_singleton.mp last).symm

end Framing
