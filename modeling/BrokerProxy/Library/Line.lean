/-
This file develops a line that carries framed messages with other text between them, and
what a receiver can rely on that reads it in pieces.

A frame is a flag, the body of the message and a flag. The receiver keeps what it has
read since the last flag. Between two frames the sender may write text, in which no flag
occurs; the text since the last frame becomes a segment of its own when the next frame
begins, so the receiver must be able to tell it from a body, also when it has dropped the
beginning of it. The symbols on the line carry a mark, which neither end reads: whether
the symbol belongs to a frame that has begun before it.

A line carries a list of messages if reading it to its end, from what the receiver
holds, gives these messages. Writing adds a message at the end, reading a flag takes one
off the front or ends a text, and nothing else changes them; and a receiver that forgets
what it holds loses nothing, unless it is inside a frame.
-/

import Mathlib.Data.List.Basic

namespace Line

/-- A way of framing: the flag, the body of each message, and the texts that a receiver takes for
nothing. -/
structure Framer (Symbol Message : Type) where
  flag : Symbol
  body : Message → List Symbol
  quiet : List Symbol → Prop
  body_free : ∀ message, flag ∉ body message
  quiet_of_suffix : ∀ {last whole : List Symbol}, last <:+ whole → quiet whole → quiet last

/-- A symbol on the line, and whether a frame has begun before it and has not ended. -/
structure Marked (Symbol : Type) where
  symbol : Symbol
  within : Bool

variable {Symbol Message : Type}

/-- Text on the line. -/
def outer (word : List Symbol) : List (Marked Symbol) := word.map (⟨·, false⟩)

/-- The inside of a frame on the line. -/
def inner (word : List Symbol) : List (Marked Symbol) := word.map (⟨·, true⟩)

/-- A frame on the line. -/
def Framer.frame (framer : Framer Symbol Message) (message : Message) : List (Marked Symbol) :=
  ⟨framer.flag, false⟩ :: inner (framer.body message ++ [framer.flag])

theorem symbols_outer (word : List Symbol) : (outer word).map Marked.symbol = word := by
  rw [outer, List.map_map]
  exact List.map_id word

theorem symbols_inner (word : List Symbol) : (inner word).map Marked.symbol = word := by
  rw [inner, List.map_map]
  exact List.map_id word

/-- The symbols of a frame. -/
theorem Framer.symbols_frame (framer : Framer Symbol Message) (message : Message) :
    (framer.frame message).map Marked.symbol =
      framer.flag :: (framer.body message ++ [framer.flag]) := by
  rw [frame, List.map_cons, symbols_inner]

theorem outer_append (first second : List Symbol) :
    outer (first ++ second) = outer first ++ outer second :=
  List.map_append

/-- What a line carries for a receiver that holds a buffer, with the text that has been written
since the last frame. -/
inductive Framer.Carries (framer : Framer Symbol Message) :
    List Symbol → List (Marked Symbol) → List Symbol → List Message → Prop
  | text {buffer since : List Symbol} (word : List Symbol) (free : framer.flag ∉ word)
      (last : buffer ++ word <:+ since) : framer.Carries buffer (outer word) since []
  | gap {buffer since : List Symbol} {line : List (Marked Symbol)} {messages : List Message}
      (word : List Symbol) (free : framer.flag ∉ word) (quiet : framer.quiet (buffer ++ word))
      (message : Message) (later : framer.Carries [] line since messages) :
      framer.Carries buffer (outer word ++ (framer.frame message ++ line)) since
        (message :: messages)
  | frame {buffer since : List Symbol} {line : List (Marked Symbol)} {messages : List Message}
      (word : List Symbol) (message : Message) (whole : buffer ++ word = framer.body message)
      (later : framer.Carries [] line since messages) :
      framer.Carries buffer (inner (word ++ [framer.flag]) ++ line) since (message :: messages)

namespace Framer

variable {framer : Framer Symbol Message} {buffer since : List Symbol}
  {line : List (Marked Symbol)} {messages : List Message}

/-- An empty line carries nothing. -/
theorem carries_nil : framer.Carries [] [] [] [] :=
  .text [] List.not_mem_nil (List.nil_suffix)

theorem Carries.messages_of_nil (carries : framer.Carries buffer [] since messages) :
    messages = [] := by
  generalize empty : ([] : List (Marked Symbol)) = whole at carries
  cases carries with
  | text word free last => rfl
  | gap word free quiet message later =>
    have noFrame := (List.append_eq_nil_iff.mp (List.append_eq_nil_iff.mp empty.symm).2).1
    exact absurd noFrame (List.cons_ne_nil _ _)
  | frame word message whole later =>
    have nothing := List.map_eq_nil_iff.mp (List.append_eq_nil_iff.mp empty.symm).1
    exact absurd nothing (List.append_ne_nil_of_right_ne_nil _ (List.cons_ne_nil _ _))

/-! ### The sender -/

/-- Writing text changes no message. -/
theorem Carries.print (carries : framer.Carries buffer line since messages) {word : List Symbol}
    (free : framer.flag ∉ word) :
    framer.Carries buffer (line ++ outer word) (since ++ word) messages := by
  induction carries with
  | text before freeBefore last =>
    rw [← outer_append]
    refine .text (before ++ word) ?_ ?_
    · exact fun member => (List.mem_append.mp member).elim freeBefore free
    · obtain ⟨front, rfl⟩ := last
      exact ⟨front, by simp only [List.append_assoc]⟩
  | gap before freeBefore quiet message later inductionHypothesis =>
    rw [List.append_assoc, List.append_assoc]
    exact .gap before freeBefore quiet message inductionHypothesis
  | frame before message whole later inductionHypothesis =>
    rw [List.append_assoc]
    exact .frame before message whole inductionHypothesis

/-- Writing a frame after quiet text adds its message. -/
theorem Carries.write (carries : framer.Carries buffer line since messages)
    (quiet : framer.quiet since) (message : Message) :
    framer.Carries buffer (line ++ framer.frame message) [] (messages ++ [message]) := by
  induction carries with
  | text before free last =>
    have nothing : framer.Carries [] [] [] [] := carries_nil
    have written := Carries.gap before free (framer.quiet_of_suffix last quiet) message nothing
    rwa [List.append_nil] at written
  | gap before free quietBefore first later inductionHypothesis =>
    rw [List.append_assoc, List.append_assoc]
    exact .gap before free quietBefore first (inductionHypothesis quiet)
  | frame before first whole later inductionHypothesis =>
    rw [List.append_assoc]
    exact .frame before first whole (inductionHypothesis quiet)

/-! ### The receiver -/

/-- Reading a symbol other than the flag only extends the buffer. -/
theorem Carries.read_plain {marked : Marked Symbol}
    (carries : framer.Carries buffer (marked :: line) since messages)
    (plain : marked.symbol ≠ framer.flag) :
    framer.Carries (buffer ++ [marked.symbol]) line since messages := by
  generalize first : marked :: line = whole at carries
  cases carries with
  | text word free last =>
    cases word with
    | nil => cases first
    | cons symbol rest =>
      obtain ⟨rfl, rfl⟩ := List.cons.inj first
      refine .text rest (fun member => free (List.mem_cons_of_mem _ member)) ?_
      rwa [List.append_assoc]
  | gap word free quiet message later =>
    cases word with
    | nil =>
      obtain ⟨rfl, -⟩ := List.cons.inj first
      exact absurd rfl plain
    | cons symbol rest =>
      obtain ⟨rfl, rfl⟩ := List.cons.inj first
      refine .gap rest (fun member => free (List.mem_cons_of_mem _ member)) ?_ message later
      rwa [List.append_assoc]
  | frame word message whole later =>
    cases word with
    | nil =>
      obtain ⟨rfl, -⟩ := List.cons.inj first
      exact absurd rfl plain
    | cons symbol rest =>
      obtain ⟨rfl, rfl⟩ := List.cons.inj first
      refine .frame rest message ?_ later
      rwa [List.append_assoc]

/-- Reading the flag ends a quiet text, or takes the first message off the line. -/
theorem Carries.read_flag {marked : Marked Symbol}
    (carries : framer.Carries buffer (marked :: line) since messages)
    (isFlag : marked.symbol = framer.flag) :
    (framer.quiet buffer ∧ framer.Carries [] line since messages) ∨
      ∃ message later, messages = message :: later ∧ buffer = framer.body message ∧
        framer.Carries [] line since later := by
  generalize first : marked :: line = whole at carries
  cases carries with
  | text word free last =>
    cases word with
    | nil => cases first
    | cons symbol rest =>
      obtain ⟨rfl, -⟩ := List.cons.inj first
      exact absurd (isFlag ▸ List.mem_cons_self) free
  | gap word free quiet message later =>
    cases word with
    | nil =>
      obtain ⟨rfl, rfl⟩ := List.cons.inj first
      rw [List.append_nil] at quiet
      exact Or.inl ⟨quiet, .frame (framer.body message) message rfl later⟩
    | cons symbol rest =>
      obtain ⟨rfl, -⟩ := List.cons.inj first
      exact absurd (isFlag ▸ List.mem_cons_self) free
  | frame word message whole later =>
    cases word with
    | nil =>
      obtain ⟨rfl, rfl⟩ := List.cons.inj first
      rw [List.append_nil] at whole
      exact Or.inr ⟨message, _, rfl, whole, later⟩
    | cons symbol rest =>
      obtain ⟨rfl, -⟩ := List.cons.inj first
      have inside : framer.flag ∈ framer.body message := by
        rw [← whole, List.mem_append]
        exact Or.inr (isFlag ▸ List.mem_cons_self)
      exact absurd inside (framer.body_free message)

/-- A receiver that forgets its buffer outside a frame loses no message. -/
theorem Carries.forget (carries : framer.Carries buffer line since messages)
    (outside : ∀ marked ∈ line.head?, marked.within = false) :
    framer.Carries [] line since messages := by
  cases carries with
  | text word free last => exact .text word free ((List.suffix_append buffer word).trans last)
  | gap word free quiet message later =>
    have shorter : framer.quiet ([] ++ word) :=
      framer.quiet_of_suffix (List.suffix_append buffer word) quiet
    exact .gap word free shorter message later
  | frame word message whole later =>
    cases word with
    | nil => cases outside _ rfl
    | cons symbol rest => cases outside _ rfl

end Framer

end Line
