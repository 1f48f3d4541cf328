/-
This file says what `BytesToFrame` makes of frames of which the end is missing, as
`Serial::txd` leaves them when it discards what the line has not sent.

The next frame begins with a flag, which ends what is left of the one before. What is
between two flags is then a beginning of the body of a frame. The decoder rejects it, or
gives a beginning of the payload where the checksum fits by accident; it never joins two
frames.
-/

import BrokerProxy.Ppp.Link
import Mathlib.Data.List.Forall2

namespace BrokerProxy.Ppp

open Framing Line

/-! ### One frame -/

theorem popBack_eq_some {word out : Bytes} (popped : popBack word = some out) :
    out <+: word ∧ out.length + 1 = word.length := by
  unfold popBack at popped
  split at popped
  · cases popped
  · rename_i nonempty
    cases popped
    have positive := List.length_pos_iff.mpr nonempty
    exact ⟨List.dropLast_prefix word, by rw [List.length_dropLast]; omega⟩

/-- What the decoder accepts of a frame of which the end is missing is a beginning of the
payload. -/
theorem pppDeframe_of_prefix {payload segment out : Bytes} (cut : segment <+: frameBody payload)
    (accepted : pppDeframe segment = some (true, out)) : out <+: payload := by
  have free : flagChar ∉ segment := fun member => frameBody_free payload (cut.subset member)
  have long : 3 ≤ segment.length := by
    by_contra short
    rw [pppDeframe, if_pos (by omega)] at accepted
    cases accepted
  rw [pppDeframe_eq segment long free] at accepted
  obtain ⟨last, popped, same⟩ := Option.map_eq_some_iff.mp accepted
  obtain rfl : last = out := (Prod.mk.inj same).2
  obtain ⟨middle, first, second⟩ := Option.bind_eq_some_iff.mp popped
  obtain ⟨begins, shorter⟩ := popBack_eq_some first
  obtain ⟨beginsAgain, shorterAgain⟩ := popBack_eq_some second
  have whole := unstuff_prefix pppCode false cut
  rw [frameBody, unstuff_stuff] at whole
  have length := whole.length_le
  rw [List.length_append] at length
  have two : (fcsBytes payload).length = 2 := rfl
  refine List.prefix_of_prefix_length_le ((beginsAgain.trans begins).trans whole)
    (List.prefix_append _ _) ?_
  omega

/-- The beginning of a frame emits at most a beginning of the payload. -/
theorem segmentEvents_of_prefix {payload segment : Bytes} {events : List FrameEvent}
    (cut : segment <+: frameBody payload) (defined : segmentEvents segment = some events) :
    emissions events = [] ∨ ∃ out, emissions events = [out] ∧ out <+: payload := by
  unfold segmentEvents at defined
  split at defined
  · cases defined
    exact Or.inl rfl
  · obtain ⟨⟨accepted, out⟩, deframed, rfl⟩ := Option.map_eq_some_iff.mp defined
    cases accepted with
    | true => exact Or.inr ⟨out, rfl, pppDeframe_of_prefix cut deframed⟩
    | false => exact Or.inl (emissions_toStdout segment)

/-! ### A stream -/

/-- Each part of a stream is a beginning of the body of one of the frames, in order. -/
def CutFrames (parts payloads : List Bytes) : Prop :=
  List.Forall₂ (fun part payload => part <+: frameBody payload) parts payloads

/-- What the segments of a stream emit are beginnings of some of the payloads, in order. -/
theorem allEvents_of_cut (segments : List Bytes) :
    ∀ {payloads : List Bytes} {events : List FrameEvent},
      CutFrames (segments.filter (!·.isEmpty)) payloads → allEvents segments = some events →
        ∃ origins, origins.Sublist payloads ∧
          List.Forall₂ (fun out payload => out <+: payload) (emissions events) origins := by
  induction segments with
  | nil =>
    intro payloads events _ defined
    cases defined
    exact ⟨[], List.nil_sublist payloads, .nil⟩
  | cons segment rest inductionHypothesis =>
    intro payloads events cut defined
    obtain ⟨first, segmentDefined, defined⟩ := Option.bind_eq_some_iff.mp defined
    obtain ⟨more, restDefined, rfl⟩ := Option.map_eq_some_iff.mp defined
    rw [emissions_append]
    cases empty : segment.isEmpty with
    | true =>
      rw [List.filter_cons, if_neg (by rw [empty]; decide)] at cut
      rw [List.isEmpty_iff.mp empty] at segmentDefined
      cases segmentDefined
      exact inductionHypothesis cut restDefined
    | false =>
      rw [List.filter_cons, if_pos (by rw [empty]; rfl)] at cut
      obtain ⟨payload, others, begins, later, rfl⟩ := List.forall₂_cons_left_iff.mp cut
      obtain ⟨origins, among, pairs⟩ := inductionHypothesis later restDefined
      rcases segmentEvents_of_prefix begins segmentDefined with nothing | ⟨out, one, part⟩
      · rw [nothing]
        exact ⟨origins, among.cons payload, pairs⟩
      · rw [one]
        exact ⟨payload :: origins, among.cons_cons payload, .cons part pairs⟩

/-- The frames that the first parts of a stream are cut from come first. -/
theorem CutFrames.split {first second payloads : List Bytes}
    (cut : CutFrames (first ++ second) payloads) :
    ∃ read left, payloads = read ++ left ∧ CutFrames first read ∧ CutFrames second left :=
  ⟨payloads.take first.length, payloads.drop first.length,
    (List.take_append_drop first.length payloads).symm,
    (List.forall₂_take_append payloads first second cut.flip).flip,
    (List.forall₂_drop_append payloads first second cut.flip).flip⟩

/-- The beginning of a frame adds at most a part of it to the stream. -/
theorem CutFrames.write {buffer payload : Bytes} {line : List (Marked UInt8)}
    {payloads : List Bytes}
    (cut : CutFrames (parts flagChar buffer (line.map Marked.symbol)) payloads)
    {beginning : List (Marked UInt8)} (part : beginning.map Marked.symbol <+: pppFrame payload) :
    ∃ added, added.Sublist [payload] ∧
      CutFrames (parts flagChar buffer ((line ++ beginning).map Marked.symbol))
        (payloads ++ added) := by
  obtain ⟨piece, begins, written⟩ := parts_append_take_frame (frameBody_free payload) buffer
    (line.map Marked.symbol) (beginning.map Marked.symbol).length
  rw [← pppFrame_eq, ← List.prefix_iff_eq_take.mp part] at written
  rw [List.map_append, written]
  cases empty : piece.isEmpty with
  | true =>
    refine ⟨[], List.nil_sublist [payload], ?_⟩
    rw [List.filter_cons, if_neg (by rw [empty]; decide), List.append_nil]
    exact (List.append_nil _).symm ▸ cut
  | false =>
    refine ⟨[payload], List.Sublist.refl [payload], ?_⟩
    rw [List.filter_cons, if_pos (by rw [empty]; rfl)]
    exact List.rel_append cut (.cons begins .nil)

/-- A call of the receiver that ends in time takes the parts that it ends off the stream, and emits
beginnings of some of their payloads, in order. -/
theorem handleRxd_of_cut {receiver next : BytesToFrame} {chunk line : List (Marked UInt8)}
    {readings : Nat → UInt64} {finish : UInt64} {payloads : List Bytes} {events : List FrameEvent}
    (onTime : ¬ finish - lastFlag receiver.lastFrameFlag (timed chunk readings) > frameTimeout)
    (cut : CutFrames
      (parts flagChar receiver.inputFrame ((chunk ++ line).map Marked.symbol)) payloads)
    (handled : handleRxd receiver ⟨timed chunk readings, finish⟩ = some (next, events)) :
    ∃ read left origins, payloads = read ++ left ∧
      CutFrames (parts flagChar next.inputFrame (line.map Marked.symbol)) left ∧
      origins.Sublist read ∧
      List.Forall₂ (fun out payload => out <+: payload) (emissions events) origins := by
  have looped := rxdLoop_segments (timed chunk readings) receiver
  rw [← handleRxd_onTime receiver ⟨timed chunk readings, finish⟩ onTime, handled, symbols_timed,
    Option.map_some] at looped
  obtain ⟨other, ended, same⟩ := Option.map_eq_some_iff.mp looped.symm
  obtain ⟨buffer, rfl⟩ := Prod.mk.inj same
  rw [List.map_append, parts_append, buffer] at cut
  obtain ⟨read, left, rfl, first, rest⟩ := cut.split
  obtain ⟨origins, among, pairs⟩ := allEvents_of_cut _ first ended
  exact ⟨read, left, origins, rfl, rest, among, pairs⟩

end BrokerProxy.Ppp
