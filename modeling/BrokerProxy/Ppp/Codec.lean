/-
This file proves what the stream codec guarantees: the frames of a list of payloads,
cut in any way and fed to a receiver with any leftover bytes, come out as the payloads
in order, after at most one emission from the leftover bytes; and it characterises the
segments on which the decoder's two final `pop_back` calls are defined, which is where
a run of escape bytes breaks the length guard.
-/

import BrokerProxy.Ppp.BytesToFrame

namespace BrokerProxy.Ppp

open Framing

/-! ### The frames of a list of payloads -/

theorem segmentEvents_frameBody (payload : Bytes) (nonempty : payload ≠ []) :
    segmentEvents (frameBody payload) = some [.emit payload] := by
  have long := length_frameBody payload
  rw [segmentEvents, if_neg (by omega), pppDeframe_frameBody payload nonempty]
  rfl

/-- The segments of a frame followed by more bytes. -/
theorem segments_pppFrame (buffer payload rest : Bytes) :
    segments flagChar buffer (pppFrame payload ++ rest) =
      (buffer :: frameBody payload :: (segments flagChar [] rest).1,
        (segments flagChar [] rest).2) := by
  rw [pppFrame_eq, List.cons_append, List.append_assoc, List.singleton_append]
  exact segments_frame flagChar buffer (frameBody payload) rest (frameBody_free payload)

/-- With an empty buffer the frames of a list of payloads emit exactly the payloads and leave
the buffer empty. -/
theorem allEvents_frames (payloads : List Bytes) (nonempty : ∀ payload ∈ payloads, payload ≠ []) :
    allEvents (segments flagChar [] (payloads.flatMap pppFrame)).1 =
        some (payloads.map FrameEvent.emit) ∧
      (segments flagChar [] (payloads.flatMap pppFrame)).2 = [] := by
  induction payloads with
  | nil => exact ⟨rfl, rfl⟩
  | cons payload rest inductionHypothesis =>
    obtain ⟨events, left⟩ :=
      inductionHypothesis fun other member => nonempty other (List.mem_cons_of_mem _ member)
    rw [List.flatMap_cons, segments_pppFrame]
    refine ⟨?_, left⟩
    simp only [allEvents, segmentEvents_frameBody payload (nonempty payload List.mem_cons_self),
      events]
    rfl

/-- With leftover bytes in the buffer the first flag ends the leftover segment, and the payloads
follow. -/
theorem allEvents_leftover (buffer : Bytes) (payload : Bytes) (rest : List Bytes)
    (nonempty : ∀ other ∈ payload :: rest, other ≠ []) :
    allEvents (segments flagChar buffer ((payload :: rest).flatMap pppFrame)).1 =
        (segmentEvents buffer).map (fun events => events ++ (payload :: rest).map .emit) ∧
      (segments flagChar buffer ((payload :: rest).flatMap pppFrame)).2 = [] := by
  obtain ⟨events, left⟩ :=
    allEvents_frames rest fun other member => nonempty other (List.mem_cons_of_mem _ member)
  rw [List.flatMap_cons, segments_pppFrame]
  refine ⟨?_, left⟩
  simp only [allEvents, segmentEvents_frameBody payload (nonempty payload List.mem_cons_self),
    events]
  cases segmentEvents buffer <;> rfl

/-! ### The codec over a stream -/

/-- What the first flag makes of the leftover bytes: the payload, where they are an accepted
frame body, and nothing otherwise. -/
def leftoverEmission (buffer : Bytes) : List Bytes :=
  match pppDeframe buffer with
  | some (true, out) => [out]
  | _ => []

theorem leftoverEmission_nil : leftoverEmission [] = [] := by
  rfl

theorem length_leftoverEmission_le (buffer : Bytes) : (leftoverEmission buffer).length ≤ 1 := by
  unfold leftoverEmission
  split <;> simp

theorem emissions_toStdout (bs : Bytes) : emissions (toStdout bs) = [] := by
  unfold toStdout
  split <;> rfl

theorem emissions_append (first second : List FrameEvent) :
    emissions (first ++ second) = emissions first ++ emissions second :=
  List.filterMap_append

theorem emissions_map_emit (payloads : List Bytes) :
    emissions (payloads.map FrameEvent.emit) = payloads := by
  rw [emissions, List.filterMap_map]
  exact List.filterMap_some

/-- A segment that the decoder is defined on has events, and they emit what the decoder
accepts. -/
theorem segmentEvents_defined (buffer : Bytes) (defined : (pppDeframe buffer).isSome = true) :
    ∃ events, segmentEvents buffer = some events ∧ emissions events = leftoverEmission buffer := by
  unfold segmentEvents
  by_cases empty : buffer.length = 0
  · refine ⟨[], if_pos empty, ?_⟩
    rw [List.length_eq_zero_iff.mp empty, leftoverEmission_nil]
    rfl
  · obtain ⟨⟨accepted, out⟩, deframed⟩ := Option.isSome_iff_exists.mp defined
    rw [if_neg empty, leftoverEmission, deframed, Option.map_some]
    refine ⟨_, rfl, ?_⟩
    cases accepted with
    | true => rfl
    | false => exact emissions_toStdout buffer

/-- Whatever bytes the receiver holds, the frames of a list of non-empty payloads, cut into
chunks in any way, come out as exactly the payloads in order, after at most one emission that
the leftover bytes are responsible for; the buffer ends empty once a frame has been received.
The decoder is assumed to be defined on the leftover bytes, and the calls to be on time. -/
theorem runRxd_frames (state : BytesToFrame) (payloads : List Bytes) (calls : List RxdCall)
    (nonempty : ∀ payload ∈ payloads, payload ≠ [])
    (cut : (calls.flatMap RxdCall.bytes).map Prod.fst = payloads.flatMap pppFrame)
    (onTime : OnTime state.lastFrameFlag calls)
    (defined : (pppDeframe state.inputFrame).isSome = true) :
    ∃ final events leftover,
      runRxd state calls = some (final, events) ∧
        emissions events = leftover ++ payloads ∧
        leftover.length ≤ 1 ∧
        leftover = (if payloads = [] then [] else leftoverEmission state.inputFrame) ∧
        (state.inputFrame = [] → emissions events = payloads) ∧
        final.inputFrame = if payloads = [] then state.inputFrame else [] := by
  have looped := rxdLoop_segments (calls.flatMap RxdCall.bytes) state
  rw [cut, ← runRxd_onTime calls state onTime] at looped
  cases payloads with
  | nil =>
    rw [List.flatMap_nil] at looped
    obtain ⟨⟨final, events⟩, ran, same⟩ := Option.map_eq_some_iff.mp looped
    obtain ⟨buffer, rfl⟩ := Prod.mk.inj same
    exact ⟨final, [], [], ran, rfl, Nat.zero_le _, rfl, fun _ => rfl, buffer⟩
  | cons payload rest =>
    obtain ⟨frames, left⟩ := allEvents_leftover state.inputFrame payload rest nonempty
    obtain ⟨first, leftoverEvents, emitted⟩ := segmentEvents_defined state.inputFrame defined
    rw [frames, left, leftoverEvents] at looped
    obtain ⟨⟨final, events⟩, ran, same⟩ := Option.map_eq_some_iff.mp looped
    obtain ⟨buffer, rfl⟩ := Prod.mk.inj same
    have all : emissions (first ++ (payload :: rest).map .emit) =
        leftoverEmission state.inputFrame ++ payload :: rest := by
      rw [emissions_append, emitted, emissions_map_emit]
    refine ⟨final, _, leftoverEmission state.inputFrame, ran, all,
      length_leftoverEmission_le _, by rw [if_neg (List.cons_ne_nil _ _)], fun empty => ?_, ?_⟩
    · rw [all, empty, leftoverEmission_nil, List.nil_append]
    · rw [buffer, if_neg (List.cons_ne_nil _ _)]

/-- One escaped payload byte, cut between the escape byte and its successor, after two leftover
bytes. -/
theorem runRxd_frames_cut_at_escape :
    ∃ final events leftover,
      runRxd { inputFrame := [0x41, 0x42], cleanData := [], lastFrameFlag := 7 }
          [⟨((pppFrame [0x7E]).take 2).map (·, 7), 8⟩,
            ⟨((pppFrame [0x7E]).drop 2).map (·, 9), 9⟩] = some (final, events) ∧
        emissions events = leftover ++ [[0x7E]] ∧ leftover.length ≤ 1 ∧
        final.inputFrame = [] := by
  obtain ⟨final, events, leftover, ran, emitted, short, -, -, empty⟩ :=
    runRxd_frames { inputFrame := [0x41, 0x42], cleanData := [], lastFrameFlag := 7 } [[0x7E]]
      [⟨((pppFrame [0x7E]).take 2).map (·, 7), 8⟩, ⟨((pppFrame [0x7E]).drop 2).map (·, 9), 9⟩]
      (by decide) (by decide +kernel) ⟨by decide +kernel, by decide +kernel, trivial⟩
      (by decide +kernel)
  exact ⟨final, events, leftover, ran, emitted, short, empty⟩

/-- Without any frame in the stream the leftover bytes stay in the buffer, so the buffer is not
empty at the end of every such run. -/
theorem runRxd_no_frame_keeps_leftover :
    ¬ ∀ (state : BytesToFrame) (payloads : List Bytes) (calls : List RxdCall),
      (∀ payload ∈ payloads, payload ≠ []) →
        (calls.flatMap RxdCall.bytes).map Prod.fst = payloads.flatMap pppFrame →
          OnTime state.lastFrameFlag calls → (pppDeframe state.inputFrame).isSome = true →
            ∃ final events leftover,
              runRxd state calls = some (final, events) ∧ leftover.length ≤ 1 ∧
                emissions events = leftover ++ payloads ∧ final.inputFrame = [] := by
  intro claimed
  obtain ⟨final, events, leftover, ran, -, -, empty⟩ :=
    claimed { inputFrame := [0x41], cleanData := [], lastFrameFlag := 0 } [] []
      (by decide) rfl trivial (by decide)
  obtain ⟨rfl, -⟩ := Prod.mk.inj (Option.some.inj ran)
  exact absurd empty (by decide)

/-! ### The segments on which the decoder is defined -/

/-- The segments a receiver passes to `ppp_deframe`: the non-empty contents of the buffer at some
point of some run from an empty buffer, where the next byte is a flag. -/
def HandedToDeframe (segment : Bytes) : Prop :=
  segment ≠ [] ∧
    ∃ (start state middle : BytesToFrame) (calls : List RxdCall) (bytes : List (UInt8 × UInt64))
      (before after : List FrameEvent),
      start.inputFrame = [] ∧ runRxd start calls = some (state, before) ∧
        rxdLoop state bytes = some (middle, after) ∧ middle.inputFrame = segment

theorem rxdByte_free {state next : BytesToFrame} {b : UInt8 × UInt64} {events : List FrameEvent}
    (free : flagChar ∉ state.inputFrame) (stepped : rxdByte state b = some (next, events)) :
    flagChar ∉ next.inputFrame := by
  rcases rxdByte_fields stepped with ⟨-, empty, -⟩ | ⟨plain, pushed, -⟩
  · rw [empty]
    exact List.not_mem_nil
  · rw [pushed, List.mem_append, List.mem_singleton]
    exact fun member => member.elim free fun same => plain same.symm

theorem rxdLoop_free {state final : BytesToFrame} {bytes : List (UInt8 × UInt64)}
    {events : List FrameEvent} (free : flagChar ∉ state.inputFrame)
    (looped : rxdLoop state bytes = some (final, events)) : flagChar ∉ final.inputFrame :=
  Traced.iterate_invariant (fun state : BytesToFrame => flagChar ∉ state.inputFrame)
    (fun _ _ _ _ holds stepped => rxdByte_free holds stepped) bytes free looped

theorem handleRxd_free {state next : BytesToFrame} {call : RxdCall} {events : List FrameEvent}
    (free : flagChar ∉ state.inputFrame) (handled : handleRxd state call = some (next, events)) :
    flagChar ∉ next.inputFrame := by
  obtain ⟨middle, before, after, looped, ended, -⟩ := Traced.andThen_eq_some handled
  split at ended
  · obtain ⟨rfl, -⟩ := Prod.mk.inj (Option.some.inj ended)
    exact List.not_mem_nil
  · obtain ⟨rfl, -⟩ := Prod.mk.inj (Option.some.inj ended)
    exact rxdLoop_free free looped

/-- What a receiver hands to the decoder are exactly the non-empty words without flags. -/
theorem handedToDeframe_iff (segment : Bytes) :
    HandedToDeframe segment ↔ segment ≠ [] ∧ flagChar ∉ segment := by
  constructor
  · rintro ⟨nonempty, start, state, middle, calls, bytes, before, after, empty, ran, looped, rfl⟩
    refine ⟨nonempty, rxdLoop_free ?_ looped⟩
    exact Traced.iterate_invariant (fun state : BytesToFrame => flagChar ∉ state.inputFrame)
      (fun _ _ _ _ holds handled => handleRxd_free holds handled) calls
      (empty ▸ List.not_mem_nil) ran
  · rintro ⟨nonempty, free⟩
    have looped := rxdLoop_segments (segment.map (·, 0))
      { inputFrame := [], cleanData := [], lastFrameFlag := 0 }
    have bytes : (segment.map ((·, 0) : UInt8 → UInt8 × UInt64)).map Prod.fst = segment := by
      rw [List.map_map]
      exact List.map_id segment
    have left := segments_append_of_notMem flagChar segment [] [] free
    rw [List.append_nil, List.nil_append] at left
    rw [bytes, left] at looped
    obtain ⟨⟨middle, events⟩, ran, same⟩ := Option.map_eq_some_iff.mp looped
    exact ⟨nonempty, _, _, middle, [], _, [], events, rfl, rfl, ran, (Prod.mk.inj same).1⟩

theorem isSome_popBack_popBack (out : Bytes) :
    ((popBack out).bind popBack).isSome = true ↔ 2 ≤ out.length := by
  rcases List.eq_nil_or_concat out with rfl | ⟨front, last, rfl⟩
  · simp [popBack]
  · rw [List.concat_eq_append, popBack_append, Option.bind_some, popBack, List.length_append]
    by_cases empty : front = []
    · simp [empty]
    · have positive := List.length_pos_of_ne_nil empty
      simp only [empty, if_false, Option.isSome_some, List.length_singleton, true_iff]
      omega

/-- The two final `pop_back` calls are defined on a word without flags exactly when it is shorter
than the length guard or holds two bytes that are not the escape byte. -/
theorem pppDeframe_isSome_iff (segment : Bytes) (free : flagChar ∉ segment) :
    (pppDeframe segment).isSome = true ↔
      segment.length < 3 ∨ 2 ≤ segment.countP fun b => decide (b ≠ escChar) := by
  by_cases short : segment.length < 3
  · rw [pppDeframe, if_pos short]
    simp only [Option.isSome_some, short, true_or]
  · rw [pppDeframe_eq segment (by omega) free, Option.isSome_map, isSome_popBack_popBack,
      length_unstuff]
    simp only [short, false_or]
    rfl

/-- On the segments a receiver hands over, the two final `pop_back` calls meet an element, or are
not reached, exactly when the segment is shorter than the length guard or holds two bytes that
are not the escape byte. -/
theorem pppDeframe_defined_iff (segment : Bytes) (handed : HandedToDeframe segment) :
    (pppDeframe segment).isSome = true ↔
      segment.length < 3 ∨ 2 ≤ segment.countP fun b => decide (b ≠ escChar) :=
  pppDeframe_isSome_iff segment ((handedToDeframe_iff segment).mp handed).2

/-- The segment of a frame with one letter passes the length guard, and is accepted. -/
theorem pppDeframe_defined_letter :
    pppDeframe [0x41, 0xF5, 0xA3] = some (true, [0x41]) ∧
      ((pppDeframe [0x41, 0xF5, 0xA3]).isSome = true ↔
        [0x41, 0xF5, 0xA3].length < 3 ∨
          2 ≤ ([0x41, 0xF5, 0xA3] : Bytes).countP fun b => decide (b ≠ escChar)) :=
  ⟨by decide +kernel,
    pppDeframe_defined_iff [0x41, 0xF5, 0xA3] ((handedToDeframe_iff _).mpr (by decide))⟩

/-- Three escape bytes pass the length guard and unstuff to nothing. -/
theorem pppDeframe_escapes_undefined :
    HandedToDeframe [0x7D, 0x7D, 0x7D] ∧ pppDeframe [0x7D, 0x7D, 0x7D] = none :=
  ⟨(handedToDeframe_iff _).mpr (by decide), by decide +kernel⟩

end BrokerProxy.Ppp
