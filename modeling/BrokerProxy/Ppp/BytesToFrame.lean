/-
This file models `BytesToFrame`, the receiving end of the serial link, and settles
what its stream decoder does with every stream and every way of cutting it.

The object keeps the bytes received since the last flag. A call delivers a chunk:
each byte comes with the clock reading `Sys::millis()` would give while it is
handled, and the call ends with one more reading, which is compared with the time
of the last flag. What the listeners of the object and of its `logs` flow receive
is the list of events of a call. A call has no result where it reaches a
`pop_back` on an empty vector.

As long as no call times out, the cuts do not matter: the run is one loop over the
concatenated bytes, and the loop handles the flag-delimited segments one by one.
-/

import BrokerProxy.Library.Traced
import BrokerProxy.Ppp.Frame

namespace BrokerProxy.Ppp

open Framing

/-! ### The object -/

/-- What the listeners receive: an emitted payload, or bytes forwarded to `logs`. -/
inductive FrameEvent
  | emit (payload : Bytes)
  | logs (bs : Bytes)
deriving DecidableEq

/-- The fields of `BytesToFrame`. -/
structure BytesToFrame where
  inputFrame : Bytes
  cleanData : Bytes
  lastFrameFlag : UInt64
deriving DecidableEq

/-- `_frameTimeout`, in milliseconds. -/
def frameTimeout : UInt64 := 1000

/-- One call of `on`: the bytes of the chunk with the clock reading at each of them, and the
reading after the loop. -/
structure RxdCall where
  bytes : List (UInt8 × UInt64)
  finish : UInt64

/-- `toStdout`: chunks of a single byte are dropped. The copy written to the terminal is not an
event of the object. -/
def toStdout (bs : Bytes) : List FrameEvent := if bs.length > 1 then [.logs bs] else []

/-- `handleFrame`. -/
def handleFrame (state : BytesToFrame) (bs : Bytes) : Traced BytesToFrame FrameEvent :=
  if bs.length = 0 then Traced.done state
  else
    (pppDeframe bs).map fun (accepted, out) =>
      ({ state with cleanData := out }, if accepted then [.emit out] else toStdout bs)

/-- The body of the loop of `handleRxd`, for one byte and the clock reading at that byte. -/
def rxdByte (state : BytesToFrame) (b : UInt8 × UInt64) : Traced BytesToFrame FrameEvent :=
  if b.1 = flagChar then
    (handleFrame { state with lastFrameFlag := b.2 } state.inputFrame).andThen fun state =>
      Traced.done { state with inputFrame := [] }
  else Traced.done { state with inputFrame := state.inputFrame ++ [b.1] }

/-- The loop of `handleRxd`. -/
def rxdLoop : BytesToFrame → List (UInt8 × UInt64) → Traced BytesToFrame FrameEvent :=
  Traced.iterate rxdByte

/-- `handleRxd`, which `on` calls. The difference of the two clock readings is unsigned. -/
def handleRxd (state : BytesToFrame) (call : RxdCall) : Traced BytesToFrame FrameEvent :=
  (rxdLoop state call.bytes).andThen fun state =>
    if call.finish - state.lastFrameFlag > frameTimeout then
      some ({ state with inputFrame := [] }, toStdout (call.bytes.map Prod.fst))
    else Traced.done state

/-- A sequence of calls. -/
def runRxd : BytesToFrame → List RxdCall → Traced BytesToFrame FrameEvent :=
  Traced.iterate handleRxd

/-- The payloads among a list of events. -/
def emissions (events : List FrameEvent) : List Bytes :=
  events.filterMap fun event =>
    match event with
    | .emit payload => some payload
    | .logs _ => none

/-! ### The clock assumption -/

/-- The time of the last flag after a list of bytes. -/
def lastFlag (last : UInt64) : List (UInt8 × UInt64) → UInt64
  | [] => last
  | b :: rest => lastFlag (if b.1 = flagChar then b.2 else last) rest

/-- At the end of every call no more than the frame timeout has passed since the last flag. -/
def OnTime (last : UInt64) : List RxdCall → Prop
  | [] => True
  | call :: rest =>
      ¬ call.finish - lastFlag last call.bytes > frameTimeout ∧
        OnTime (lastFlag last call.bytes) rest

/-! ### The loop over a stream -/

theorem handleFrame_fields {state final : BytesToFrame} {bs : Bytes} {events : List FrameEvent}
    (handled : handleFrame state bs = some (final, events)) :
    final.inputFrame = state.inputFrame ∧ final.lastFrameFlag = state.lastFrameFlag := by
  unfold handleFrame at handled
  split at handled
  · obtain ⟨rfl, -⟩ := Prod.mk.inj (Option.some.inj handled)
    exact ⟨rfl, rfl⟩
  · obtain ⟨deframed, -, same⟩ := Option.map_eq_some_iff.mp handled
    obtain ⟨rfl, -⟩ := Prod.mk.inj same
    exact ⟨rfl, rfl⟩

/-- What one byte does to the buffer and to the time of the last flag. -/
theorem rxdByte_fields {state next : BytesToFrame} {b : UInt8 × UInt64}
    {events : List FrameEvent} (stepped : rxdByte state b = some (next, events)) :
    (b.1 = flagChar ∧ next.inputFrame = [] ∧ next.lastFrameFlag = b.2) ∨
      (b.1 ≠ flagChar ∧ next.inputFrame = state.inputFrame ++ [b.1] ∧
        next.lastFrameFlag = state.lastFrameFlag) := by
  unfold rxdByte at stepped
  split at stepped
  · rename_i flag
    obtain ⟨handled, before, after, frame, cleared, -⟩ := Traced.andThen_eq_some stepped
    obtain ⟨rfl, -⟩ := Prod.mk.inj (Option.some.inj cleared)
    exact Or.inl ⟨flag, rfl, (handleFrame_fields frame).2⟩
  · rename_i plain
    obtain ⟨rfl, -⟩ := Prod.mk.inj (Option.some.inj stepped)
    exact Or.inr ⟨plain, rfl, rfl⟩

theorem rxdLoop_cons (state : BytesToFrame) (b : UInt8 × UInt64) (rest : List (UInt8 × UInt64)) :
    rxdLoop state (b :: rest) = (rxdByte state b).andThen fun next => rxdLoop next rest := rfl

theorem rxdLoop_lastFrameFlag (bytes : List (UInt8 × UInt64)) :
    ∀ {state final : BytesToFrame} {events : List FrameEvent},
      rxdLoop state bytes = some (final, events) →
        final.lastFrameFlag = lastFlag state.lastFrameFlag bytes := by
  induction bytes with
  | nil =>
    intro state final events looped
    obtain ⟨rfl, -⟩ := Prod.mk.inj (Option.some.inj looped)
    rfl
  | cons b rest inductionHypothesis =>
    intro state final events looped
    rw [rxdLoop_cons] at looped
    obtain ⟨next, before, after, stepped, remaining, -⟩ := Traced.andThen_eq_some looped
    rw [inductionHypothesis remaining, lastFlag]
    rcases rxdByte_fields stepped with ⟨flag, -, time⟩ | ⟨plain, -, time⟩
    · rw [if_pos flag, time]
    · rw [if_neg plain, time]

/-- A call that does not time out is its loop. -/
theorem handleRxd_onTime (state : BytesToFrame) (call : RxdCall)
    (onTime : ¬ call.finish - lastFlag state.lastFrameFlag call.bytes > frameTimeout) :
    handleRxd state call = rxdLoop state call.bytes := by
  rw [handleRxd]
  cases looped : rxdLoop state call.bytes with
  | none => rfl
  | some result =>
    rw [Traced.some_andThen, rxdLoop_lastFrameFlag call.bytes looped, if_neg onTime]
    simp only [Traced.done, Option.map_some, List.append_nil]

/-- When no call times out, a sequence of calls is one loop over all their bytes: the cuts do
not matter. -/
theorem runRxd_onTime (calls : List RxdCall) :
    ∀ state : BytesToFrame, OnTime state.lastFrameFlag calls →
      runRxd state calls = rxdLoop state (calls.flatMap RxdCall.bytes) := by
  induction calls with
  | nil =>
    intro state _
    rfl
  | cons call rest inductionHypothesis =>
    intro state onTime
    have appended : rxdLoop state (call.bytes ++ rest.flatMap RxdCall.bytes) =
        (rxdLoop state call.bytes).andThen fun middle =>
          rxdLoop middle (rest.flatMap RxdCall.bytes) := Traced.iterate_append _ _ _ _
    have stepped : runRxd state (call :: rest) =
        (handleRxd state call).andThen fun next => runRxd next rest := rfl
    rw [List.flatMap_cons, appended, stepped, handleRxd_onTime state call onTime.1]
    cases looped : rxdLoop state call.bytes with
    | none => rfl
    | some result =>
      have flag := rxdLoop_lastFrameFlag call.bytes looped
      rw [Traced.some_andThen, Traced.some_andThen,
        inductionHypothesis result.1 (flag ▸ onTime.2)]

/-! ### Segments -/

/-- The events of one flag-delimited segment, which do not depend on the object's fields. -/
def segmentEvents (segment : Bytes) : Option (List FrameEvent) :=
  if segment.length = 0 then some []
  else
    (pppDeframe segment).map fun (accepted, out) =>
      if accepted then [.emit out] else toStdout segment

/-- The events of a list of segments. -/
def allEvents : List Bytes → Option (List FrameEvent)
  | [] => some []
  | segment :: rest =>
      (segmentEvents segment).bind fun events => (allEvents rest).map fun more => events ++ more

theorem handleFrame_events (state : BytesToFrame) (bs : Bytes) :
    (handleFrame state bs).map Prod.snd = segmentEvents bs := by
  unfold segmentEvents handleFrame
  split
  · rfl
  · rw [Option.map_map]
    rfl

/-- The loop handles the segments of the stream one by one; what is left of the stream after the
last flag is left in the buffer. -/
theorem rxdLoop_segments (bytes : List (UInt8 × UInt64)) :
    ∀ state : BytesToFrame,
      (rxdLoop state bytes).map (fun result => (result.1.inputFrame, result.2)) =
        (allEvents (segments flagChar state.inputFrame (bytes.map Prod.fst)).1).map fun events =>
          ((segments flagChar state.inputFrame (bytes.map Prod.fst)).2, events) := by
  induction bytes with
  | nil =>
    intro state
    rfl
  | cons b rest inductionHypothesis =>
    intro state
    rw [rxdLoop_cons, List.map_cons, segments, rxdByte]
    by_cases flag : b.1 = flagChar
    · have events := handleFrame_events { state with lastFrameFlag := b.2 } state.inputFrame
      rw [if_pos flag, if_pos flag, Traced.andThen_assoc]
      simp only [allEvents, ← events, Traced.done_andThen]
      cases handleFrame { state with lastFrameFlag := b.2 } state.inputFrame with
      | none => rfl
      | some handled =>
        obtain ⟨handled, before⟩ := handled
        have tail := inductionHypothesis { handled with inputFrame := [] }
        simpa only [Traced.some_andThen, Option.map_some, Option.bind_some, Option.map_map,
          Function.comp_def] using
          congrArg (Option.map fun result => (result.1, before ++ result.2)) tail
    · rw [if_neg flag, if_neg flag, Traced.done_andThen]
      exact inductionHypothesis { state with inputFrame := state.inputFrame ++ [b.1] }

end BrokerProxy.Ppp
