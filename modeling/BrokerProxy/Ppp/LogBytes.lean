/-
This file follows the bytes that `BytesToFrame` receives to the listeners: which bytes an
emitted payload is made of, and which bytes are passed to `logs`.

Every received byte carries its position in the stream. The flags, and a call that times
out, end segments; a segment of at least two bytes is accounted for when its payload is
emitted once and none of its bytes are logged, or when its bytes are logged once, in order,
and nothing is emitted for it. The timeout passes the chunk of the call to `logs` and clears
the buffer, so that it logs bytes that a flag has already ended, or forgets bytes of an
earlier chunk.
-/

import BrokerProxy.Ppp.Codec
import Mathlib.Data.List.Nodup

namespace BrokerProxy.Ppp

open Framing

/-! ### Where events come from -/

/-- The object after its constructor, which does not initialise `_lastFrameFlag`. -/
def BytesToFrame.constructed (lastFrameFlag : UInt64) : BytesToFrame where
  inputFrame := []
  cleanData := []
  lastFrameFlag := lastFrameFlag

/-- A received byte and its position in the stream. -/
abbrev Received := UInt8 × Nat

/-- What the listeners receive, with the received bytes it is made of. -/
inductive Origin
  | emit (source : List Received) (payload : Bytes)
  | logs (source : List Received)
deriving DecidableEq

/-- The event without the positions. -/
def Origin.event : Origin → FrameEvent
  | .emit _ payload => .emit payload
  | .logs source => .logs (source.map Prod.fst)

/-- The received bytes that an event is made of. -/
def Origin.source : Origin → List Received
  | .emit source _ | .logs source => source

/-- `toStdout`. -/
def toStdoutFrom (source : List Received) : List Origin :=
  if source.length > 1 then [.logs source] else []

/-- The events of a segment that a flag ends. -/
def segmentOrigins (segment : List Received) : Option (List Origin) :=
  if segment.length = 0 then some []
  else
    (pppDeframe (segment.map Prod.fst)).map fun (accepted, out) =>
      if accepted then [.emit segment out] else toStdoutFrom segment

/-- The events of a list of segments. -/
def allOrigins : List (List Received) → Option (List Origin)
  | [] => some []
  | segment :: rest =>
      (segmentOrigins segment).bind fun events => (allOrigins rest).map fun more => events ++ more

/-- The bytes of a chunk with their positions. -/
def RxdCall.received (call : RxdCall) (position : Nat) : List Received :=
  (call.bytes.map Prod.fst).zipIdx position

/-- The call ends more than the frame timeout after the last flag. -/
def RxdCall.timedOut (call : RxdCall) (last : UInt64) : Bool :=
  call.finish - lastFlag last call.bytes > frameTimeout

/-- The flags of a chunk cut what is buffered and the chunk. -/
def RxdCall.cut (call : RxdCall) (position : Nat) (buffer : List Received) :
    List (List Received) × List Received :=
  cuts (·.1 = flagChar) buffer (call.received position)

/-- The buffer after a call. -/
def RxdCall.left (call : RxdCall) (position : Nat) (buffer : List Received) (last : UInt64) :
    List Received :=
  if call.timedOut last then [] else (call.cut position buffer).2

/-- The events of one call. -/
def callOrigins (position : Nat) (buffer : List Received) (last : UInt64) (call : RxdCall) :
    Option (List Origin) :=
  (allOrigins (call.cut position buffer).1).map fun events =>
    events ++ if call.timedOut last then toStdoutFrom (call.received position) else []

/-- The events of a sequence of calls, given the position of its first byte, what is buffered and
the time of the last flag. -/
def origins : Nat → List Received → UInt64 → List RxdCall → Option (List Origin)
  | _, _, _, [] => some []
  | position, buffer, last, call :: rest =>
      (callOrigins position buffer last call).bind fun events =>
        (origins (position + call.bytes.length) (call.left position buffer last)
          (lastFlag last call.bytes) rest).map fun more => events ++ more

/-- The segments that one call ends: at the flags, and at its end if it times out. -/
def callSegments (position : Nat) (buffer : List Received) (last : UInt64) (call : RxdCall) :
    List (List Received) :=
  (call.cut position buffer).1 ++
    if call.timedOut last then [(call.cut position buffer).2] else []

/-- The segments that a sequence of calls ends. -/
def endedSegments : Nat → List Received → UInt64 → List RxdCall → List (List Received)
  | _, _, _, [] => []
  | position, buffer, last, call :: rest =>
      callSegments position buffer last call ++
        endedSegments (position + call.bytes.length) (call.left position buffer last)
          (lastFlag last call.bytes) rest

/-! ### Accounting for a segment -/

/-- The payloads that are emitted for a segment. -/
def emittedOf (segment : List Received) (events : List Origin) : List Bytes :=
  events.filterMap fun event =>
    match event with
    | .emit source payload => if source = segment then some payload else none
    | .logs _ => none

/-- The bytes of a segment that are passed to `logs`. -/
def loggedOf (segment : List Received) (events : List Origin) : List Received :=
  events.flatMap fun event =>
    match event with
    | .emit _ _ => []
    | .logs source => source.filter (· ∈ segment)

/-- A segment is accounted for once: it is a frame body and its payload is emitted, or its bytes are
passed to `logs`. -/
inductive Accounted (segment : List Received) (events : List Origin) : Prop
  | emitted (payload : Bytes) (accepted : pppDeframe (segment.map Prod.fst) = some (true, payload))
      (once : emittedOf segment events = [payload]) (apart : loggedOf segment events = [])
  | logged (apart : emittedOf segment events = []) (once : loggedOf segment events = segment)

/-! ### The condition -/

/-- The decoder is defined on a segment. -/
def DeframeDefined (segment : Bytes) : Prop :=
  segment.length < 3 ∨ 2 ≤ segment.countP fun b => decide (b ≠ escChar)

/-- A chunk that times out, after a number of buffered bytes, can be passed to `logs`. Without a
flag in it nothing was buffered, or there is at most one byte in all. With a flag in it, the chunk
is only the flag; or no flag ends a segment of at least two bytes of which the chunk holds any. -/
def ChunkAlone (buffered : Nat) (chunk : Bytes) : Prop :=
  match segments flagChar [] chunk with
  | ([], _) => buffered = 0 ∨ buffered + chunk.length ≤ 1
  | (first :: others, _) =>
      chunk.length ≤ 1 ∨
        ((first = [] ∨ buffered + first.length ≤ 1) ∧ ∀ segment ∈ others, segment.length ≤ 1)

/-- At every flag the decoder is defined on the segment that it ends, and every chunk that times out
can be passed to `logs`. -/
def Conserving : Bytes → UInt64 → List RxdCall → Prop
  | _, _, [] => True
  | buffer, last, call :: rest =>
      let chunk := call.bytes.map Prod.fst
      (∀ segment ∈ (segments flagChar buffer chunk).1, DeframeDefined segment) ∧
        (call.timedOut last = true → ChunkAlone buffer.length chunk) ∧
        Conserving (if call.timedOut last then [] else (segments flagChar buffer chunk).2)
          (lastFlag last call.bytes) rest

/-! ### The events of a run and their origins -/

theorem toStdoutFrom_event (source : List Received) :
    (toStdoutFrom source).map Origin.event = toStdout (source.map Prod.fst) := by
  unfold toStdoutFrom toStdout
  rw [List.length_map]
  split <;> rfl

theorem segmentOrigins_event (segment : List Received) :
    (segmentOrigins segment).map (List.map Origin.event) =
      segmentEvents (segment.map Prod.fst) := by
  unfold segmentOrigins segmentEvents
  rw [List.length_map]
  split
  · rfl
  · rw [Option.map_map]
    refine congrArg (Option.map · (pppDeframe (segment.map Prod.fst))) (funext fun deframed => ?_)
    obtain ⟨accepted, out⟩ := deframed
    cases accepted with
    | true => rfl
    | false => exact toStdoutFrom_event segment

theorem allOrigins_event (segments : List (List Received)) :
    (allOrigins segments).map (List.map Origin.event) =
      allEvents (segments.map (List.map Prod.fst)) := by
  induction segments with
  | nil => rfl
  | cons segment rest inductionHypothesis =>
    rw [allOrigins, List.map_cons, allEvents, ← segmentOrigins_event, ← inductionHypothesis]
    cases segmentOrigins segment with
    | none => rfl
    | some events =>
      cases allOrigins rest with
      | none => rfl
      | some more =>
        simp only [Option.bind_some, Option.map_some, List.map_append]

namespace RxdCall

variable (call : RxdCall) (position : Nat) (buffer : List Received)

theorem received_values : (call.received position).map Prod.fst = call.bytes.map Prod.fst :=
  List.zipIdx_map_fst position _

/-- Without the positions the cuts of a call are the segments of its bytes. -/
theorem cut_values :
    segments flagChar (buffer.map Prod.fst) (call.bytes.map Prod.fst) =
      ((call.cut position buffer).1.map (List.map Prod.fst),
        (call.cut position buffer).2.map Prod.fst) := by
  rw [← call.received_values position]
  exact segments_map flagChar Prod.fst (call.received position) buffer

end RxdCall

/-- One call: what it leaves in the buffer, and its events. -/
theorem handleRxd_origins {state : BytesToFrame} {buffer : List Received}
    (same : buffer.map Prod.fst = state.inputFrame) (position : Nat) (call : RxdCall) :
    (handleRxd state call).map (fun result => (result.1.inputFrame, result.2)) =
      (callOrigins position buffer state.lastFrameFlag call).map fun events =>
        ((call.left position buffer state.lastFrameFlag).map Prod.fst,
          events.map Origin.event) := by
  have looped := rxdLoop_segments call.bytes state
  rw [← same, call.cut_values position buffer, ← allOrigins_event] at looped
  unfold handleRxd callOrigins RxdCall.left RxdCall.timedOut
  cases ran : rxdLoop state call.bytes with
  | none =>
    rw [ran] at looped
    cases ended : allOrigins (call.cut position buffer).1 with
    | none => rfl
    | some events =>
      rw [ended] at looped
      cases looped
  | some result =>
    obtain ⟨middle, events⟩ := result
    rw [ran] at looped
    cases ended : allOrigins (call.cut position buffer).1 with
    | none =>
      rw [ended] at looped
      cases looped
    | some more =>
      rw [ended] at looped
      obtain ⟨left, rfl⟩ := Prod.mk.inj (Option.some.inj looped)
      rw [Traced.some_andThen, Option.map_some, rxdLoop_lastFrameFlag call.bytes ran]
      by_cases late : call.finish - lastFlag state.lastFrameFlag call.bytes > frameTimeout
      · simp only [late, decide_true, if_true, Option.map_some, List.map_append,
          toStdoutFrom_event, call.received_values position, List.map_nil]
      · simp only [late, decide_false, if_false, Bool.false_eq_true, Traced.done,
          Option.map_some, List.append_nil]
        rw [show middle.inputFrame = (call.cut position buffer).2.map Prod.fst from left]

theorem handleRxd_lastFrameFlag {state next : BytesToFrame} {call : RxdCall}
    {events : List FrameEvent} (handled : handleRxd state call = some (next, events)) :
    next.lastFrameFlag = lastFlag state.lastFrameFlag call.bytes := by
  obtain ⟨middle, before, after, looped, ended, -⟩ := Traced.andThen_eq_some handled
  have flag := rxdLoop_lastFrameFlag call.bytes looped
  split at ended
  · obtain ⟨rfl, -⟩ := Prod.mk.inj (Option.some.inj ended)
    exact flag
  · obtain ⟨rfl, -⟩ := Prod.mk.inj (Option.some.inj ended)
    exact flag

/-- The events of a run are those that their origins say. -/
theorem runRxd_origins (calls : List RxdCall) :
    ∀ {state : BytesToFrame} {buffer : List Received}, buffer.map Prod.fst = state.inputFrame →
      ∀ position, (runRxd state calls).map Prod.snd =
        (origins position buffer state.lastFrameFlag calls).map (List.map Origin.event) := by
  induction calls with
  | nil => exact fun _ _ => rfl
  | cons call rest inductionHypothesis =>
    intro state buffer same position
    have stepped : runRxd state (call :: rest) =
        (handleRxd state call).andThen fun next => runRxd next rest := rfl
    have handled := handleRxd_origins same position call
    rw [stepped, origins]
    cases ran : handleRxd state call with
    | none =>
      rw [ran] at handled
      cases ended : callOrigins position buffer state.lastFrameFlag call with
      | none => rfl
      | some events =>
        rw [ended] at handled
        cases handled
    | some result =>
      obtain ⟨next, before⟩ := result
      rw [ran] at handled
      cases ended : callOrigins position buffer state.lastFrameFlag call with
      | none =>
        rw [ended] at handled
        cases handled
      | some events =>
        rw [ended] at handled
        obtain ⟨left, rfl⟩ := Prod.mk.inj (Option.some.inj handled)
        have later := inductionHypothesis left.symm (position + call.bytes.length)
        rw [handleRxd_lastFrameFlag ran] at later
        rw [Traced.some_andThen, Option.bind_some, Option.map_map, Option.map_map]
        have appended := congrArg (Option.map fun more => events.map Origin.event ++ more) later
        rw [Option.map_map, Option.map_map] at appended
        refine appended.trans (congrArg (Option.map · _) (funext fun more => ?_))
        exact List.map_append.symm

/-! ### Accounting is local -/

theorem emittedOf_append (segment : List Received) (first second : List Origin) :
    emittedOf segment (first ++ second) = emittedOf segment first ++ emittedOf segment second :=
  List.filterMap_append

theorem loggedOf_append (segment : List Received) (first second : List Origin) :
    loggedOf segment (first ++ second) = loggedOf segment first ++ loggedOf segment second :=
  List.flatMap_append

/-- Events that are made of no byte of the segment. -/
def Apart (segment : List Received) (events : List Origin) : Prop :=
  ∀ event ∈ events, ∀ b ∈ event.source, b ∉ segment

theorem Apart.emittedOf_eq {segment : List Received} {events : List Origin}
    (apart : Apart segment events) (nonempty : segment ≠ []) : emittedOf segment events = [] := by
  refine List.filterMap_eq_nil_iff.mpr fun event member => ?_
  cases event with
  | logs source => rfl
  | emit source payload =>
    refine if_neg fun same => ?_
    obtain ⟨b, inside⟩ := List.exists_mem_of_ne_nil segment nonempty
    exact apart _ member b (same ▸ inside) inside

theorem Apart.loggedOf_eq {segment : List Received} {events : List Origin}
    (apart : Apart segment events) : loggedOf segment events = [] := by
  refine List.flatMap_eq_nil_iff.mpr fun event member => ?_
  cases event with
  | emit source payload => rfl
  | logs source =>
    exact List.filter_eq_nil_iff.mpr fun b inside kept =>
      apart _ member b inside (of_decide_eq_true kept)

/-- Only what is emitted of a segment and what is logged of it matter to it. -/
theorem accounted_congr {segment : List Received} {first second : List Origin}
    (emitted : emittedOf segment first = emittedOf segment second)
    (logged : loggedOf segment first = loggedOf segment second) :
    Accounted segment first ↔ Accounted segment second := by
  constructor
  · rintro (⟨payload, accepted, once, apart⟩ | ⟨apart, once⟩)
    · exact .emitted payload accepted (emitted ▸ once) (logged ▸ apart)
    · exact .logged (emitted ▸ apart) (logged ▸ once)
  · rintro (⟨payload, accepted, once, apart⟩ | ⟨apart, once⟩)
    · exact .emitted payload accepted (emitted ▸ once) (logged ▸ apart)
    · exact .logged (emitted ▸ apart) (logged ▸ once)

/-- Later events that are made of other bytes change nothing. -/
theorem accounted_append_left {segment : List Received} {first second : List Origin}
    (nonempty : segment ≠ []) (apart : Apart segment second) :
    Accounted segment (first ++ second) ↔ Accounted segment first := by
  refine accounted_congr ?_ ?_
  · rw [emittedOf_append, apart.emittedOf_eq nonempty, List.append_nil]
  · rw [loggedOf_append, apart.loggedOf_eq, List.append_nil]

/-- Nor do earlier ones. -/
theorem accounted_append_right {segment : List Received} {first second : List Origin}
    (nonempty : segment ≠ []) (apart : Apart segment first) :
    Accounted segment (first ++ second) ↔ Accounted segment second := by
  refine accounted_congr ?_ ?_
  · rw [emittedOf_append, apart.emittedOf_eq nonempty, List.nil_append]
  · rw [loggedOf_append, apart.loggedOf_eq, List.nil_append]

theorem ne_nil_of_long {segment : List Received} (long : 2 ≤ segment.length) : segment ≠ [] := by
  rintro rfl
  cases long

/-! ### Segments that a flag ends -/

/-- The event of a segment of at least two bytes accounts for it, and is made of its bytes. -/
theorem segmentOrigins_accounted {segment : List Received} {events : List Origin}
    (ended : segmentOrigins segment = some events) :
    (∀ event ∈ events, event.source = segment) ∧
      (2 ≤ segment.length → Accounted segment events) := by
  unfold segmentOrigins at ended
  split at ended
  · rename_i empty
    cases ended
    exact ⟨nofun, fun long => absurd empty (by omega)⟩
  · obtain ⟨⟨accepted, out⟩, deframed, rfl⟩ := Option.map_eq_some_iff.mp ended
    cases accepted with
    | true =>
      refine ⟨List.forall_mem_singleton.mpr rfl, fun _ => .emitted out deframed ?_ rfl⟩
      exact List.filterMap_cons_some (if_pos rfl)
    | false =>
      show (∀ event ∈ toStdoutFrom segment, event.source = segment) ∧
        (2 ≤ segment.length → Accounted segment (toStdoutFrom segment))
      unfold toStdoutFrom
      split
      · refine ⟨List.forall_mem_singleton.mpr rfl, fun _ => .logged rfl ?_⟩
        refine (List.append_nil _).trans (List.filter_eq_self.mpr fun b member => ?_)
        exact decide_eq_true member
      · rename_i short
        exact ⟨nofun, fun long => absurd long short⟩

theorem segmentOrigins_isSome (segment : List Received) :
    (segmentOrigins segment).isSome = (pppDeframe (segment.map Prod.fst)).isSome := by
  unfold segmentOrigins
  split
  · rename_i empty
    rw [List.length_eq_zero_iff.mp empty]
    rfl
  · exact Option.isSome_map

/-- The events of segments that share no byte account for each of them, and are made of their
bytes. -/
theorem allOrigins_accounted {segments : List (List Received)} :
    ∀ {events : List Origin}, segments.flatten.Nodup → allOrigins segments = some events →
      (∀ event ∈ events, event.source ∈ segments) ∧
        ∀ segment ∈ segments, 2 ≤ segment.length → Accounted segment events := by
  induction segments with
  | nil =>
    intro events _ ended
    cases ended
    exact ⟨nofun, nofun⟩
  | cons first rest inductionHypothesis =>
    intro events distinct ended
    obtain ⟨before, one, ended⟩ := Option.bind_eq_some_iff.mp ended
    obtain ⟨after, others, rfl⟩ := Option.map_eq_some_iff.mp ended
    rw [List.flatten_cons, List.nodup_append'] at distinct
    obtain ⟨-, distinct, disjoint⟩ := distinct
    obtain ⟨own, accounted⟩ := segmentOrigins_accounted one
    obtain ⟨theirs, accountedRest⟩ := inductionHypothesis distinct others
    refine ⟨List.forall_mem_append.mpr ⟨fun event member => ?_, fun event member => ?_⟩,
      List.forall_mem_cons.mpr ⟨fun long => ?_, fun segment member long => ?_⟩⟩
    · exact own event member ▸ List.mem_cons_self
    · exact List.mem_cons_of_mem _ (theirs event member)
    · refine (accounted_append_left (ne_nil_of_long long) ?_).mpr (accounted long)
      intro event isLater b source inside
      exact disjoint inside (List.mem_flatten.mpr ⟨_, theirs event isLater, source⟩)
    · refine (accounted_append_right (ne_nil_of_long long) ?_).mpr
        (accountedRest segment member long)
      intro event isEarlier b source inside
      exact disjoint (own event isEarlier ▸ source) (List.mem_flatten.mpr ⟨_, member, inside⟩)

theorem allOrigins_isSome (segments : List (List Received)) :
    (allOrigins segments).isSome = true ↔
      ∀ segment ∈ segments, (pppDeframe (segment.map Prod.fst)).isSome = true := by
  induction segments with
  | nil => exact ⟨fun _ => nofun, fun _ => rfl⟩
  | cons first rest inductionHypothesis =>
    rw [List.forall_mem_cons, ← inductionHypothesis, ← segmentOrigins_isSome, allOrigins]
    cases segmentOrigins first with
    | none => exact ⟨nofun, fun both => nomatch both.1⟩
    | some events =>
      rw [Option.bind_some, Option.isSome_map]
      exact ⟨fun others => ⟨rfl, others⟩, fun both => both.2⟩

/-! ### The chunk of a call that times out -/

/-- A part of a list without repetitions is what filtering by it leaves. -/
theorem filter_mem_eq {part source : List Received} (inside : part.Sublist source)
    (distinct : source.Nodup) : source.filter (· ∈ part) = part := by
  induction inside with
  | slnil => rfl
  | @cons part source b inside inductionHypothesis =>
    obtain ⟨absent, distinct⟩ := List.nodup_cons.mp distinct
    rw [List.filter_cons_of_neg (p := fun other : Received => decide (other ∈ part)) fun kept =>
      absent (inside.subset (of_decide_eq_true kept))]
    exact inductionHypothesis distinct
  | @cons_cons part source b inside inductionHypothesis =>
    obtain ⟨absent, distinct⟩ := List.nodup_cons.mp distinct
    rw [List.filter_cons_of_pos (p := fun other : Received => decide (other ∈ b :: part))
      (decide_eq_true List.mem_cons_self)]
    refine congrArg (b :: ·) (Eq.trans ?_ (inductionHypothesis distinct))
    refine List.filter_congr fun other member => decide_eq_decide.mpr ?_
    rw [List.mem_cons, or_iff_right]
    rintro rfl
    exact absent member

/-- Logging a chunk on its own accounts for a segment exactly when the bytes of the segment in the
chunk are all of the segment. -/
theorem accounted_chunk_iff {segment source : List Received} (nonempty : segment ≠ []) :
    Accounted segment (toStdoutFrom source) ↔
      1 < source.length ∧ source.filter (· ∈ segment) = segment := by
  unfold toStdoutFrom
  split
  · rename_i long
    constructor
    · rintro (⟨payload, -, once, -⟩ | ⟨-, once⟩)
      · cases once
      · exact ⟨long, (List.append_nil _).symm.trans once⟩
    · exact fun same => .logged rfl ((List.append_nil _).trans same.2)
  · rename_i short
    constructor
    · rintro (⟨payload, -, once, -⟩ | ⟨-, once⟩)
      · cases once
      · exact absurd once.symm nonempty
    · exact fun same => absurd same.1 short

/-- Logging a chunk after a segment has been accounted for repeats what the chunk holds of it. -/
theorem accounted_append_chunk_iff {segment source : List Received} {events : List Origin}
    (accounted : Accounted segment events) :
    Accounted segment (events ++ toStdoutFrom source) ↔
      (1 < source.length → ∀ b ∈ source, b ∉ segment) := by
  have emitted : emittedOf segment (events ++ toStdoutFrom source) = emittedOf segment events := by
    rw [emittedOf_append]
    unfold toStdoutFrom
    split <;> exact List.append_nil _
  have logged : loggedOf segment (events ++ toStdoutFrom source) =
      loggedOf segment events ++
        if 1 < source.length then source.filter (· ∈ segment) else [] := by
    rw [loggedOf_append]
    refine congrArg _ ?_
    unfold toStdoutFrom
    split
    · exact List.append_nil _
    · rfl
  have nothing : (if 1 < source.length then source.filter (· ∈ segment) else []) = [] ↔
      (1 < source.length → ∀ b ∈ source, b ∉ segment) := by
    split
    · rename_i long
      rw [List.filter_eq_nil_iff]
      exact ⟨fun none _ b member inside => none b member (decide_eq_true inside),
        fun none b member kept => none long b member (of_decide_eq_true kept)⟩
    · rename_i short
      exact ⟨fun _ long => absurd long short, fun _ => rfl⟩
  rw [← nothing]
  constructor
  · rintro (⟨payload, -, once, apart⟩ | ⟨apart, once⟩)
    · rw [logged] at apart
      exact (List.append_eq_nil_iff.mp apart).2
    · rw [emitted] at apart
      rw [logged] at once
      rcases accounted with ⟨payload, -, other, -⟩ | ⟨-, other⟩
      · rw [apart] at other
        cases other
      · rw [other] at once
        exact List.append_right_eq_self.mp once
  · intro none
    rw [none, List.append_nil] at logged
    exact (accounted_congr emitted logged).mpr accounted

/-! ### One call -/

/-- What is buffered has been received before, without repetition, and holds no flag. -/
structure Sound (position : Nat) (buffer : List Received) : Prop where
  fresh : ∀ b ∈ buffer, b.2 < position
  distinct : buffer.Nodup
  free : flagChar ∉ buffer.map Prod.fst

namespace RxdCall

variable {position : Nat} {buffer : List Received}

theorem mem_received {call : RxdCall} {b : Received} (member : b ∈ call.received position) :
    position ≤ b.2 ∧ b.2 < position + call.bytes.length := by
  have above := List.snd_lt_of_mem_zipIdx member
  rw [List.length_map, Nat.add_comm] at above
  exact ⟨List.le_snd_of_mem_zipIdx member, above⟩

theorem received_nodup (call : RxdCall) (position : Nat) : (call.received position).Nodup := by
  refine List.Nodup.of_map Prod.snd ?_
  rw [received, List.zipIdx_map_snd]
  exact List.nodup_range'

/-- What is buffered and the chunk share no byte. -/
theorem nodup_append_received (sound : Sound position buffer) (call : RxdCall) :
    (buffer ++ call.received position).Nodup := by
  refine List.nodup_append'.mpr ⟨sound.distinct, call.received_nodup position, ?_⟩
  intro b buffered received
  have before := sound.fresh b buffered
  have after := (mem_received received).1
  omega

/-- The segments of a call and what is left are made of different bytes. -/
theorem cut_nodup (sound : Sound position buffer) (call : RxdCall) :
    ((call.cut position buffer).1.flatten ++ (call.cut position buffer).2).Nodup :=
  (nodup_append_received sound call).sublist (cuts_sublist _ _ _)

/-- They are bytes that were buffered or received. -/
theorem mem_cut {call : RxdCall} {b : Received}
    (member : b ∈ (call.cut position buffer).1.flatten ++ (call.cut position buffer).2) :
    b ∈ buffer ∨ b ∈ call.received position :=
  List.mem_append.mp ((cuts_sublist _ _ _).subset member)

/-- What is left after a call was buffered or is received in it. -/
theorem mem_left {call : RxdCall} {last : UInt64} {b : Received}
    (member : b ∈ call.left position buffer last) : b ∈ buffer ∨ position ≤ b.2 := by
  unfold left at member
  split at member
  · cases member
  · exact (mem_cut (List.mem_append_right _ member)).imp_right fun received =>
      (mem_received received).1

theorem left_sound (sound : Sound position buffer) (call : RxdCall) (last : UInt64) :
    Sound (position + call.bytes.length) (call.left position buffer last) := by
  unfold left
  split
  · exact ⟨nofun, List.nodup_nil, List.not_mem_nil⟩
  · refine ⟨fun b member => ?_, (List.nodup_append'.mp (call.cut_nodup sound)).2.1, ?_⟩
    · rcases mem_cut (List.mem_append_right _ member) with buffered | received
      · exact Nat.lt_add_right _ (sound.fresh b buffered)
      · exact (mem_received received).2
    · have values := congrArg Prod.snd (call.cut_values position buffer)
      rw [← show _ = (call.cut position buffer).2.map Prod.fst from values]
      exact (segments_free flagChar _ sound.free).2

end RxdCall

/-- A call has events exactly when the decoder is defined on every segment that a flag ends. -/
theorem callOrigins_isSome {position : Nat} {buffer : List Received}
    (sound : Sound position buffer) (last : UInt64) (call : RxdCall) :
    (callOrigins position buffer last call).isSome = true ↔
      ∀ segment ∈ (segments flagChar (buffer.map Prod.fst) (call.bytes.map Prod.fst)).1,
        DeframeDefined segment := by
  have free := (segments_free flagChar (call.bytes.map Prod.fst) sound.free).1
  rw [callOrigins, Option.isSome_map, allOrigins_isSome]
  rw [call.cut_values position buffer] at free ⊢
  rw [List.forall_mem_map] at free ⊢
  exact forall₂_congr fun segment member => pppDeframe_isSome_iff _ (free segment member)

/-- The events of a call are made of bytes that were buffered or received, and of none that is
left. -/
theorem callOrigins_source {position : Nat} {buffer : List Received}
    (sound : Sound position buffer) {last : UInt64} {call : RxdCall} {events : List Origin}
    (called : callOrigins position buffer last call = some events) :
    ∀ event ∈ events, ∀ b ∈ event.source,
      (b ∈ buffer ∨ b ∈ call.received position) ∧ b ∉ call.left position buffer last := by
  obtain ⟨ended, all, rfl⟩ := Option.map_eq_some_iff.mp called
  have distinct := call.cut_nodup sound
  have theirs := (allOrigins_accounted (List.nodup_append'.mp distinct).1 all).1
  refine List.forall_mem_append.mpr ⟨fun event member b source => ?_, ?_⟩
  · have inside := List.mem_flatten.mpr ⟨_, theirs event member, source⟩
    refine ⟨RxdCall.mem_cut (List.mem_append_left _ inside), ?_⟩
    unfold RxdCall.left
    split
    · exact List.not_mem_nil
    · exact (List.nodup_append'.mp distinct).2.2 inside
  · by_cases late : call.timedOut last = true
    · rw [if_pos late, RxdCall.left, if_pos late]
      intro event member b source
      unfold toStdoutFrom at member
      split at member
      · rw [List.mem_singleton.mp member] at source
        exact ⟨Or.inr source, List.not_mem_nil⟩
      · cases member
    · rw [if_neg late]
      exact nofun

/-- So are the segments that the call ends. -/
theorem callSegments_source {position : Nat} {buffer : List Received}
    (sound : Sound position buffer) {last : UInt64} {call : RxdCall} :
    ∀ segment ∈ callSegments position buffer last call, ∀ b ∈ segment,
      (b ∈ buffer ∨ b ∈ call.received position) ∧ b ∉ call.left position buffer last := by
  refine List.forall_mem_append.mpr ⟨fun segment member b source => ?_, ?_⟩
  · have inside := List.mem_flatten.mpr ⟨_, member, source⟩
    refine ⟨RxdCall.mem_cut (List.mem_append_left _ inside), ?_⟩
    unfold RxdCall.left
    split
    · exact List.not_mem_nil
    · exact (List.nodup_append'.mp (call.cut_nodup sound)).2.2 inside
  · by_cases late : call.timedOut last = true
    · rw [if_pos late, RxdCall.left, if_pos late]
      refine List.forall_mem_singleton.mpr fun b source => ⟨?_, List.not_mem_nil⟩
      exact RxdCall.mem_cut (List.mem_append_right _ source)
    · rw [if_neg late]
      exact nofun

/-- A chunk without a flag accounts for the segment that the timeout ends. -/
theorem plainChunk_accounted_iff {buffer source : List Received} :
    (2 ≤ (buffer ++ source).length → Accounted (buffer ++ source) (toStdoutFrom source)) ↔
      buffer.length = 0 ∨ buffer.length + source.length ≤ 1 := by
  rw [List.length_append]
  constructor
  · intro accounted
    by_cases short : buffer.length + source.length ≤ 1
    · exact Or.inr short
    · have long : 2 ≤ buffer.length + source.length := Nat.lt_of_not_le short
      have nonempty : buffer ++ source ≠ [] :=
        ne_nil_of_long (List.length_append.symm ▸ long)
      obtain ⟨-, same⟩ := (accounted_chunk_iff nonempty).mp (accounted long)
      have inside : source.filter (· ∈ buffer ++ source) = source :=
        List.filter_eq_self.mpr fun b member => decide_eq_true (List.mem_append_right _ member)
      rw [inside] at same
      exact Or.inl (List.length_eq_zero_iff.mpr (List.self_eq_append_left.mp same))
  · intro alone long
    have empty : buffer.length = 0 := alone.resolve_right (Nat.not_le.mpr long)
    rw [List.length_eq_zero_iff.mp empty, List.nil_append]
    rw [empty, Nat.zero_add] at long
    refine (accounted_chunk_iff (ne_nil_of_long long)).mpr ⟨long, ?_⟩
    exact List.filter_eq_self.mpr fun b member => decide_eq_true member

/-- A chunk with a flag accounts for the segments that its flags end, after these have been
accounted for, and for what is left. -/
theorem flaggedChunk_accounted_iff {buffer source first left : List Received}
    {others : List (List Received)} {ended : List Origin}
    (apart : buffer.Disjoint source) (distinct : source.Nodup)
    (whole : ((first :: others).flatten ++ left).Sublist source) (separate : Apart left ended)
    (accounted : ∀ segment ∈ (buffer ++ first) :: others, 2 ≤ segment.length →
      Accounted segment ended) :
    ((∀ segment ∈ (buffer ++ first) :: others, 2 ≤ segment.length →
        Accounted segment (ended ++ toStdoutFrom source)) ∧
      (2 ≤ left.length → Accounted left (ended ++ toStdoutFrom source))) ↔
      source.length ≤ 1 ∨
        ((first = [] ∨ buffer.length + first.length ≤ 1) ∧
          ∀ segment ∈ others, segment.length ≤ 1) := by
  have inFirst : ∀ b ∈ first, b ∈ source := fun b member =>
    whole.subset (List.mem_append_left _ (List.mem_append_left _ member))
  have inOthers : ∀ segment ∈ others, ∀ b ∈ segment, b ∈ source := fun segment member b inside =>
    whole.subset (List.mem_append_left _
      (List.mem_append_right _ (List.mem_flatten.mpr ⟨segment, member, inside⟩)))
  have inLeft : left.Sublist source := (List.sublist_append_right _ left).trans whole
  -- What is left is a part of the chunk, so that logging the chunk accounts for it in any case.
  have rest : 2 ≤ left.length → Accounted left (ended ++ toStdoutFrom source) := by
    intro long
    refine (accounted_append_right (ne_nil_of_long long) separate).mpr ?_
    refine (accounted_chunk_iff (ne_nil_of_long long)).mpr ⟨?_, filter_mem_eq inLeft distinct⟩
    exact long.trans inLeft.length_le
  rw [and_iff_left rest]
  constructor
  · intro all
    refine (Nat.lt_or_ge 1 source.length).symm.imp id fun long => ⟨?_, fun segment member => ?_⟩
    · refine (Nat.lt_or_ge 1 (buffer ++ first).length).imp (fun two => ?_) fun short => ?_
      · refine List.eq_nil_iff_forall_not_mem.mpr fun b member => ?_
        have repeated := (accounted_append_chunk_iff
          (accounted _ List.mem_cons_self two)).mp (all _ List.mem_cons_self two)
        exact repeated long b (inFirst b member) (List.mem_append_right _ member)
      · exact List.length_append ▸ short
    · refine Nat.le_of_not_lt fun two => ?_
      have later := List.mem_cons_of_mem (buffer ++ first) member
      have repeated := (accounted_append_chunk_iff (accounted _ later two)).mp (all _ later two)
      obtain ⟨b, inside⟩ := List.exists_mem_of_ne_nil segment (ne_nil_of_long two)
      exact repeated long b (inOthers segment member b inside) inside
  · intro alone segment member two
    refine (accounted_append_chunk_iff (accounted segment member two)).mpr fun long b received => ?_
    obtain ⟨start, middle⟩ := alone.resolve_left (Nat.not_le.mpr long)
    rcases List.mem_cons.mp member with rfl | later
    · rw [List.length_append] at two
      rw [start.resolve_right (Nat.not_le.mpr two), List.append_nil]
      exact fun buffered => apart buffered received
    · exact absurd (middle segment later) (Nat.not_le.mpr two)

/-- The chunk of a call that times out accounts for the segments of the call exactly when it can be
passed to `logs`. -/
theorem chunk_accounted_iff {position : Nat} {buffer : List Received}
    (sound : Sound position buffer) (call : RxdCall) {ended : List Origin}
    (all : allOrigins (call.cut position buffer).1 = some ended) :
    ((∀ segment ∈ (call.cut position buffer).1, 2 ≤ segment.length →
        Accounted segment (ended ++ toStdoutFrom (call.received position))) ∧
      (2 ≤ (call.cut position buffer).2.length →
        Accounted (call.cut position buffer).2
          (ended ++ toStdoutFrom (call.received position)))) ↔
      ChunkAlone buffer.length (call.bytes.map Prod.fst) := by
  have distinct := call.cut_nodup sound
  have apart := (List.nodup_append'.mp (call.nodup_append_received sound)).2.2
  obtain ⟨theirs, accounted⟩ := allOrigins_accounted (List.nodup_append'.mp distinct).1 all
  have separate : Apart (call.cut position buffer).2 ended := fun event member b source left =>
    (List.nodup_append'.mp distinct).2.2
      (List.mem_flatten.mpr ⟨_, theirs event member, source⟩) left
  have whole : ((call.cut position []).1.flatten ++ (call.cut position []).2).Sublist
      (call.received position) := cuts_sublist _ (call.received position) []
  have values := call.cut_values position []
  have length : (call.bytes.map Prod.fst).length = (call.received position).length := by
    rw [← call.received_values position, List.length_map]
  rw [List.map_nil] at values
  unfold ChunkAlone
  rw [values, length]
  cases done : (call.cut position []).1 with
  | nil =>
    have split : call.cut position (buffer ++ []) = ([], buffer ++ call.received position) :=
      cuts_nil done buffer
    rw [List.append_nil] at split
    rw [split] at all ⊢
    cases all
    exact (and_iff_right nofun).trans plainChunk_accounted_iff
  | cons first others =>
    have split : call.cut position (buffer ++ []) =
        ((buffer ++ first) :: others, (call.cut position []).2) := cuts_cons done buffer
    rw [List.append_nil] at split
    rw [split] at accounted separate ⊢
    rw [done] at whole
    refine (flaggedChunk_accounted_iff apart (call.received_nodup position) whole separate
      accounted).trans ?_
    simp only [List.map_cons, List.map_eq_nil_iff, List.length_map, List.forall_mem_map]

/-- The events of a call account for the segments that it ends exactly when its chunk, if it times
out, can be passed to `logs`. -/
theorem call_accounted_iff {position : Nat} {buffer : List Received}
    (sound : Sound position buffer) {last : UInt64} {call : RxdCall} {events : List Origin}
    (called : callOrigins position buffer last call = some events) :
    (∀ segment ∈ callSegments position buffer last call, 2 ≤ segment.length →
        Accounted segment events) ↔
      (call.timedOut last = true → ChunkAlone buffer.length (call.bytes.map Prod.fst)) := by
  obtain ⟨ended, all, rfl⟩ := Option.map_eq_some_iff.mp called
  unfold callSegments
  by_cases late : call.timedOut last = true
  · rw [if_pos late, if_pos late, List.forall_mem_append, List.forall_mem_singleton]
    exact (chunk_accounted_iff sound call all).trans ⟨fun alone _ => alone, fun alone => alone late⟩
  · rw [if_neg late, if_neg late, List.append_nil, List.append_nil]
    have distinct := (List.nodup_append'.mp (call.cut_nodup sound)).1
    exact ⟨fun _ isLate => absurd isLate late, fun _ => (allOrigins_accounted distinct all).2⟩

/-! ### A run -/

/-- The buffer after a call, without the positions. -/
theorem RxdCall.left_values (call : RxdCall) (position : Nat) (buffer : List Received)
    (last : UInt64) :
    (call.left position buffer last).map Prod.fst =
      if call.timedOut last then []
      else (segments flagChar (buffer.map Prod.fst) (call.bytes.map Prod.fst)).2 := by
  rw [call.cut_values position buffer]
  unfold left
  split <;> rfl

/-- A byte of a call that is not left is not a byte of a later one. -/
theorem not_later {position : Nat} {buffer : List Received} (sound : Sound position buffer)
    {last : UInt64} {call : RxdCall} {b : Received}
    (earlier : (b ∈ buffer ∨ b ∈ call.received position) ∧ b ∉ call.left position buffer last)
    (later : b ∈ call.left position buffer last ∨ position + call.bytes.length ≤ b.2) : False := by
  have after := later.resolve_left earlier.2
  rcases earlier.1 with buffered | received
  · have before := sound.fresh b buffered
    omega
  · have before := (RxdCall.mem_received received).2
    omega

/-- The events of a run are made of bytes that were buffered or are received in it. -/
theorem origins_source (calls : List RxdCall) :
    ∀ {position : Nat} {buffer : List Received} {last : UInt64} {events : List Origin},
      Sound position buffer → origins position buffer last calls = some events →
        ∀ event ∈ events, ∀ b ∈ event.source, b ∈ buffer ∨ position ≤ b.2 := by
  induction calls with
  | nil =>
    intro position buffer last events _ ran
    cases ran
    exact nofun
  | cons call rest inductionHypothesis =>
    intro position buffer last events sound ran
    obtain ⟨before, called, ran⟩ := Option.bind_eq_some_iff.mp ran
    obtain ⟨after, remaining, rfl⟩ := Option.map_eq_some_iff.mp ran
    refine List.forall_mem_append.mpr ⟨fun event member b source => ?_,
      fun event member b source => ?_⟩
    · exact (callOrigins_source sound called event member b source).1.imp_right fun received =>
        (RxdCall.mem_received received).1
    · rcases inductionHypothesis (call.left_sound sound last) remaining event member b source with
        left | later
      · exact RxdCall.mem_left left
      · exact Or.inr (Nat.le_of_add_right_le later)

/-- So are the segments that the run ends. -/
theorem endedSegments_source (calls : List RxdCall) :
    ∀ {position : Nat} {buffer : List Received} {last : UInt64}, Sound position buffer →
      ∀ segment ∈ endedSegments position buffer last calls, ∀ b ∈ segment,
        b ∈ buffer ∨ position ≤ b.2 := by
  induction calls with
  | nil => exact fun _ => nofun
  | cons call rest inductionHypothesis =>
    intro position buffer last sound
    refine List.forall_mem_append.mpr ⟨fun segment member b inside => ?_,
      fun segment member b inside => ?_⟩
    · exact (callSegments_source sound segment member b inside).1.imp_right fun received =>
        (RxdCall.mem_received received).1
    · rcases inductionHypothesis (call.left_sound sound last) segment member b inside with
        left | later
      · exact RxdCall.mem_left left
      · exact Or.inr (Nat.le_of_add_right_le later)

/-- The events of a run account for the segments that it ends exactly when the decoder is defined at
every flag and every chunk that times out can be passed to `logs`. -/
theorem run_accounted_iff (calls : List RxdCall) :
    ∀ {position : Nat} {buffer : List Received} (last : UInt64), Sound position buffer →
      ((∃ events, origins position buffer last calls = some events ∧
          ∀ segment ∈ endedSegments position buffer last calls, 2 ≤ segment.length →
            Accounted segment events) ↔
        Conserving (buffer.map Prod.fst) last calls) := by
  induction calls with
  | nil => exact fun last _ => ⟨fun _ => trivial, fun _ => ⟨[], rfl, nofun⟩⟩
  | cons call rest inductionHypothesis =>
    intro position buffer last sound
    have sound' := call.left_sound sound last
    have remains := inductionHypothesis (lastFlag last call.bytes) sound'
    rw [call.left_values position buffer last] at remains
    rw [Conserving, ← callOrigins_isSome sound last call, ← remains, List.length_map]
    -- The bytes of this call and those of the later ones are different ones.
    have apart : ∀ {before after : List Origin},
        callOrigins position buffer last call = some before →
          origins (position + call.bytes.length) (call.left position buffer last)
            (lastFlag last call.bytes) rest = some after →
          (∀ segment ∈ callSegments position buffer last call, Apart segment after) ∧
            ∀ segment ∈ endedSegments (position + call.bytes.length)
              (call.left position buffer last) (lastFlag last call.bytes) rest,
              Apart segment before := by
      intro before after called remaining
      refine ⟨fun segment member event isLater b source inside => ?_,
        fun segment member event isEarlier b source inside => ?_⟩
      · exact not_later sound (callSegments_source sound segment member b inside)
          (origins_source rest sound' remaining event isLater b source)
      · exact not_later sound (callOrigins_source sound called event isEarlier b source)
          (endedSegments_source rest sound' segment member b inside)
    constructor
    · rintro ⟨events, ran, accounted⟩
      obtain ⟨before, called, ran⟩ := Option.bind_eq_some_iff.mp ran
      obtain ⟨after, remaining, rfl⟩ := Option.map_eq_some_iff.mp ran
      obtain ⟨own, theirs⟩ := apart called remaining
      obtain ⟨here, later⟩ := List.forall_mem_append.mp accounted
      refine ⟨called ▸ rfl, (call_accounted_iff sound called).mp ?_, after, remaining, ?_⟩
      · intro segment member long
        exact (accounted_append_left (ne_nil_of_long long) (own segment member)).mp
          (here segment member long)
      · intro segment member long
        exact (accounted_append_right (ne_nil_of_long long) (theirs segment member)).mp
          (later segment member long)
    · rintro ⟨isSome, alone, after, remaining, later⟩
      obtain ⟨before, called⟩ := Option.isSome_iff_exists.mp isSome
      obtain ⟨own, theirs⟩ := apart called remaining
      refine ⟨before ++ after, ?_, List.forall_mem_append.mpr ⟨?_, ?_⟩⟩
      · rw [origins, called, Option.bind_some, remaining, Option.map_some]
      · intro segment member long
        exact (accounted_append_left (ne_nil_of_long long) (own segment member)).mpr
          ((call_accounted_iff sound called).mpr alone segment member long)
      · intro segment member long
        exact (accounted_append_right (ne_nil_of_long long) (theirs segment member)).mpr
          (later segment member long)

/-- In every run of the receiver, with any clock, each segment of at least two bytes that a flag or
the timeout has ended is accounted for exactly when the decoder is defined at every flag and every
chunk that times out can be passed to `logs`. -/
theorem logs_conserved_iff (last : UInt64) (calls : List RxdCall) :
    (∃ final events, runRxd (.constructed last) calls =
        some (final, events.map Origin.event) ∧
      origins 0 [] last calls = some events ∧
      ∀ segment ∈ endedSegments 0 [] last calls, 2 ≤ segment.length →
        Accounted segment events) ↔
      Conserving [] last calls := by
  have sound : Sound 0 [] := ⟨nofun, List.nodup_nil, List.not_mem_nil⟩
  have empty : ([] : List Received).map Prod.fst =
      (BytesToFrame.constructed last).inputFrame := rfl
  have same := runRxd_origins calls empty 0
  refine Iff.trans ?_ (run_accounted_iff calls last sound)
  constructor
  · rintro ⟨final, events, -, ran, accounted⟩
    exact ⟨events, ran, accounted⟩
  · rintro ⟨events, ran, accounted⟩
    rw [show (BytesToFrame.constructed last).lastFrameFlag = last from rfl, ran] at same
    obtain ⟨⟨final, others⟩, run, rfl⟩ := Option.map_eq_some_iff.mp same
    exact ⟨final, events, run, ran, accounted⟩

/-- A flag and two bytes in one chunk, and two bytes in the next, which times out. -/
def cutLine : List RxdCall :=
  [⟨[(flagChar, 500), (0x61, 500), (0x62, 500)], 500⟩, ⟨[(0x63, 1600), (0x64, 1600)], 1600⟩]

/-- Only the second of two chunks is passed to `logs`, and the bytes of the first are lost. -/
theorem logs_lost :
    (runRxd (.constructed 0) cutLine).map Prod.snd = some [.logs [0x63, 0x64]] ∧
      ¬ ∃ final events, runRxd (.constructed 0) cutLine =
          some (final, events.map Origin.event) ∧
        origins 0 [] 0 cutLine = some events ∧
        ∀ segment ∈ endedSegments 0 [] 0 cutLine, 2 ≤ segment.length →
          Accounted segment events := by
  refine ⟨by decide +kernel, ?_⟩
  rintro ⟨final, events, -, ran, accounted⟩
  have only : origins 0 [] 0 cutLine = some [.logs [(0x63, 3), (0x64, 4)]] := by decide +kernel
  obtain rfl := Option.some.inj (ran.symm.trans only)
  have line : [(0x61, 1), (0x62, 2), (0x63, 3), (0x64, 4)] ∈ endedSegments 0 [] 0 cutLine := by
    decide +kernel
  rcases accounted _ line (by decide) with ⟨payload, -, once, -⟩ | ⟨-, once⟩
  · cases once
  · exact absurd once (by decide)

end BrokerProxy.Ppp
