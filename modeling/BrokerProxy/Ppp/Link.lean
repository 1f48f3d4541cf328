/-
This file shows what a serial line with `ppp_frame` at one end and `BytesToFrame` at the
other guarantees to those who use it: it is a reliable first-in first-out channel of
payloads, however the bytes are cut into chunks, and whatever text the sender prints
between its frames.

The receiver gives up what it holds when too long a time has passed since the last flag.
That loses a payload only inside a frame: text arrives late without harm. Text becomes a
segment of its own when the next frame begins, so it must be quiet: neither the text nor,
after a timeout, the end of it may be a frame body by accident, or make the decoder pop
from an empty vector.
-/

import BrokerProxy.Library.Fifo
import BrokerProxy.Library.Line
import BrokerProxy.Library.Runs
import BrokerProxy.Ppp.Codec
import Mathlib.Data.List.Infix

namespace BrokerProxy.Ppp

open Framing Line Runs

/-! ### Framing -/

/-- A payload that a frame can carry. -/
structure Payload where
  bytes : Bytes
  bytes_ne_nil : bytes ≠ []
deriving DecidableEq

/-- The decoder is defined on the text and on every end of it, and rejects them. -/
def quiet (text : Bytes) : Bool :=
  text.tails.all fun last => (pppDeframe last).any fun deframed => !deframed.1

theorem quiet_of_suffix {last whole : Bytes} (suffix : last <:+ whole)
    (silent : quiet whole = true) :
    quiet last = true := by
  rw [quiet, List.all_eq_true] at silent ⊢
  exact fun part member =>
    silent part ((List.mem_tails _ _).mpr (((List.mem_tails _ _).mp member).trans suffix))

/-- The frames of the protocol. -/
def pppFramer : Framer UInt8 Payload where
  flag := flagChar
  body payload := frameBody payload.bytes
  quiet text := quiet text = true
  body_free payload := frameBody_free payload.bytes
  quiet_of_suffix := quiet_of_suffix

/-- What the framer puts on the line is what `ppp_frame` returns. -/
theorem symbols_pppFrame (payload : Payload) :
    (pppFramer.frame payload).map Marked.symbol = pppFrame payload.bytes :=
  (pppFramer.symbols_frame payload).trans (pppFrame_eq payload.bytes).symm

/-- A quiet segment is defined and emits nothing. -/
theorem segmentEvents_of_quiet {segment : Bytes} (silent : quiet segment = true) :
    ∃ events, segmentEvents segment = some events ∧ emissions events = [] := by
  rw [quiet, List.all_eq_true] at silent
  have whole := silent segment ((List.mem_tails _ _).mpr (List.suffix_refl segment))
  obtain ⟨⟨accepted, out⟩, deframed, rejected⟩ := (Option.any_eq_true _ _).mp whole
  obtain ⟨events, defined, emitted⟩ :=
    segmentEvents_defined segment (Option.isSome_iff_exists.mpr ⟨_, deframed⟩)
  refine ⟨events, defined, emitted.trans ?_⟩
  cases accepted with
  | false => rw [leftoverEmission, deframed]
  | true => cases rejected

/-! ### Reading from the line -/

/-- What a chunk of the line is to the receiver, with the clock reading at each byte. -/
def timed (chunk : List (Marked UInt8)) (readings : Nat → UInt64) : List (UInt8 × UInt64) :=
  (chunk.map Marked.symbol).mapIdx fun place byte => (byte, readings place)

theorem timed_cons (first : Marked UInt8) (rest : List (Marked UInt8)) (readings : Nat → UInt64) :
    timed (first :: rest) readings =
      (first.symbol, readings 0) :: timed rest fun place => readings (place + 1) := by
  rw [timed, List.map_cons, List.mapIdx_cons]
  rfl

theorem symbols_timed (chunk : List (Marked UInt8)) :
    ∀ readings, (timed chunk readings).map Prod.fst = chunk.map Marked.symbol := by
  induction chunk with
  | nil => exact fun readings => rfl
  | cons first rest inductionHypothesis =>
    intro readings
    rw [timed_cons, List.map_cons, List.map_cons, inductionHypothesis]

section

variable {receiver : BytesToFrame} {line : List (Marked UInt8)} {since : Bytes}
  {messages : List Payload}

/-- One byte: what it emits is taken off the line. -/
theorem rxdByte_of_carries {first : Marked UInt8}
    (carries : pppFramer.Carries receiver.inputFrame (first :: line) since messages)
    (reading : UInt64) :
    ∃ next events received later, rxdByte receiver (first.symbol, reading) = some (next, events) ∧
      emissions events = received.map Payload.bytes ∧ messages = received ++ later ∧
      pppFramer.Carries next.inputFrame line since later := by
  unfold rxdByte
  by_cases isFlag : first.symbol = flagChar
  · have handled : ∀ {events}, segmentEvents receiver.inputFrame = some events →
        ∃ next, (handleFrame { receiver with lastFrameFlag := reading } receiver.inputFrame).andThen
          (fun state => Traced.done { state with inputFrame := [] }) = some (next, events) ∧
            next.inputFrame = [] := by
      intro events segment
      rw [← handleFrame_events { receiver with lastFrameFlag := reading }] at segment
      obtain ⟨⟨next, same⟩, frame, rfl⟩ := Option.map_eq_some_iff.mp segment
      refine ⟨{ next with inputFrame := [] }, ?_, rfl⟩
      rw [frame, Traced.some_andThen, Traced.done, Option.map_some, List.append_nil]
    rw [if_pos isFlag]
    rcases carries.read_flag isFlag with ⟨silent, rest⟩ | ⟨message, later, rfl, whole, rest⟩
    · obtain ⟨events, segment, emitted⟩ := segmentEvents_of_quiet silent
      obtain ⟨next, ran, empty⟩ := handled segment
      exact ⟨next, events, [], messages, ran, emitted, rfl, empty ▸ rest⟩
    · have segment := segmentEvents_frameBody message.bytes message.bytes_ne_nil
      rw [← show receiver.inputFrame = frameBody message.bytes from whole] at segment
      obtain ⟨next, ran, empty⟩ := handled segment
      exact ⟨next, _, [message], later, ran, rfl, rfl, empty ▸ rest⟩
  · rw [if_neg isFlag]
    exact ⟨_, [], [], messages, rfl, rfl, rfl, carries.read_plain isFlag⟩

/-- A chunk: what its bytes emit is taken off the line. -/
theorem rxdLoop_of_carries (chunk : List (Marked UInt8)) :
    ∀ {receiver : BytesToFrame} {messages : List Payload} (readings : Nat → UInt64),
      pppFramer.Carries receiver.inputFrame (chunk ++ line) since messages →
        ∃ next events received later,
          rxdLoop receiver (timed chunk readings) = some (next, events) ∧
          emissions events = received.map Payload.bytes ∧ messages = received ++ later ∧
          pppFramer.Carries next.inputFrame line since later := by
  induction chunk with
  | nil =>
    intro receiver messages readings carries
    exact ⟨receiver, [], [], messages, rfl, rfl, rfl, carries⟩
  | cons first rest inductionHypothesis =>
    intro receiver messages readings carries
    obtain ⟨middle, before, taken, left, stepped, emitted, rfl, kept⟩ :=
      rxdByte_of_carries carries (readings 0)
    obtain ⟨next, after, more, later, looped, alsoEmitted, rfl, final⟩ :=
      inductionHypothesis (fun place => readings (place + 1)) kept
    refine ⟨next, before ++ after, taken ++ more, later, ?_, ?_, ?_, final⟩
    · rw [timed_cons, rxdLoop_cons, stepped, Traced.some_andThen, looped]
      rfl
    · rw [emissions_append, emitted, alsoEmitted, List.map_append]
    · rw [List.append_assoc]

/-- A call that ends outside a frame, or in time. -/
def Calm (last : UInt64) (bytes : List (UInt8 × UInt64)) (finish : UInt64)
    (line : List (Marked UInt8)) : Prop :=
  finish - lastFlag last bytes > frameTimeout → ∀ marked ∈ line.head?, marked.within = false

/-- The test that a call ends in time, or outside a frame. -/
def inTime (last : UInt64) (bytes : List (UInt8 × UInt64)) (finish : UInt64)
    (line : List (Marked UInt8)) : Bool :=
  finish - lastFlag last bytes ≤ frameTimeout || line.head?.all fun marked => !marked.within

theorem calm_of_inTime {last : UInt64} {bytes : List (UInt8 × UInt64)} {finish : UInt64}
    {line : List (Marked UInt8)} (met : inTime last bytes finish line = true) :
    Calm last bytes finish line := by
  intro late marked member
  rcases (Bool.or_eq_true _ _).mp met with soon | outside
  · exact absurd (of_decide_eq_true soon) (UInt64.not_le.mpr late)
  · rw [Option.all_eq_true] at outside
    exact (Bool.not_eq_true' _).mp (outside marked member)

/-- A call of the receiver takes what it emits off the line, and loses nothing. -/
theorem handleRxd_of_carries (chunk : List (Marked UInt8)) (readings : Nat → UInt64)
    (finish : UInt64)
    (carries : pppFramer.Carries receiver.inputFrame (chunk ++ line) since messages)
    (calm : Calm receiver.lastFrameFlag (timed chunk readings) finish line) :
    ∃ next events received later,
      handleRxd receiver ⟨timed chunk readings, finish⟩ = some (next, events) ∧
        emissions events = received.map Payload.bytes ∧ messages = received ++ later ∧
        pppFramer.Carries next.inputFrame line since later := by
  obtain ⟨next, events, received, later, looped, emitted, rfl, kept⟩ :=
    rxdLoop_of_carries chunk readings carries
  have time := rxdLoop_lastFrameFlag _ looped
  rw [handleRxd, looped, Traced.some_andThen]
  by_cases late : finish - lastFlag receiver.lastFrameFlag (timed chunk readings) > frameTimeout
  · refine ⟨{ next with inputFrame := [] },
      events ++ toStdout ((timed chunk readings).map Prod.fst), received, later, ?_, ?_, rfl,
      kept.forget (calm late)⟩
    · rw [if_pos (time ▸ late)]
      rfl
    · rw [emissions_append, emissions_toStdout, List.append_nil, emitted]
  · refine ⟨next, events, received, later, ?_, emitted, rfl, kept⟩
    rw [if_neg (time ▸ late), Traced.done, Option.map_some, List.append_nil]

end

/-! ### What is not a frame -/

/-- The bytes passed to `logs`, which the device writes to its own line. -/
def echoes (events : List FrameEvent) : Bytes :=
  events.flatMap fun event =>
    match event with
    | .emit _ => []
    | .logs bs => bs

theorem echoes_append (first second : List FrameEvent) :
    echoes (first ++ second) = echoes first ++ echoes second := List.flatMap_append

/-- A segment passes on at most itself. -/
theorem echoes_segment {segment : Bytes} {events : List FrameEvent} (free : flagChar ∉ segment)
    (defined : segmentEvents segment = some events) : flagChar ∉ echoes events := by
  unfold segmentEvents at defined
  split at defined
  · cases defined
    exact List.not_mem_nil
  · obtain ⟨⟨accepted, out⟩, -, rfl⟩ := Option.map_eq_some_iff.mp defined
    cases accepted with
    | true => exact List.not_mem_nil
    | false =>
      show flagChar ∉ echoes (toStdout segment)
      unfold toStdout
      split
      · rw [echoes, List.flatMap_singleton]
        exact free
      · exact List.not_mem_nil

theorem echoes_rxdByte {receiver next : BytesToFrame} {b : UInt8 × UInt64}
    {events : List FrameEvent} (free : flagChar ∉ receiver.inputFrame)
    (stepped : rxdByte receiver b = some (next, events)) : flagChar ∉ echoes events := by
  unfold rxdByte at stepped
  split at stepped
  · obtain ⟨middle, before, after, frame, cleared, rfl⟩ := Traced.andThen_eq_some stepped
    obtain ⟨-, rfl⟩ := Prod.mk.inj (Option.some.inj cleared)
    have segment : segmentEvents receiver.inputFrame = some before := by
      rw [← handleFrame_events { receiver with lastFrameFlag := b.2 }, frame]
      rfl
    rw [List.append_nil]
    exact echoes_segment free segment
  · obtain ⟨-, rfl⟩ := Prod.mk.inj (Option.some.inj stepped)
    exact List.not_mem_nil

/-- What a receiver passes on while it is in time has no flag. -/
theorem echoes_rxdLoop (bytes : List (UInt8 × UInt64)) :
    ∀ {receiver next : BytesToFrame} {events : List FrameEvent}, flagChar ∉ receiver.inputFrame →
      rxdLoop receiver bytes = some (next, events) → flagChar ∉ echoes events := by
  induction bytes with
  | nil =>
    intro receiver next events _ looped
    obtain ⟨-, rfl⟩ := Prod.mk.inj (Option.some.inj looped)
    exact List.not_mem_nil
  | cons b rest inductionHypothesis =>
    intro receiver next events free looped
    rw [rxdLoop_cons] at looped
    obtain ⟨middle, before, after, stepped, remaining, rfl⟩ := Traced.andThen_eq_some looped
    have later := inductionHypothesis (rxdByte_free free stepped) remaining
    rw [echoes_append, List.mem_append]
    exact fun member => member.elim (echoes_rxdByte free stepped) later

/-! ### The line as a channel -/

/-- A line with its receiver: the text written since the last frame, the payloads that have been
framed and those that have been emitted. -/
structure SerialLink where
  line : List (Marked UInt8)
  text : Bytes
  receiver : BytesToFrame
  sent : List Payload
  received : List Bytes

/-- What happens next: a frame or text is written, or the receiver is given the next bytes of the
line, with the clock readings of the call. -/
inductive LinkLabel
  | frame (payload : Payload)
  | print (word : Bytes)
  | read (count : Nat) (readings : Nat → UInt64) (finish : UInt64)

/-- One step. A chunk has no more bytes than the line. -/
def linkStep (link : SerialLink) : LinkLabel → Option SerialLink
  | .frame payload =>
      some { link with
        line := link.line ++ pppFramer.frame payload
        text := []
        sent := link.sent ++ [payload] }
  | .print word => some { link with line := link.line ++ outer word, text := link.text ++ word }
  | .read count readings finish =>
      if count ≤ link.line.length then
        (handleRxd link.receiver ⟨timed (link.line.take count) readings, finish⟩).map
          fun (receiver, events) =>
            { link with
              line := link.line.drop count
              receiver := receiver
              received := link.received ++ emissions events }
      else none

/-- A line under any order of writing and reading, from a receiver that holds nothing. -/
def linkMachine : Machine SerialLink LinkLabel where
  initial link := ∃ receiver : BytesToFrame, receiver.inputFrame = [] ∧
    link = { line := [], text := [], receiver := receiver, sent := [], received := [] }
  step := linkStep

/-- A frame follows quiet text, text has no flag, and no call times out inside a frame. -/
def unbroken (link : SerialLink) : LinkLabel → Bool
  | .frame _ => quiet link.text
  | .print word => flagChar ∉ word
  | .read count readings finish =>
      inTime link.receiver.lastFrameFlag (timed (link.line.take count) readings) finish
        (link.line.drop count)

/-- What is on the line is what has been sent and not been received. -/
def SerialLink.InOrder (link : SerialLink) : Prop :=
  ∃ pending, Fifo.Accounted (link.sent.map Payload.bytes) link.received
      (pending.map Payload.bytes) ∧
    pppFramer.Carries link.receiver.inputFrame link.line link.text pending

/-- A chunk that is read in order: it takes what it emits off the line. -/
theorem SerialLink.InOrder.read {link : SerialLink} (inOrder : link.InOrder) {count : Nat}
    {readings : Nat → UInt64} {finish : UInt64} (available : count ≤ link.line.length)
    (met : unbroken link (.read count readings finish) = true) :
    ∃ next, linkStep link (.read count readings finish) = some next ∧ next.InOrder := by
  obtain ⟨pending, accounted, carries⟩ := inOrder
  rw [← List.take_append_drop count link.line] at carries
  obtain ⟨receiver, events, received, later, handled, emitted, rfl, kept⟩ :=
    handleRxd_of_carries _ readings finish carries (calm_of_inTime met)
  refine ⟨{ link with
      line := link.line.drop count
      receiver := receiver
      received := link.received ++ emissions events }, ?_, later, ?_, kept⟩
  · rw [linkStep, if_pos available, handled, Option.map_some]
  · rw [Fifo.Accounted, List.map_append] at accounted
    rw [Fifo.Accounted, accounted, emitted, List.append_assoc]

theorem SerialLink.InOrder.step {link next : SerialLink} (inOrder : link.InOrder)
    {label : LinkLabel} (met : unbroken link label = true)
    (taken : linkStep link label = some next) :
    next.InOrder := by
  cases label with
  | frame payload =>
    cases taken
    obtain ⟨pending, accounted, carries⟩ := inOrder
    refine ⟨pending ++ [payload], ?_, carries.write met payload⟩
    rw [Fifo.Accounted] at accounted ⊢
    rw [List.map_append, accounted, List.map_append, List.append_assoc]
  | print word =>
    cases taken
    obtain ⟨pending, accounted, carries⟩ := inOrder
    exact ⟨pending, accounted, carries.print (of_decide_eq_true met)⟩
  | read count readings finish =>
    have available : count ≤ link.line.length := by
      by_contra missing
      rw [linkStep, if_neg missing] at taken
      cases taken
    obtain ⟨other, stepped, kept⟩ := inOrder.read available met
    cases stepped.symm.trans taken
    exact kept

theorem inOrder_of_reachable {link : SerialLink}
    (reachable : (linkMachine.restrict unbroken).Reachable link) : link.InOrder := by
  refine Machine.Reachable.invariant ?_ ?_ reachable
  · rintro link ⟨receiver, empty, rfl⟩
    refine ⟨[], Fifo.Accounted.start, ?_⟩
    show pppFramer.Carries receiver.inputFrame [] [] []
    rw [empty]
    exact Framer.carries_nil
  · intro link label next _ inOrder taken
    obtain ⟨met, stepped⟩ := Machine.restrict_step taken
    exact inOrder.step met stepped

/-- The serial line is a reliable channel: as long as text is quiet and without flags, and no call
of the receiver times out inside a frame, the payloads that have been emitted are at any moment the
first of those that have been framed, in order and unchanged; all of them when the line is empty;
and reading any part of the line is defined. -/
theorem serialLink_fifo {link : SerialLink}
    (reachable : (linkMachine.restrict unbroken).Reachable link) :
    link.received <+: link.sent.map Payload.bytes ∧
      (link.line = [] → link.received = link.sent.map Payload.bytes) ∧
      ∀ count readings finish, count ≤ link.line.length →
        unbroken link (.read count readings finish) = true →
          (linkStep link (.read count readings finish)).isSome = true := by
  have inOrder := inOrder_of_reachable reachable
  refine ⟨?_, fun empty => ?_, fun count readings finish available met => ?_⟩
  · obtain ⟨pending, accounted, -⟩ := inOrder
    exact ⟨_, accounted.symm⟩
  · obtain ⟨pending, accounted, carries⟩ := inOrder
    rw [empty] at carries
    rw [carries.messages_of_nil] at accounted
    exact accounted.of_empty
  · obtain ⟨next, stepped, -⟩ := inOrder.read available met
    exact Option.isSome_of_eq_some stepped

/-- Text, a frame that is cut inside, and more text, with a timeout after the frame. -/
def chattyLabels : List LinkLabel :=
  [.print [0x68, 0x69, 0x0A], .read 2 (fun _ => 0) 5000, .frame ⟨[0x7E, 0x01], by decide⟩,
    .print [0x6F, 0x6B], .read 4 (fun _ => 5000) 5100, .read 6 (fun _ => 5200) 9000]

theorem serialLink_fifo_chatty :
    ∃ link : SerialLink, (linkMachine.restrict unbroken).Reachable link ∧
      link.received = [[0x7E, 0x01]] ∧ link.received <+: link.sent.map Payload.bytes := by
  obtain ⟨link, reachable, passed⟩ := Machine.exists_reachable_of_run
    (linkMachine.restrict unbroken)
    (show linkMachine.initial _ from ⟨⟨[], [], 0⟩, rfl, rfl⟩) chattyLabels
    (fun link => link.received = [[0x7E, 0x01]]) (by decide +kernel)
  exact ⟨link, reachable, of_decide_eq_true passed, (serialLink_fifo reachable).1⟩

end BrokerProxy.Ppp
