/-
This file follows the text that a device prints: over the line, through `bytesToFrame` and
its `logs`, to `redisLogStream` and the Redis stream `logs`.

Text and frames share the line. What stands between two frames is a segment of its own,
which `bytesToFrame` passes to `logs` when it cannot be a frame. So a line of text may be
cut by frames, by chunks and by the passes of the worker thread and still arrives as one
line, with the name that the node has when the line is complete: in runs in which no call
of the receiver times out and no single byte of text stands between two frames.
-/

import BrokerProxy.Redis.LogStream
import BrokerProxy.System.Overflow

namespace BrokerProxy.System

open Codec Framing Limero Line Ppp Protocol Redis Runs

variable {Value : Type}

/-! ### The text of a stream -/

/-- What `bytesToFrame` passes to `logs` of a segment. -/
def segmentText (segment : Bytes) : Bytes := ((segmentEvents segment).map echoes).getD []

/-- The text that a flag has ended in a stream, given what is buffered before it. -/
def endedText (buffer stream : Bytes) : Bytes :=
  (segments flagChar buffer stream).1.flatMap segmentText

/-- What a stream leaves in the buffer. -/
def openText (buffer stream : Bytes) : Bytes := (segments flagChar buffer stream).2

theorem endedText_append (buffer first second : Bytes) :
    endedText buffer (first ++ second) =
      endedText buffer first ++ endedText (openText buffer first) second := by
  unfold endedText openText
  rw [segments_append, List.flatMap_append]

theorem openText_append (buffer first second : Bytes) :
    openText buffer (first ++ second) = openText (openText buffer first) second := by
  unfold openText
  rw [segments_append]

/-- Text without flags stays open. -/
theorem segments_text {word : Bytes} (free : flagChar ∉ word) (buffer : Bytes) :
    endedText buffer word = [] ∧ openText buffer word = buffer ++ word := by
  have plain := segments_append_of_notMem flagChar word [] buffer free
  rw [List.append_nil] at plain
  unfold endedText openText
  rw [plain]
  exact ⟨rfl, rfl⟩

theorem segmentText_of_quiet {text : Bytes} (silent : quiet text = true)
    (notSingle : text.length ≠ 1) : segmentText text = text := by
  unfold segmentText segmentEvents
  split
  · rename_i empty
    rw [List.length_eq_zero_iff.mp empty]
    rfl
  · rename_i nonempty
    rw [quiet, List.all_eq_true] at silent
    have whole := silent text ((List.mem_tails _ _).mpr (List.suffix_refl text))
    obtain ⟨⟨accepted, out⟩, deframed, rejected⟩ := (Option.any_eq_true _ _).mp whole
    cases accepted with
    | true => cases rejected
    | false =>
      rw [deframed]
      show echoes (toStdout text) = text
      rw [toStdout, if_pos (by omega), echoes, List.flatMap_singleton]

/-- A frame ends the text before it and leaves nothing open. -/
theorem segments_payload {text : Bytes} (silent : quiet text = true) (notSingle : text.length ≠ 1)
    (payload : Payload) :
    endedText text (pppFrame payload.bytes) = text ∧
      openText text (pppFrame payload.bytes) = [] := by
  have whole := segments_pppFrame text payload.bytes []
  rw [List.append_nil] at whole
  have body : segmentText (frameBody payload.bytes) = [] := by
    rw [segmentText, segmentEvents_frameBody payload.bytes payload.bytes_ne_nil]
    rfl
  unfold endedText openText
  rw [whole]
  refine ⟨?_, rfl⟩
  rw [List.flatMap_cons, List.flatMap_cons, segmentText_of_quiet silent notSingle, body]
  exact List.append_nil _

theorem echoes_allEvents (parts : List Bytes) :
    ∀ {events : List FrameEvent}, allEvents parts = some events →
      echoes events = parts.flatMap segmentText := by
  induction parts with
  | nil =>
    intro events ended
    cases ended
    rfl
  | cons part rest inductionHypothesis =>
    intro events ended
    obtain ⟨first, ofPart, ended⟩ := Option.bind_eq_some_iff.mp ended
    obtain ⟨later, ofRest, rfl⟩ := Option.map_eq_some_iff.mp ended
    rw [echoes_append, inductionHypothesis ofRest, List.flatMap_cons, segmentText, ofPart]
    rfl

/-- A call of a receiver in time passes on the text that the flags of the chunk have ended. -/
theorem handleRxd_text {receiver next : BytesToFrame} {chunk : List (Marked UInt8)}
    {readings : Nat → UInt64} {finish : UInt64} {events : List FrameEvent}
    (onTime : finish - lastFlag receiver.lastFrameFlag (timed chunk readings) ≤ frameTimeout)
    (handled : handleRxd receiver ⟨timed chunk readings, finish⟩ = some (next, events)) :
    next.inputFrame = openText receiver.inputFrame (chunk.map Marked.symbol) ∧
      echoes events = endedText receiver.inputFrame (chunk.map Marked.symbol) := by
  have looped := (handleRxd_onTime receiver ⟨timed chunk readings, finish⟩
    (UInt64.not_lt.mpr onTime)).symm.trans handled
  have parts := rxdLoop_segments (timed chunk readings) receiver
  rw [show rxdLoop receiver (timed chunk readings) = some (next, events) from looped,
    symbols_timed, Option.map_some] at parts
  obtain ⟨ended, ofParts, same⟩ := Option.map_eq_some_iff.mp parts.symm
  obtain ⟨left, rfl⟩ := Prod.mk.inj same
  exact ⟨left.symm, echoes_allEvents _ ofParts⟩

/-! ### The text of a system -/

namespace SerialSystem

/-- What the proxy has not decoded: the chunks in its queue and the line. -/
def ahead (system : SerialSystem Value) : Bytes :=
  (((system.proxy.session.memory .incomingSerial).contents tenPlaces).flatten ++ system.up).map
    Marked.symbol

/-- What the device writes to its line outside of frames in a step. -/
def printed (system : SerialSystem Value) : SystemLabel → Bytes
  | .print word => word
  | .onRxd count readings finish _ =>
      (handleRxd system.device.fromSerialFrame
        ⟨timed (system.down.take count) readings, finish⟩).elim [] fun result => echoes result.2
  | .call _ | .invoke _ | .waitInvoker _ _ _ _ | .publish _ => []

/-- The chunk that the next pass serves, if it serves one. -/
def served (system : SerialSystem Value) : Option (List (Marked UInt8)) :=
  match system.proxy.session.pipe with
  | .incomingSerial :: _ => ((system.proxy.session.memory .incomingSerial).pop tenPlaces).1
  | _ => none

/-- What `bytesToFrame` passes to `logs` in a step. -/
def logs (system : SerialSystem Value) : SystemLabel → Bytes
  | .waitInvoker readings finish _ _ =>
      (system.served.bind fun chunk =>
        handleRxd system.proxy.bytesToFrame ⟨timed chunk readings, finish⟩).elim [] fun result =>
          echoes result.2
  | .call _ | .print _ | .onRxd _ _ _ _ | .invoke _ | .publish _ => []

end SerialSystem

/-- What has been printed is what has been logged, what is on its way, and what no frame has ended
yet. -/
structure Printed (system : SerialSystem Value) (printed logged : Bytes) : Prop where
  text : openText system.proxy.bytesToFrame.inputFrame system.ahead = system.text
  whole : printed =
    logged ++ (endedText system.proxy.bytesToFrame.inputFrame system.ahead ++ system.text)

namespace Printed

variable {system next : SerialSystem Value} {printed logged : Bytes}

/-- A step that touches nothing of this. -/
theorem of_same (before : Printed system printed logged)
    (receiver : next.proxy.bytesToFrame.inputFrame = system.proxy.bytesToFrame.inputFrame)
    (ahead : next.ahead = system.ahead) (text : next.text = system.text) :
    Printed next printed logged where
  text := by rw [receiver, ahead, text, before.text]
  whole := by rw [receiver, ahead, text, before.whole]

/-- Text is written. -/
theorem write (before : Printed system printed logged) {word : Bytes} (free : flagChar ∉ word)
    (receiver : next.proxy.bytesToFrame.inputFrame = system.proxy.bytesToFrame.inputFrame)
    (ahead : next.ahead = system.ahead ++ word) (text : next.text = system.text ++ word) :
    Printed next (printed ++ word) logged := by
  obtain ⟨nothing, open_⟩ := segments_text free system.text
  constructor
  · rw [receiver, ahead, text, openText_append, before.text, open_]
  · rw [receiver, ahead, text, endedText_append, before.text, nothing, before.whole,
      List.append_nil, List.append_assoc, List.append_assoc]

/-- A frame is written after text that cannot be a frame. -/
theorem frame (before : Printed system printed logged) (silent : quiet system.text = true)
    (notSingle : system.text.length ≠ 1) (payload : Payload)
    (receiver : next.proxy.bytesToFrame.inputFrame = system.proxy.bytesToFrame.inputFrame)
    (ahead : next.ahead = system.ahead ++ pppFrame payload.bytes) (text : next.text = []) :
    Printed next printed logged := by
  obtain ⟨ended, left⟩ := segments_payload silent notSingle payload
  constructor
  · rw [receiver, ahead, text, openText_append, before.text, left]
  · rw [receiver, ahead, text, endedText_append, before.text, ended, before.whole, List.append_nil]

/-- A chunk is decoded. -/
theorem read (before : Printed system printed logged) {chunk : Bytes}
    (ahead : system.ahead = chunk ++ next.ahead)
    (receiver : next.proxy.bytesToFrame.inputFrame =
      openText system.proxy.bytesToFrame.inputFrame chunk) (text : next.text = system.text) :
    Printed next printed
      (logged ++ endedText system.proxy.bytesToFrame.inputFrame chunk) := by
  have open_ := before.text
  have whole := before.whole
  rw [ahead, openText_append] at open_
  rw [ahead, endedText_append] at whole
  constructor
  · rw [receiver, text, open_]
  · rw [receiver, text, whole, List.append_assoc, List.append_assoc]

end Printed

/-! ### The text in one step -/

section

variable {tiny : Tiny Value} {system next : SerialSystem Value} {printed logged : Bytes}

/-- The queues of a system of which something survives. -/
theorem Survives.holding (survives : Survives system) :
    ∃ items : (flow : SerialFlow) → List (SerialItem flow),
      Holding serialLayout system.proxy.session items ∧
      (∀ flow, (system.proxy.session.accepted flow).length < 2 ^ 64) ∧
      flagChar ∉ system.device.fromSerialFrame.inputFrame := by
  obtain ⟨called, published, -, -, items, upward, calls, underway, -⟩ := survives
  exact ⟨items, underway.holding, underway.few, underway.free⟩

/-- Nothing is ahead of a system whose line is empty and which has no token. -/
theorem Survives.ahead_of_idle (survives : Survives system) (noLine : system.up = [])
    (noToken : system.proxy.session.pipe = []) : system.ahead = [] := by
  obtain ⟨items, holding, few, -⟩ := survives.holding
  have tokens := (holding .incomingSerial).tokens
  rw [noToken, List.count_nil] at tokens
  have contents : (system.proxy.session.memory .incomingSerial).contents tenPlaces = [] :=
    (holding.contents _ (few _)).trans (List.length_eq_zero_iff.mp tokens.symm)
  unfold SerialSystem.ahead
  rw [contents, noLine]
  rfl

/-- What a frame or a word adds to the line is added to what is ahead. -/
theorem ahead_of_up {more : List (Marked UInt8)} (session : next.proxy = system.proxy)
    (up : next.up = system.up ++ more) :
    next.ahead = system.ahead ++ more.map Marked.symbol := by
  unfold SerialSystem.ahead
  rw [session, up, ← List.append_assoc, List.map_append]

/-- A call writes a frame or nothing. -/
theorem call_cases {call : DeviceCall} (taken : system.call tiny call = some next) :
    next.proxy = system.proxy ∧
      ((∃ payload : Payload, next.up = system.up ++ pppFramer.frame payload ∧ next.text = []) ∨
        (next.up = system.up ∧ next.text = system.text)) := by
  obtain ⟨sent, written, rfl⟩ := Option.map_eq_some_iff.mp taken
  by_cases success :
      (system.device.toCbor.serialize tiny.deviceEncoder call.arguments).success = true
  · rw [DeviceCall.send_of_success success] at written
    obtain rfl := Option.some.inj written
    let payload : Payload := ⟨arrayEncoding call.arguments, arrayEncoding_ne_nil _⟩
    exact ⟨rfl, Or.inl ⟨payload, congrArg (system.up ++ ·) (lineFrame_payload payload), rfl⟩⟩
  · rw [send_refused success] at written
    obtain rfl := Option.some.inj written
    exact ⟨rfl, Or.inr ⟨rfl, rfl⟩⟩

theorem Printed.call (before : Printed system printed logged) {call : DeviceCall}
    (silent : quiet system.text = true) (notSingle : system.text.length ≠ 1)
    (taken : system.call tiny call = some next) : Printed next printed logged := by
  obtain ⟨proxy, ⟨payload, up, text⟩ | ⟨up, text⟩⟩ := call_cases taken
  · refine before.frame silent notSingle payload (by rw [proxy]) ?_ text
    rw [ahead_of_up proxy up, symbols_pppFrame]
  · refine before.of_same (by rw [proxy]) ?_ text
    rw [ahead_of_up proxy (up.trans (List.append_nil _).symm), List.map_nil, List.append_nil]

theorem Printed.print (before : Printed system printed logged) {word : Bytes}
    (free : flagChar ∉ word) : Printed (system.print word) (printed ++ word) logged := by
  refine before.write free rfl ?_ rfl
  have ahead : (system.print word).ahead = system.ahead ++ (outer word).map Marked.symbol :=
    ahead_of_up rfl rfl
  rw [ahead, symbols_outer]

/-- The device reads, and echoes what is not a frame. -/
theorem Printed.onRxd (before : Printed system printed logged) (survives : Survives system)
    {count : Nat} {readings : Nat → UInt64} {finish : UInt64} {msgTypes : Nat → Int32}
    (met : orderly system (.onRxd count readings finish msgTypes) = true)
    (taken : system.onRxd tiny count readings finish msgTypes = some next) :
    Printed next (printed ++ system.printed (.onRxd count readings finish msgTypes)) logged := by
  obtain ⟨-, -, -, free⟩ := survives.holding
  obtain ⟨⟨receiver, events⟩, handled, taken⟩ := Option.bind_eq_some_iff.mp taken
  obtain ⟨⟨msgs, fromCbor⟩, -, rfl⟩ := Option.map_eq_some_iff.mp taken
  have onTime : ¬ finish - lastFlag system.device.fromSerialFrame.lastFrameFlag
      (timed (system.down.take count) readings) > frameTimeout :=
    UInt64.not_lt.mpr (of_decide_eq_true met)
  have looped := (handleRxd_onTime system.device.fromSerialFrame
    ⟨timed (system.down.take count) readings, finish⟩ onTime).symm.trans handled
  have echo := echoes_rxdLoop _ free looped
  have word : system.printed (.onRxd count readings finish msgTypes) = echoes events := by
    rw [SerialSystem.printed, handled]
    rfl
  rw [word]
  have same : Printed
      { system with
        device := { system.device with fromSerialFrame := receiver, fromCbor := fromCbor }
        down := system.down.drop count
        delivered := system.delivered ++ msgs } printed logged := before.of_same rfl rfl rfl
  exact same.print echo

/-- A chunk moves from the line into the queue. -/
theorem Printed.invoke (before : Printed system printed logged) (survives : Survives system)
    {count : Nat} (met : system.hasRoom .incomingSerial 1 = true) :
    Printed (system.invoke count) printed logged := by
  obtain ⟨items, holding, few, -⟩ := survives.holding
  obtain ⟨places, indices⟩ := (Bool.and_eq_true _ _).mp met
  have size : (system.proxy.session.memory .incomingSerial).size tenPlaces =
      (items .incomingSerial).length :=
    (holding .incomingSerial).window.size_eq
      ((holding .incomingSerial).length_accepted ▸ few .incomingSerial)
  have room : (items .incomingSerial).length + 1 ≤ 10 := size ▸ of_decide_eq_true places
  have more : (system.proxy.session.accepted .incomingSerial).length + 1 < 2 ^ 64 :=
    of_decide_eq_true indices
  obtain ⟨stepped, held⟩ := Holding.on Underway.roomy holding .incomingSerial
    (system.up.take count) (few _) room
  have accepted : (system.proxy.session.on serialLayout pipeSize .incomingSerial
      (system.up.take count)).accepted .incomingSerial =
        system.proxy.session.accepted .incomingSerial ++ [system.up.take count] := by
    rw [stepped]
    dsimp only
    rw [Function.update_self]
  have contents : (system.proxy.session.memory .incomingSerial).contents tenPlaces =
      items .incomingSerial := holding.contents _ (few _)
  have after : ((system.invoke count).proxy.session.memory .incomingSerial).contents tenPlaces =
      items .incomingSerial ++ [system.up.take count] := by
    have grown := held.contents .incomingSerial (by
      rw [accepted, List.length_append]
      exact more)
    rw [Function.update_self] at grown
    exact grown
  refine before.of_same rfl ?_ rfl
  have up : (system.invoke count).up = system.up.drop count := rfl
  unfold SerialSystem.ahead
  rw [after, contents, up, List.flatten_append, List.flatten_singleton, List.append_assoc,
    List.take_append_drop]

/-- Nothing is ahead of a system that is not ahead of one with the same line and chunks. -/
theorem ahead_of_memory {other : SerialSystem Value} (up : other.up = system.up)
    (memory : other.proxy.session.memory .incomingSerial =
      system.proxy.session.memory .incomingSerial) : other.ahead = system.ahead := by
  unfold SerialSystem.ahead
  rw [up, memory]

/-- A pass that serves a chunk logs the text that it ends. -/
theorem Printed.chunk (before : Printed system printed logged) (survives : Survives system)
    {rest : List SerialFlow} (token : system.proxy.session.pipe = .incomingSerial :: rest)
    {readings : Nat → UInt64} {finish : UInt64} {msgTypes : MsgTypes}
    {transmission : Transmission}
    (inTime : system.served.all fun chunk =>
      finish - lastFlag system.proxy.bytesToFrame.lastFrameFlag (timed chunk readings) ≤
        frameTimeout)
    (taken : system.waitInvoker tiny readings finish msgTypes transmission = some next) :
    Printed next printed
      (logged ++ system.logs (.waitInvoker readings finish msgTypes transmission)) := by
  obtain ⟨items, holding, few, -⟩ := survives.holding
  obtain ⟨chunk, later, same, popped, stepped, held⟩ :=
    Holding.waitInvoker holding token (few .incomingSerial)
  replace popped : ((system.proxy.session.memory .incomingSerial).pop tenPlaces).1 = some chunk :=
    popped
  have served : system.served = some chunk := by
    unfold SerialSystem.served
    simp only [token, popped]
  rw [served, Option.all_some, decide_eq_true_eq] at inTime
  unfold SerialSystem.waitInvoker SerialSystem.decode at taken
  simp only [token, popped] at taken
  obtain ⟨⟨receiver, events⟩, handled, rfl⟩ := Option.map_eq_some_iff.mp taken
  obtain ⟨left, echo⟩ := handleRxd_text inTime handled
  have logs : system.logs (.waitInvoker readings finish msgTypes transmission) =
      endedText system.proxy.bytesToFrame.inputFrame (chunk.map Marked.symbol) := by
    rw [SerialSystem.logs, served, Option.bind_some, handled]
    exact echo
  rw [logs]
  refine before.read ?_ left rfl
  have accepted : (system.proxy.session.waitInvoker serialLayout).accepted =
      system.proxy.session.accepted := by rw [stepped]
  have contents : (system.proxy.session.memory .incomingSerial).contents tenPlaces =
      chunk :: later := same ▸ holding.contents _ (few _)
  have after : ((system.proxy.session.waitInvoker serialLayout).memory .incomingSerial).contents
      tenPlaces = later := by
    have shorter := held.contents .incomingSerial (by rw [accepted]; exact few _)
    rw [Function.update_self] at shorter
    exact shorter
  unfold SerialSystem.ahead
  rw [contents, onAll_memory (by decide), after, List.flatten_cons, List.append_assoc,
    List.map_append]

/-- Every other pass changes nothing here. -/
theorem Printed.pass (before : Printed system printed logged)
    (notChunk : ∀ rest, system.proxy.session.pipe ≠ .incomingSerial :: rest)
    {readings : Nat → UInt64} {finish : UInt64} {msgTypes : MsgTypes}
    {transmission : Transmission}
    (taken : system.waitInvoker tiny readings finish msgTypes transmission = some next) :
    Printed next printed
      (logged ++ system.logs (.waitInvoker readings finish msgTypes transmission)) := by
  have notServed : system.served = none := by
    unfold SerialSystem.served
    split
    · rename_i rest token
      exact absurd token (notChunk rest)
    · rfl
  have logs : system.logs (.waitInvoker readings finish msgTypes transmission) = [] := by
    rw [SerialSystem.logs, notServed]
    rfl
  rw [logs, List.append_nil]
  have memory : (system.proxy.session.waitInvoker serialLayout).memory .incomingSerial =
      system.proxy.session.memory .incomingSerial := by
    cases token : system.proxy.session.pipe with
    | nil =>
      rw [PipelineState.waitInvoker, token]
    | cons flow rest =>
      refine waitInvoker_memory (fun same => ?_) token
      exact notChunk rest (same ▸ token)
  unfold SerialSystem.waitInvoker at taken
  dsimp only at taken
  split at taken
  · obtain rfl := Option.some.inj taken
    exact before.of_same rfl (ahead_of_memory rfl memory) rfl
  · rename_i rest token
    exact absurd token (notChunk rest)
  · split at taken
    · obtain ⟨handled, -, rfl⟩ := Option.map_eq_some_iff.mp taken
      exact before.of_same rfl (ahead_of_memory rfl memory) rfl
    · obtain rfl := Option.some.inj taken
      exact before.of_same rfl (ahead_of_memory rfl memory) rfl
  · split at taken
    · obtain ⟨line, -, rfl⟩ := Option.map_eq_some_iff.mp taken
      exact before.of_same rfl (ahead_of_memory rfl memory) rfl
    · obtain rfl := Option.some.inj taken
      exact before.of_same rfl (ahead_of_memory rfl memory) rfl

theorem Printed.publish (before : Printed system printed logged) {msg : PubMsg}
    (taken : system.publish tiny msg = some next) : Printed next printed logged := by
  obtain ⟨sent, -, rfl⟩ := Option.map_eq_some_iff.mp taken
  dsimp only
  split
  · exact before.of_same rfl (ahead_of_memory rfl (on_memory (by decide) _)) rfl
  · exact before.of_same rfl rfl rfl

end

/-- The steps of an orderly run in which the text survives too: no call of the proxy's receiver ends
late, and no single byte stands between two frames. -/
def tidy (system : SerialSystem Value) (label : SystemLabel) : Bool :=
  orderly system label &&
    match label with
    | .call _ => system.text.length ≠ 1
    | .waitInvoker readings finish _ _ =>
        system.served.all fun chunk =>
          finish - lastFlag system.proxy.bytesToFrame.lastFrameFlag (timed chunk readings) ≤
            frameTimeout
    | .print _ | .onRxd _ _ _ _ | .invoke _ | .publish _ => true

/-- A tidy step keeps account of the text. -/
theorem Printed.step {tiny : Tiny Value} {system next : SerialSystem Value} {printed logged : Bytes}
    (before : Printed system printed logged) (survives : Survives system) {label : SystemLabel}
    (met : tidy system label = true) (taken : systemStep tiny system label = some next) :
    Printed next (printed ++ system.printed label) (logged ++ system.logs label) := by
  obtain ⟨orderly, text⟩ := (Bool.and_eq_true _ _).mp met
  cases label with
  | call call =>
    obtain ⟨silent, -⟩ := (Bool.and_eq_true _ _).mp orderly
    have kept := before.call silent (of_decide_eq_true text) taken
    rwa [← List.append_nil printed, ← List.append_nil logged] at kept
  | print word =>
    obtain rfl := Option.some.inj taken
    have kept := before.print (of_decide_eq_true orderly)
    rwa [← List.append_nil logged] at kept
  | onRxd count readings finish msgTypes =>
    rw [systemStep] at taken
    split at taken
    · have kept := before.onRxd survives orderly taken
      rwa [← List.append_nil logged] at kept
    · cases taken
  | invoke count =>
    rw [systemStep] at taken
    split at taken
    · obtain rfl := Option.some.inj taken
      have kept : Printed (system.invoke count) printed logged := before.invoke survives orderly
      rwa [← List.append_nil printed, ← List.append_nil logged] at kept
    · cases taken
  | waitInvoker readings finish msgTypes transmission =>
    rw [show system.printed (.waitInvoker readings finish msgTypes transmission) = [] from rfl,
      List.append_nil]
    by_cases token : ∃ rest, system.proxy.session.pipe = .incomingSerial :: rest
    · obtain ⟨rest, token⟩ := token
      exact before.chunk survives token text taken
    · exact before.pass (fun rest same => token ⟨rest, same⟩) taken
  | publish msg =>
    have kept := before.publish taken
    rwa [← List.append_nil printed, ← List.append_nil logged] at kept

/-! ### The stream of log entries -/

/-- The link, the sink for what it logs, and what has been printed and logged so far. -/
structure LogSystem (Value : Type) where
  link : SerialSystem Value
  sink : LogSink
  printed : Bytes
  logged : Bytes

/-- The name of the node after some messages of the device. -/
def announced : Bytes → List ProxyMsg → Bytes
  | nodeName, [] => nodeName
  | _, .node msg :: rest => announced msg.node rest
  | nodeName, .publish _ :: rest | nodeName, .subscribe _ :: rest => announced nodeName rest

/-- What happens next: a step of the link, with the end of each command that `redisLogStream` makes
in it, or anything that happens to the broker otherwise. -/
inductive LogLabel
  | link (label : SystemLabel) (ends : Nat → CommandEnd)
  | session (label : SessionLabel)

section

variable (vector : Bytes → List Bytes → Option (List Bytes)) (tiny : Tiny Value)

/-- One step. What a pass logs goes to `redisLogStream`, and the name of a node that it handles is
noted. -/
def logStep (system : LogSystem Value) : LogLabel → Option (LogSystem Value)
  | .link label ends =>
      (systemStep tiny system.link label).bind fun link =>
        (system.sink.redisLogStream vector ends (system.link.logs label)).map fun sink =>
          { link := link
            sink := { sink with
              nodeName := announced sink.nodeName
                (link.handled.drop system.link.handled.length) }
            printed := system.printed ++ system.link.printed label
            logged := system.logged ++ system.link.logs label }
  | .session label =>
      (sessionStep system.sink.session label).map fun session =>
        { system with sink := { system.sink with session := session } }

/-- Everything has just been constructed. -/
structure LogSystem.Constructed (system : LogSystem Value) : Prop where
  link : System.Constructed system.link
  session : sessionMachine.initial system.sink.session
  sink : system.sink.nodeName = [] ∧ system.sink.buffer = [] ∧ system.sink.attempts = [] ∧
    system.sink.commands = []
  texts : system.printed = [] ∧ system.logged = []

end

/-- What has been logged is accounted for: its lines are the entries attempted, the server has
executed some of the commands, and the name of the node is one that the device has announced. -/
structure LogSystem.Accounted (system : LogSystem Value) : Prop where
  survives : Survives system.link
  printed : Printed system.link system.printed system.logged
  lines : linesOf [] system.logged =
    (system.sink.attempts.map LogEntry.message, system.sink.buffer)
  commands : system.sink.commands.Sublist (system.sink.attempts.map LogEntry.arguments)
  nodes : ∀ entry ∈ system.sink.attempts,
    entry.node = [] ∨ .node { node := entry.node } ∈ system.link.handled
  nodeName : system.sink.nodeName = [] ∨
    .node { node := system.sink.nodeName } ∈ system.link.handled

theorem announced_mem (msgs : List ProxyMsg) :
    ∀ nodeName, announced nodeName msgs = nodeName ∨
      .node { node := announced nodeName msgs } ∈ msgs := by
  induction msgs with
  | nil => exact fun nodeName => Or.inl rfl
  | cons msg rest inductionHypothesis =>
    intro nodeName
    cases msg with
    | publish _ | subscribe _ =>
      exact (inductionHypothesis nodeName).imp id (List.mem_cons_of_mem _)
    | node msg =>
      rcases inductionHypothesis msg.node with same | later
      · refine Or.inr (List.mem_cons.mpr (Or.inl ?_))
        rw [announced, same]
      · exact Or.inr (List.mem_cons_of_mem _ later)

section

variable {vector : Bytes → List Bytes → Option (List Bytes)} {tiny : Tiny Value}
  (documented : ∀ format args arguments, fill (words format) args = some arguments →
    vector format args = some arguments)

include documented in
/-- A tidy step keeps account of the entries, and adds all commands if they are answered. -/
theorem LogSystem.Accounted.link {system next : LogSystem Value} (accounted : system.Accounted)
    {label : SystemLabel} {ends : Nat → CommandEnd} (met : tidy system.link label = true)
    (taken : logStep vector tiny system (.link label ends) = some next) :
    next.Accounted ∧
      (system.sink.answered ends (system.link.logs label) = true →
        system.sink.commands = system.sink.attempts.map LogEntry.arguments →
          next.sink.commands = next.sink.attempts.map LogEntry.arguments) := by
  obtain ⟨link, stepped, taken⟩ := Option.bind_eq_some_iff.mp taken
  obtain ⟨sink, streamed, rfl⟩ := Option.map_eq_some_iff.mp taken
  obtain ⟨name, buffer, attempts, executed, fewer, commands, all⟩ :=
    LogSink.redisLogStream_spec documented _ streamed
  obtain ⟨new, grown⟩ := (systemStep_histories stepped).1
  have messages : (system.sink.entries (system.link.logs label)).map LogEntry.message =
      (linesOf system.sink.buffer (system.link.logs label)).1 := by
    rw [LogSink.entries, List.map_map]
    exact List.map_id _
  have fresh : link.handled.drop system.link.handled.length = new := by
    rw [← grown, List.drop_left]
  have stays : ∀ node : Bytes, (node = [] ∨ .node { node := node } ∈ system.link.handled) →
      node = [] ∨ .node { node := node } ∈ link.handled := by
    intro node known
    exact known.imp id fun member => grown ▸ List.mem_append_left new member
  refine ⟨⟨accounted.survives.step ((Bool.and_eq_true _ _).mp met).1 stepped,
    accounted.printed.step accounted.survives met stepped, ?_, ?_, ?_, ?_⟩, ?_⟩
  · rw [linesOf_append, accounted.lines, attempts, buffer, List.map_append, messages]
  · rw [commands, attempts, List.map_append]
    exact accounted.commands.append fewer
  · intro entry member
    rw [attempts] at member
    rcases List.mem_append.mp member with earlier | added
    · exact stays _ (accounted.nodes entry earlier)
    · obtain ⟨line, -, rfl⟩ := List.mem_map.mp added
      exact stays _ accounted.nodeName
  · dsimp only
    rw [fresh, name]
    rcases announced_mem new system.sink.nodeName with same | member
    · rw [same]
      exact stays _ accounted.nodeName
    · exact Or.inr (grown ▸ List.mem_append_right _ member)
  · intro answered whole
    dsimp only
    rw [commands, attempts, whole, all answered, List.map_append]

/-- What else happens to the broker changes nothing here. -/
theorem LogSystem.Accounted.session {system next : LogSystem Value} (accounted : system.Accounted)
    {label : SessionLabel} (taken : logStep vector tiny system (.session label) = some next) :
    next.Accounted ∧ next.sink.commands = system.sink.commands ∧
      next.sink.attempts = system.sink.attempts := by
  obtain ⟨session, -, rfl⟩ := Option.map_eq_some_iff.mp taken
  exact ⟨⟨accounted.survives, accounted.printed, accounted.lines, accounted.commands,
    accounted.nodes, accounted.nodeName⟩, rfl, rfl⟩

theorem LogSystem.Constructed.accounted {system : LogSystem Value}
    (constructed : system.Constructed) : system.Accounted := by
  obtain ⟨nodeName, buffer, attempts, commands⟩ := constructed.sink
  obtain ⟨printed, logged⟩ := constructed.texts
  obtain ⟨value, start⟩ := constructed.link.session
  obtain ⟨up, text, -⟩ := constructed.link.lines
  have survives : Survives system.link := constructed.link.lossless.survives
  have ahead : system.link.ahead = [] := survives.ahead_of_idle up (by rw [start])
  refine ⟨survives, ⟨?_, ?_⟩, ?_, ?_, ?_, Or.inl nodeName⟩
  · rw [ahead, text, constructed.link.bytesToFrame]
    rfl
  · rw [printed, logged, ahead, text]
    rfl
  · rw [logged, attempts, buffer]
    rfl
  · rw [commands]
    exact List.nil_sublist _
  · rw [attempts]
    exact nofun

end

/-! ### What arrives -/

end BrokerProxy.System
