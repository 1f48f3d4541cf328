/-
This file models `redisLogStream`, the sink of `serialProxy` for what a device prints. It
collects the bytes in a static buffer, and a newline makes an entry of the Redis stream
`logs` of the line before it, with the name that the node has at that moment.

How the text is cut into chunks does not matter. Each line is sent in one command, once:
whether the command fails or the broker is not connected, the buffer is cleared. So the
entries are at any time some of the lines in their order, and all of them as long as the
server accepts every command.
-/

import BrokerProxy.Redis.CommandText
import BrokerProxy.Redis.Subscriptions

namespace BrokerProxy.Redis

open Framing

/-! ### Lines -/

/-- The character `\n`. -/
def newline : UInt8 := 0x0A

/-- The character `\r`. -/
def carriageReturn : UInt8 := 0x0D

/-- The lines that end in a text, given what is buffered before it, and what is buffered then. -/
def linesOf (buffer text : Bytes) : List Bytes × Bytes :=
  segments newline buffer (text.filter (· ≠ carriageReturn))

theorem linesOf_append (buffer first second : Bytes) :
    linesOf buffer (first ++ second) =
      ((linesOf buffer first).1 ++ (linesOf (linesOf buffer first).2 second).1,
        (linesOf (linesOf buffer first).2 second).2) := by
  unfold linesOf
  rw [List.filter_append, segments_append]

theorem linesOf_newline (buffer rest : Bytes) :
    linesOf buffer (newline :: rest) = (buffer :: (linesOf [] rest).1, (linesOf [] rest).2) := by
  unfold linesOf
  rw [List.filter_cons_of_pos (by decide), segments, if_pos rfl]

theorem linesOf_carriageReturn (buffer rest : Bytes) :
    linesOf buffer (carriageReturn :: rest) = linesOf buffer rest := by
  unfold linesOf
  rw [List.filter_cons_of_neg (by decide)]

theorem linesOf_plain {b : UInt8} (notNewline : b ≠ newline) (notReturn : b ≠ carriageReturn)
    (buffer rest : Bytes) : linesOf buffer (b :: rest) = linesOf (buffer ++ [b]) rest := by
  unfold linesOf
  rw [List.filter_cons_of_pos (by simpa using notReturn), segments, if_neg notNewline]

/-! ### The command -/

/-- What hiredis documents of a format with arguments: between spaces, `%s` stands for the next
argument as a whole, whatever is in it. -/
def fill : List Bytes → List Bytes → Option (List Bytes)
  | [], _ => some []
  | word :: rest, args =>
      if word = ascii "%s" then
        args.head?.bind fun arg => (fill rest args.tail).map (cString arg :: ·)
      else if word.contains percent then none
      else (fill rest args).map (word :: ·)

/-- The format that `redisLogStream` passes to `command`. -/
def xaddFormat : Bytes := ascii "XADD logs * node %s message %s "

/-- An entry that is to be added to the stream. -/
structure LogEntry where
  node : Bytes
  message : Bytes
deriving DecidableEq

/-- The argument vector of the command that adds an entry. -/
def LogEntry.arguments (entry : LogEntry) : List Bytes :=
  [ascii "XADD", ascii "logs", ascii "*", ascii "node", cString entry.node, ascii "message",
    cString entry.message]

theorem fill_xadd (entry : LogEntry) :
    fill (words xaddFormat) [entry.node, entry.message] = some entry.arguments := by
  have format : words xaddFormat =
      [ascii "XADD", ascii "logs", ascii "*", ascii "node", ascii "%s", ascii "message",
        ascii "%s"] := by decide +kernel
  have plain : ∀ word ∈ [ascii "XADD", ascii "logs", ascii "*", ascii "node", ascii "message"],
      word ≠ ascii "%s" ∧ ¬ word.contains percent = true := by decide +kernel
  have copied : ∀ word ∈ [ascii "XADD", ascii "logs", ascii "*", ascii "node", ascii "message"],
      ∀ rest args, fill (word :: rest) args = (fill rest args).map (word :: ·) := by
    intro word member rest args
    rw [fill, if_neg (plain word member).1, if_neg (plain word member).2]
  have filled : ∀ rest arg args, fill (ascii "%s" :: rest) (arg :: args) =
      (fill rest args).map (cString arg :: ·) := fun rest arg args => if_pos rfl
  rw [format, copied _ (by simp), copied _ (by simp), copied _ (by simp), copied _ (by simp),
    filled, copied _ (by simp), filled, fill]
  rfl

/-! ### The sink -/

/-- How a command ends, with the two connections that may follow. -/
structure CommandEnd where
  exchange : Exchange
  first : ConnectOutcome
  second : ConnectOutcome

/-- What `redisLogStream` uses, the entries that it has tried to add, and the commands for it that
the server has executed. -/
structure LogSink where
  session : Session
  nodeName : Bytes
  buffer : Bytes
  attempts : List LogEntry
  commands : List (List Bytes)

namespace LogSink

variable (vector : Bytes → List Bytes → Option (List Bytes))

/-- `command`, for a line. Whatever it returns, nobody looks at it. -/
def command (sink : LogSink) (line : Bytes) (ending : CommandEnd) : Option LogSink :=
  (vector xaddFormat [sink.nodeName, line]).bind fun arguments =>
    (sessionStep sink.session (.command ending.exchange ending.first ending.second)).map
      fun session =>
        { sink with
          session := session
          attempts := sink.attempts ++ [{ node := sink.nodeName, message := line }]
          commands :=
            if sink.session.broker.connected && ending.exchange.executed then
              sink.commands ++ [arguments]
            else sink.commands }

/-- `redisLogStream`, with the end of each command that it makes. -/
def redisLogStream : LogSink → (Nat → CommandEnd) → Bytes → Option LogSink
  | sink, _, [] => some sink
  | sink, ends, b :: rest =>
      if b = newline then
        (sink.command vector sink.buffer (ends 0)).bind fun sent =>
          redisLogStream { sent with buffer := [] } (fun place => ends (place + 1)) rest
      else if b = carriageReturn then redisLogStream sink ends rest
      else redisLogStream { sink with buffer := sink.buffer ++ [b] } ends rest

/-- Every command that is made for a text finds the broker connected and is accepted. -/
def answered (sink : LogSink) (ends : Nat → CommandEnd) (text : Bytes) : Bool :=
  (List.range (linesOf sink.buffer text).1.length).all fun place =>
    sink.session.broker.connected && (ends place).exchange = .accepted

/-- The entries that a text makes. -/
def entries (sink : LogSink) (text : Bytes) : List LogEntry :=
  (linesOf sink.buffer text).1.map fun line => { node := sink.nodeName, message := line }

variable {vector} {sink after : LogSink} {ends : Nat → CommandEnd}

theorem entries_newline (sink : LogSink) (rest : Bytes) :
    sink.entries (newline :: rest) =
      { node := sink.nodeName, message := sink.buffer } ::
        LogSink.entries { sink with buffer := [] } rest := by
  rw [entries, linesOf_newline]
  rfl

theorem answered_newline (sink : LogSink) (ends : Nat → CommandEnd) (rest : Bytes) :
    sink.answered ends (newline :: rest) =
      ((sink.session.broker.connected && decide ((ends 0).exchange = .accepted)) &&
        LogSink.answered { sink with buffer := [] } (fun place => ends (place + 1)) rest) := by
  rw [answered, linesOf_newline, List.length_cons, List.range_succ_eq_map, List.all_cons,
    List.all_map]
  rfl

section Documented

variable (documented : ∀ format args arguments, fill (words format) args = some arguments →
  vector format args = some arguments)
include documented

/-- What `command` leaves: one attempt, and at most one command that the server has executed. -/
theorem command_cases {line : Bytes} {ending : CommandEnd}
    (done : sink.command vector line ending = some after) :
    ∃ session executed,
      executed.Sublist [LogEntry.arguments { node := sink.nodeName, message := line }] ∧
      (sink.session.broker.connected = true → ending.exchange = .accepted →
        session = sink.session ∧
          executed = [LogEntry.arguments { node := sink.nodeName, message := line }]) ∧
      after =
        { sink with
          session := session
          attempts := sink.attempts ++ [{ node := sink.nodeName, message := line }]
          commands := sink.commands ++ executed } := by
  have arguments := documented xaddFormat [sink.nodeName, line] _
    (fill_xadd { node := sink.nodeName, message := line })
  rw [command, arguments, Option.bind_some] at done
  obtain ⟨session, stepped, rfl⟩ := Option.map_eq_some_iff.mp done
  obtain ⟨result, exchanged, rfl⟩ := Option.map_eq_some_iff.mp stepped
  let entry : LogEntry := { node := sink.nodeName, message := line }
  refine ⟨{ sink.session with broker := result.2 },
    if sink.session.broker.connected && ending.exchange.executed then [entry.arguments] else [], ?_,
    fun connected accepted => ?_, ?_⟩
  · split
    · exact List.Sublist.refl _
    · exact List.nil_sublist _
  · rcases BrokerRedis.exchangeOrReconnect_cases exchanged with ⟨disconnected, -⟩ | ⟨-, -, rfl⟩ |
      ⟨executed, -, -, lost, -⟩
    · cases connected.symm.trans disconnected
    · exact ⟨rfl, if_pos (by rw [connected, accepted]; rfl)⟩
    · cases accepted.symm.trans lost
  · split
    · rfl
    · rw [List.append_nil]

/-- A text makes an entry of each of its lines, and the server executes some of the commands; all
of them, if it answers them. -/
theorem redisLogStream_spec (text : Bytes) :
    ∀ {sink after : LogSink} {ends : Nat → CommandEnd},
      sink.redisLogStream vector ends text = some after →
        after.nodeName = sink.nodeName ∧ after.buffer = (linesOf sink.buffer text).2 ∧
          after.attempts = sink.attempts ++ sink.entries text ∧
          ∃ executed, executed.Sublist ((sink.entries text).map LogEntry.arguments) ∧
            after.commands = sink.commands ++ executed ∧
            (sink.answered ends text = true →
              executed = (sink.entries text).map LogEntry.arguments) := by
  induction text with
  | nil =>
    intro sink after ends done
    obtain rfl := Option.some.inj done
    exact ⟨rfl, rfl, (List.append_nil _).symm, [], List.Sublist.refl _, (List.append_nil _).symm,
      fun _ => rfl⟩
  | cons b rest inductionHypothesis =>
    intro sink after ends done
    rw [redisLogStream] at done
    split at done
    · rename_i isNewline
      obtain ⟨sent, made, done⟩ := Option.bind_eq_some_iff.mp done
      obtain ⟨session, first, atMostOnce, whole, rfl⟩ := command_cases documented made
      obtain ⟨name, buffer, attempts, later, fewer, commands, all⟩ := inductionHypothesis done
      rw [isNewline, sink.entries_newline, linesOf_newline]
      refine ⟨name, buffer, ?_, first ++ later, ?_, ?_, fun answered => ?_⟩
      · rw [attempts, List.append_assoc]
        rfl
      · exact atMostOnce.append fewer
      · rw [commands, List.append_assoc]
      · rw [answered_newline] at answered
        obtain ⟨now, afterwards⟩ := (Bool.and_eq_true _ _).mp answered
        obtain ⟨connected, accepted⟩ := (Bool.and_eq_true _ _).mp now
        obtain ⟨rfl, rfl⟩ := whole connected (of_decide_eq_true accepted)
        rw [all afterwards]
        rfl
    · split at done
      · rename_i isReturn
        rw [entries, answered, isReturn, linesOf_carriageReturn]
        exact inductionHypothesis done
      · rename_i notNewline notReturn
        rw [entries, answered, linesOf_plain notNewline notReturn]
        exact inductionHypothesis done

end Documented

end LogSink

end BrokerProxy.Redis
