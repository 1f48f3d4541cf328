/-
This file models the replies on the subscribe connection of a `BrokerRedis` while the
connection stands. The server puts published messages and acknowledgements on it in any
order. Two consumers take them off, oldest first: the read invoker of the worker thread,
and `redisCommand` inside `subscribe` and `unSubscribe`, which sends its command and
returns the oldest reply that has not been read, whatever it is.

The replies sent, the replies read and the messages passed to `_incoming` are recorded.
-/

import BrokerProxy.Library.Runs
import BrokerProxy.Messages

namespace BrokerProxy.Redis

open Runs

/-! ### Replies -/

/-- A `redisReply`: its type with the fields of that type. -/
inductive RedisReply
  | array (elements : List RedisReply)
  | string (str : Bytes)
  | integer (integer : Int)
  | error (str : Bytes)

/-- The characters of a string literal. -/
def ascii (text : String) : Bytes := text.toList.map fun character => UInt8.ofNat character.toNat

/-- What the server puts on a subscribe connection: a published message with the pattern it
matches, the acknowledgement of PSUBSCRIBE or PUNSUBSCRIBE with the number of patterns left, or
an error. -/
inductive ServerReply
  | pmessage (pattern channel payload : Bytes)
  | psubscribe (pattern : Bytes) (count : Int)
  | punsubscribe (pattern : Bytes) (count : Int)
  | error (text : Bytes)
deriving DecidableEq

/-- The reply as hiredis hands it over. -/
def ServerReply.reply : ServerReply → RedisReply
  | .pmessage pattern channel payload =>
      .array [.string (ascii "pmessage"), .string pattern, .string channel, .string payload]
  | .psubscribe pattern count =>
      .array [.string (ascii "psubscribe"), .string pattern, .integer count]
  | .punsubscribe pattern count =>
      .array [.string (ascii "punsubscribe"), .string pattern, .integer count]
  | .error text => .error text

/-- The message that a reply publishes. -/
def ServerReply.message : ServerReply → Option PubMsg
  | .pmessage _ channel payload => some { topic := channel, payload := payload }
  | _ => none

/-- `onMessage`: the message that is passed to `_incoming`. The topic is made from a C string. -/
def onMessage : RedisReply → Option PubMsg
  | .array (.string kind :: _ :: .string topic :: .string payload :: _) =>
      if cString kind = ascii "pmessage" then
        some { topic := cString topic, payload := payload }
      else none
  | _ => none

/-- The read invoker on a reply: only an array whose first element is `pmessage` goes to
`onMessage`. -/
def readInvoker : RedisReply → Option PubMsg
  | .array (.string kind :: rest) =>
      if cString kind = ascii "pmessage" then onMessage (.array (.string kind :: rest)) else none
  | _ => none

/-- The read invoker passes on the message of a reply, its topic cut at the first NUL byte. -/
theorem readInvoker_reply (reply : ServerReply) :
    readInvoker reply.reply =
      reply.message.map fun message => { message with topic := cString message.topic } := by
  have pmessage : cString (ascii "pmessage") = ascii "pmessage" := by decide +kernel
  have psubscribe : cString (ascii "psubscribe") ≠ ascii "pmessage" := by decide +kernel
  have punsubscribe : cString (ascii "punsubscribe") ≠ ascii "pmessage" := by decide +kernel
  cases reply with
  | pmessage pattern channel payload =>
    rw [ServerReply.reply, readInvoker, if_pos pmessage, onMessage, if_pos pmessage]
    rfl
  | psubscribe pattern count =>
    rw [ServerReply.reply, readInvoker, if_neg psubscribe]
    rfl
  | punsubscribe pattern count =>
    rw [ServerReply.reply, readInvoker, if_neg punsubscribe]
    rfl
  | error text => rfl

/-! ### The connection -/

/-- A call that has sent its command and waits in `redisCommand`. -/
inductive Call
  | subscribe (pattern : Bytes)
  | unSubscribe (pattern : Bytes)
deriving DecidableEq

/-- The keys of `_subscribers`, the call in progress, the replies not yet read, and what was
sent, read and passed on. -/
structure ReplyStream where
  subscribers : List Bytes
  waiting : Option Call
  unread : List ServerReply
  sent : List ServerReply
  read : List ServerReply
  incoming : List PubMsg
deriving DecidableEq

/-- What happens next: the server puts a reply on the connection, the application calls
`subscribe` or `unSubscribe`, `redisCommand` returns to the call in progress, or the read invoker
runs. -/
inductive StreamLabel
  | serve (reply : ServerReply)
  | subscribe (pattern : Bytes)
  | unSubscribe (pattern : Bytes)
  | commandReply
  | readable

/-- `_subscribers` after `redisCommand` has returned a reply. -/
def Call.finish (subscribers : List Bytes) : Call → List Bytes
  | .subscribe pattern => pattern :: subscribers
  | .unSubscribe pattern => subscribers.filter (· ≠ pattern)

/-- One step on the connection. A call for a pattern that is already known, respectively unknown,
returns without a command. -/
def streamStep (stream : ReplyStream) : StreamLabel → Option ReplyStream
  | .serve reply =>
      some { stream with unread := stream.unread ++ [reply], sent := stream.sent ++ [reply] }
  | .subscribe pattern =>
      if stream.waiting.isSome then none
      else if pattern ∈ stream.subscribers then some stream
      else some { stream with waiting := some (.subscribe pattern) }
  | .unSubscribe pattern =>
      if stream.waiting.isSome then none
      else if pattern ∉ stream.subscribers then some stream
      else some { stream with waiting := some (.unSubscribe pattern) }
  | .commandReply =>
      match stream.waiting, stream.unread with
      | some call, reply :: rest =>
          some
            { stream with
              subscribers := call.finish stream.subscribers
              waiting := none
              unread := rest
              read := stream.read ++ [reply] }
      | _, _ => none
  | .readable =>
      match stream.unread with
      | reply :: rest =>
          some
            { stream with
              unread := rest
              read := stream.read ++ [reply]
              incoming := stream.incoming ++ (readInvoker reply.reply).toList }
      | [] => none

/-- The subscribe connection under any order of replies and any interleaving of its consumers. -/
def streamMachine : Machine ReplyStream StreamLabel where
  initial stream :=
    stream =
      { subscribers := [], waiting := none, unread := [], sent := [], read := [], incoming := [] }
  step := streamStep

/-- Where `redisCommand` returns to `subscribe` or `unSubscribe`, the oldest unread reply is not a
published message, and where the read invoker runs, the topic of a published message has no NUL
byte. -/
def undisturbed (stream : ReplyStream) : StreamLabel → Bool
  | .commandReply => (stream.unread.head?.bind ServerReply.message).isNone
  | .readable =>
      (stream.unread.head?.bind ServerReply.message).all fun message => 0 ∉ message.topic
  | _ => true

/-! ### Runs -/

/-- What was sent was read or is still to be read, and what was passed on is what the replies
that were read have published. -/
structure ReplyStream.Forwarded (stream : ReplyStream) : Prop where
  sent : stream.sent = stream.read ++ stream.unread
  incoming : stream.incoming = stream.read.filterMap ServerReply.message

/-- Reading one more reply, with what it publishes passed on. -/
theorem ReplyStream.Forwarded.reads {stream : ReplyStream} (forwarded : stream.Forwarded)
    {reply : ServerReply} {rest : List ServerReply} (oldest : stream.unread = reply :: rest) :
    stream.sent = stream.read ++ [reply] ++ rest ∧
      (stream.read ++ [reply]).filterMap ServerReply.message =
        stream.incoming ++ reply.message.toList := by
  refine ⟨?_, ?_⟩
  · rw [forwarded.sent, oldest, List.append_assoc, List.singleton_append]
  · rw [List.filterMap_append, forwarded.incoming]
    cases published : reply.message with
    | none => rw [List.filterMap_cons_none published]; rfl
    | some message => rw [List.filterMap_cons_some published]; rfl

theorem ReplyStream.Forwarded.step {stream next : ReplyStream} (forwarded : stream.Forwarded)
    {label : StreamLabel} (clear : undisturbed stream label = true)
    (taken : streamStep stream label = some next) : next.Forwarded := by
  cases label with
  | serve reply =>
    rw [← Option.some.inj taken]
    refine ⟨?_, forwarded.incoming⟩
    show stream.sent ++ [reply] = stream.read ++ (stream.unread ++ [reply])
    rw [forwarded.sent, List.append_assoc]
  | subscribe pattern | unSubscribe pattern =>
    simp only [streamStep] at taken
    split at taken
    · cases taken
    · split at taken <;> rw [← Option.some.inj taken] <;>
        exact ⟨forwarded.sent, forwarded.incoming⟩
  | commandReply =>
    simp only [streamStep] at taken
    split at taken
    · rename_i call reply rest waiting oldest
      obtain ⟨sent, incoming⟩ := forwarded.reads oldest
      have quiet : reply.message = none := by
        simp only [undisturbed, oldest, List.head?_cons, Option.bind_some] at clear
        exact Option.isNone_iff_eq_none.mp clear
      rw [quiet] at incoming
      rw [← Option.some.inj taken]
      exact ⟨sent, (incoming.trans (List.append_nil _)).symm⟩
    · cases taken
  | readable =>
    simp only [streamStep] at taken
    split at taken
    · rename_i reply rest oldest
      obtain ⟨sent, incoming⟩ := forwarded.reads oldest
      have whole : readInvoker reply.reply = reply.message := by
        simp only [undisturbed, oldest, List.head?_cons, Option.bind_some] at clear
        rw [readInvoker_reply]
        cases published : reply.message with
        | none => rfl
        | some message =>
          rw [published] at clear
          rw [Option.map_some, cString_of_no_nul (of_decide_eq_true clear)]
      rw [← Option.some.inj taken]
      refine ⟨sent, ?_⟩
      show stream.incoming ++ (readInvoker reply.reply).toList = _
      rw [whole, incoming]
    · cases taken

/-- In every run in which no command takes a published message for its reply, the messages passed
to `_incoming` are the published messages that have been read, each once and in order. -/
theorem replyStream_forwarded {stream : ReplyStream}
    (reachable : (streamMachine.restrict undisturbed).Reachable stream) :
    stream.sent = stream.read ++ stream.unread ∧
      stream.incoming = stream.read.filterMap ServerReply.message := by
  have forwarded : stream.Forwarded := by
    refine Machine.Reachable.invariant ?_ ?_ reachable
    · rintro stream rfl
      exact ⟨rfl, rfl⟩
    · intro stream label next _ forwarded taken
      obtain ⟨clear, stepped⟩ := Machine.restrict_step taken
      exact forwarded.step clear stepped
  exact ⟨forwarded.sent, forwarded.incoming⟩

/-- A subscription, its acknowledgement, and a message that the read invoker passes on. -/
theorem replyStream_forwarded_one :
    ∃ stream, (streamMachine.restrict undisturbed).Reachable stream ∧
      stream.read.length = 2 ∧ stream.incoming = [⟨ascii "a", [1, 2]⟩] := by
  obtain ⟨stream, reachable, passed⟩ := Machine.exists_reachable_of_run
    (streamMachine.restrict undisturbed) rfl
    [.subscribe (ascii "a"), .serve (.psubscribe (ascii "a") 1), .commandReply,
      .serve (.pmessage (ascii "a") (ascii "a") [1, 2]), .readable]
    (fun stream => decide (stream.read =
      [.psubscribe (ascii "a") 1, .pmessage (ascii "a") (ascii "a") [1, 2]])) (by decide +kernel)
  have read := of_decide_eq_true passed
  refine ⟨stream, reachable, by rw [read]; rfl, ?_⟩
  rw [(replyStream_forwarded reachable).2, read]
  rfl

/-- A message that is published before the server sees the next subscription is taken for the
reply to it: it has been read and is not passed on. -/
theorem replyStream_message_lost :
    ∃ stream, streamMachine.Reachable stream ∧ stream.unread = [] ∧
      stream.read.filterMap ServerReply.message = [⟨ascii "a", [1, 2]⟩] ∧
      stream.incoming = [] := by
  obtain ⟨stream, reachable, passed⟩ := Machine.exists_reachable_of_run streamMachine rfl
    [.subscribe (ascii "a"), .serve (.psubscribe (ascii "a") 1), .commandReply,
      .serve (.pmessage (ascii "a") (ascii "a") [1, 2]), .subscribe (ascii "b"), .commandReply,
      .serve (.psubscribe (ascii "b") 2), .readable]
    (fun stream => decide (stream.unread = [] ∧
      stream.read.filterMap ServerReply.message = [⟨ascii "a", [1, 2]⟩] ∧
      stream.incoming = [])) (by decide +kernel)
  exact ⟨stream, reachable, of_decide_eq_true passed⟩

end BrokerProxy.Redis
