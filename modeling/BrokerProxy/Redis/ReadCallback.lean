/-
This file models how the replies on the subscribe connection reach the read invoker of
the worker thread. Two buffers lie between the server and the code: the socket, which
`select` watches, and the reader of the hiredis context, which it does not see.
`redisGetReply` takes the oldest complete reply of the reader; only when there is none it
reads the socket, any number of bytes at a time, until the reader has one.

A byte on the socket is given by the reply that it completes, if it completes one. The
complete replies read off the socket and the messages passed to `_incoming` are recorded.
A connection whose read fails is replaced by a new one.
-/

import BrokerProxy.Redis.ReplyStream

namespace BrokerProxy.Redis

open Runs

/-- Who waits for a reply: the read invoker, or `redisCommand` inside `subscribe` or
`unSubscribe`. -/
inductive Consumer
  | readInvoker
  | redisCommand
deriving DecidableEq

/-- The bytes on the socket, the complete replies in the reader, the error flag of the context,
who waits inside hiredis (nobody: the thread is in `select` or elsewhere), and what was received
and passed on. -/
structure SubscribeSocket where
  socket : List (Option ServerReply)
  reader : List ServerReply
  err : Bool
  waiting : Option Consumer
  received : List ServerReply
  incoming : List PubMsg
deriving DecidableEq

/-- What happens next: bytes arrive on the socket, `select` reports it and the read invoker
runs, `subscribe` or `unSubscribe` sends its command, one read of the socket returns a number of
bytes, or a read fails. -/
inductive SocketLabel
  | arrive (bytes : List (Option ServerReply))
  | readable
  | command
  | read (count : Nat)
  | failed

namespace SubscribeSocket

/-- A consumer gets a reply: the read invoker passes its message on. -/
def handle (state : SubscribeSocket) (reply : ServerReply) : Consumer → SubscribeSocket
  | .readInvoker =>
      { state with
        waiting := none
        incoming := state.incoming ++ (Redis.readInvoker reply.reply).toList }
  | .redisCommand => { state with waiting := none }

/-- `redisGetReply` up to its next read of the socket: the oldest reply of the reader, if there
is one. -/
def getReply (state : SubscribeSocket) (consumer : Consumer) : SubscribeSocket :=
  match state.reader with
  | reply :: rest => { state with reader := rest }.handle reply consumer
  | [] => { state with waiting := some consumer }

/-- The replies that the next bytes of the socket complete. -/
def completed (state : SubscribeSocket) (count : Nat) : List ServerReply :=
  (state.socket.take count).filterMap id

/-- `redisBufferRead`: bytes go from the socket to the reader. -/
def bufferRead (state : SubscribeSocket) (count : Nat) : SubscribeSocket :=
  { state with
    socket := state.socket.drop count
    reader := state.reader ++ state.completed count
    received := state.received ++ state.completed count }

end SubscribeSocket

/-- One step on the connection. When the read invoker's read fails, it disconnects and connects
again. -/
def socketStep (state : SubscribeSocket) : SocketLabel → Option SubscribeSocket
  | .arrive bytes => some { state with socket := state.socket ++ bytes }
  | .readable =>
      if state.waiting = none ∧ state.socket ≠ [] then some (state.getReply .readInvoker)
      else none
  | .command => if state.waiting = none then some (state.getReply .redisCommand) else none
  | .read count =>
      match state.waiting with
      | some consumer =>
          if state.err = false ∧ 0 < count ∧ count ≤ state.socket.length then
            some ((state.bufferRead count).getReply consumer)
          else none
      | none => none
  | .failed =>
      match state.waiting with
      | some .readInvoker =>
          some { state with socket := [], reader := [], err := false, waiting := none }
      | some .redisCommand => some { state with err := true, waiting := none }
      | none => none

/-- The message that the read invoker passes on for a reply: the topic ends at its first NUL
byte. -/
def ServerReply.forwarded (reply : ServerReply) : Option PubMsg :=
  reply.message.map fun message => { message with topic := cString message.topic }

/-- The reply publishes no message. -/
def ServerReply.quiet (reply : ServerReply) : Bool := reply.message.isNone

/-- The reply that a waiting consumer takes first may be taken by it: a command takes no
message. -/
def suits (replies : List ServerReply) : Consumer → Bool
  | .readInvoker => true
  | .redisCommand => replies.head?.all ServerReply.quiet

/-- A read that leaves no byte on the socket completes no message after the first reply, and a
command does not take a message for its reply. -/
def singleMessage (state : SubscribeSocket) : SocketLabel → Bool
  | .read count =>
      (count < state.socket.length || (state.completed count).tail.all ServerReply.quiet) &&
        state.waiting.all (suits (state.completed count))
  | .command => suits state.reader .redisCommand
  | _ => true

/-! ### The invariant -/

/-- What was received is passed on or in the reader, the reader is empty while a consumer waits,
and it holds no message when the socket is empty. -/
structure SubscribeSocket.Drained (state : SubscribeSocket) : Prop where
  forwarded : state.received.filterMap ServerReply.forwarded =
    state.incoming ++ state.reader.filterMap ServerReply.forwarded
  waiting : state.waiting ≠ none → state.reader = []
  empty : state.socket = [] → ∀ reply ∈ state.reader, reply.quiet = true

theorem ServerReply.forwarded_of_quiet {reply : ServerReply} (quiet : reply.quiet = true) :
    reply.forwarded = none := by
  rw [forwarded, Option.isNone_iff_eq_none.mp quiet]
  rfl

theorem readInvoker_forwarded (reply : ServerReply) :
    readInvoker reply.reply = reply.forwarded := readInvoker_reply reply

namespace SubscribeSocket

theorem getReply_of_nil {state : SubscribeSocket} (consumer : Consumer)
    (reader : state.reader = []) :
    state.getReply consumer = { state with waiting := some consumer } := by
  rw [getReply, reader]

theorem getReply_of_cons {state : SubscribeSocket} {reply : ServerReply}
    {rest : List ServerReply} (consumer : Consumer) (reader : state.reader = reply :: rest) :
    state.getReply consumer = { state with reader := rest }.handle reply consumer := by
  rw [getReply, reader]

/-- Taking a reply keeps the account: the read invoker passes its message on, and a command takes
only a reply without one. -/
theorem Drained.getReply {state : SubscribeSocket} {consumer : Consumer}
    (forwarded : state.received.filterMap ServerReply.forwarded =
      state.incoming ++ state.reader.filterMap ServerReply.forwarded)
    (suitable : suits state.reader consumer = true)
    (empty : state.socket = [] → ∀ reply ∈ state.reader.tail, reply.quiet = true) :
    (state.getReply consumer).Drained := by
  cases reader : state.reader with
  | nil =>
    rw [getReply_of_nil consumer reader]
    exact ⟨forwarded, fun _ => reader, fun _ reply member =>
      absurd (reader ▸ member) List.not_mem_nil⟩
  | cons reply rest =>
    rw [getReply_of_cons consumer reader]
    rw [reader, List.filterMap_cons] at forwarded
    rw [reader] at empty suitable
    cases consumer with
    | readInvoker =>
      refine ⟨?_, fun wrong => absurd rfl wrong, empty⟩
      show state.received.filterMap _ = state.incoming ++ (readInvoker reply.reply).toList ++
        rest.filterMap _
      rw [forwarded, readInvoker_forwarded]
      cases reply.forwarded with
      | none => exact congrArg (· ++ _) (List.append_nil _).symm
      | some message => exact (List.append_assoc _ [message] _).symm
    | redisCommand =>
      have quiet : reply.quiet = true := suitable
      rw [ServerReply.forwarded_of_quiet quiet] at forwarded
      exact ⟨forwarded, fun wrong => absurd rfl wrong, empty⟩

/-- Every step that meets the condition keeps the account. -/
theorem Drained.step {state next : SubscribeSocket} (drained : state.Drained)
    {label : SocketLabel} (met : singleMessage state label = true)
    (taken : socketStep state label = some next) : next.Drained := by
  cases label with
  | arrive bytes =>
    rw [← Option.some.inj taken]
    exact ⟨drained.forwarded, drained.waiting, fun empty =>
      drained.empty (List.append_eq_nil_iff.mp empty).1⟩
  | readable =>
    simp only [socketStep] at taken
    split at taken
    · rename_i reported
      rw [← Option.some.inj taken]
      exact Drained.getReply drained.forwarded rfl fun empty => absurd empty reported.2
    · cases taken
  | command =>
    simp only [socketStep] at taken
    split at taken
    · rw [← Option.some.inj taken]
      exact Drained.getReply drained.forwarded met fun empty reply member =>
        drained.empty empty reply (List.mem_of_mem_tail member)
    · cases taken
  | read count =>
    simp only [socketStep] at taken
    split at taken
    · rename_i consumer waiting
      split at taken
      · rename_i possible
        have reader : state.reader = [] := drained.waiting (by rw [waiting]; nofun)
        have filled : (state.bufferRead count).reader = state.completed count := by
          rw [bufferRead, reader, List.nil_append]
        simp only [singleMessage, waiting, Bool.and_eq_true, Bool.or_eq_true, decide_eq_true_eq,
          Option.all_some] at met
        rw [← Option.some.inj taken]
        refine Drained.getReply ?_ (filled ▸ met.2) fun empty => ?_
        · show (state.received ++ state.completed count).filterMap _ = state.incoming ++ _
          rw [filled, List.filterMap_append, drained.forwarded, reader, List.filterMap_nil,
            List.append_nil]
        · have emptied : state.socket.length ≤ count := List.drop_eq_nil_iff.mp empty
          rw [filled]
          exact List.all_eq_true.mp (met.1.resolve_left (Nat.not_lt.mpr emptied))
      · cases taken
    · cases taken
  | failed =>
    simp only [socketStep] at taken
    split at taken
    · rename_i waiting
      have reader : state.reader = [] := drained.waiting (by rw [waiting]; nofun)
      rw [← Option.some.inj taken]
      refine ⟨?_, fun _ => rfl, fun _ reply member => absurd member List.not_mem_nil⟩
      rw [drained.forwarded, reader]
    · rw [← Option.some.inj taken]
      exact ⟨drained.forwarded, fun wrong => absurd rfl wrong, drained.empty⟩
    · cases taken

end SubscribeSocket

end BrokerProxy.Redis
