/-
This file models how the bytes of the port reach the decoder. `Serial::rxd` reads until
nothing is left and collects what it reads; `SessionSerial::invoke` passes the collection on
if `rxd` returns 0.

A `read` that fails with anything but `EAGAIN` makes `rxd` return the error number with the
bytes collected so far, and `invoke` drops them: the other ends of the loop pass on the same
collection.
-/

import BrokerProxy.Library.Serving
import BrokerProxy.Session.SerialTransmission

namespace BrokerProxy.Session

open Serving

/-! ### Reading -/

/-- The bytes that one `read` returns, at least one and at most the buffer of `rxd`. -/
structure ReadChunk where
  bytes : Bytes
  bytes_ne_nil : bytes ≠ []
  length_le : bytes.length ≤ 1024

/-- A `read` that returns no bytes. -/
inductive ReadEnd
  | endOfFile
  | fails (errno : Errno)

/-- The results of `read` in one call of `rxd`, which stops at the first that has no bytes. -/
structure Reading where
  chunks : List ReadChunk
  last : ReadEnd

/-- The bytes that `read` returns in all. -/
def Reading.bytes (reading : Reading) : Bytes := reading.chunks.flatMap ReadChunk.bytes

/-- The loop of `rxd`: its return code and the bytes it has collected. -/
def readLoop (out : Bytes) (last : ReadEnd) : List ReadChunk → Nat × Bytes
  | [] =>
      match last with
      | .endOfFile => (0, out)
      | .fails errno => if errno = Errno.again then (0, out) else (errno.code, out)
  | chunk :: rest => readLoop (out ++ chunk.bytes) last rest

/-- `Serial::rxd`, which clears its argument first. -/
def Serial.rxd (serial : Serial) (reading : Reading) : Nat × Bytes :=
  if serial.connected = false then (Errno.notConnected.code, [])
  else readLoop [] reading.last reading.chunks

/-- A session with what has been passed to `on` of the queue for the decoder, and all that `read`
has returned. -/
structure Reception where
  serialPort : Serial
  rxdBuffer : Bytes
  incomingSerial : List Bytes
  read : Bytes

/-- The next call: the descriptor is ready to read, or the port is opened or closed. -/
inductive ReceptionCall
  | invoke (reading : Reading)
  | connect (outcome : PortOutcome)
  | disconnect (closeErrno : Option Int)

namespace Reception

def constructed : Reception where
  serialPort := Serial.constructed
  rxdBuffer := []
  incomingSerial := []
  read := []

/-- `invoke`. Nothing is read while the port is not connected. -/
def invoke (session : Reception) (reading : Reading) : Reception :=
  let received := session.serialPort.rxd reading
  { session with
    rxdBuffer := received.2
    incomingSerial :=
      if received.1 = 0 then
        if received.2.length = 0 then session.incomingSerial
        else session.incomingSerial ++ [received.2]
      else session.incomingSerial
    read :=
      if session.serialPort.connected = false then session.read
      else session.read ++ reading.bytes }

def serve (session : Reception) : ReceptionCall → Unit × Reception
  | .invoke reading => ((), session.invoke reading)
  | .connect outcome =>
      ((), { session with serialPort := (session.serialPort.connect outcome).2 })
  | .disconnect closeErrno =>
      ((), { session with serialPort := (session.serialPort.disconnect closeErrno).2 })

/-- Every byte that was read has been passed on, in order and once. -/
def Forwarded (session : Reception) : Prop := session.incomingSerial.flatten = session.read

/-- No call reads bytes and then fails. -/
def EndsWell (session : Reception) : ReceptionCall → Prop
  | .invoke reading =>
      session.serialPort.connected = false ∨ reading.chunks = [] ∨
        ∀ errno, reading.last = .fails errno → errno = Errno.again
  | .connect _ | .disconnect _ => True

end Reception

/-! ### What is passed on -/

/-- The loop collects every byte, and returns 0 unless the last `read` fails with something other
than `EAGAIN`. -/
theorem readLoop_eq (last : ReadEnd) (chunks : List ReadChunk) :
    ∀ out, readLoop out last chunks =
      ((readLoop [] last []).1, out ++ chunks.flatMap ReadChunk.bytes) := by
  induction chunks with
  | nil =>
    intro out
    rw [List.flatMap_nil, List.append_nil]
    cases last with
    | endOfFile => rfl
    | fails errno =>
      unfold readLoop
      dsimp only
      split
      · rfl
      · rfl
  | cons chunk rest inductionHypothesis =>
    intro out
    rw [readLoop, inductionHypothesis, List.flatMap_cons, List.append_assoc]

theorem readLoop_code_iff (last : ReadEnd) :
    (readLoop [] last []).1 = 0 ↔ ∀ errno, last = .fails errno → errno = Errno.again := by
  cases last with
  | endOfFile => exact iff_of_true rfl nofun
  | fails errno =>
    unfold readLoop
    dsimp only
    split
    · rename_i again
      refine iff_of_true rfl fun other same => ?_
      cases same
      exact again
    · rename_i other
      exact iff_of_false errno.code_pos.ne' fun all => other (all errno rfl)

/-- Bytes were read exactly if there was a chunk. -/
theorem Reading.bytes_eq_nil_iff (reading : Reading) :
    reading.bytes = [] ↔ reading.chunks = [] := by
  unfold Reading.bytes
  rw [List.flatMap_eq_nil_iff]
  constructor
  · intro none
    refine List.eq_nil_iff_forall_not_mem.mpr fun chunk member => ?_
    exact chunk.bytes_ne_nil (none chunk member)
  · intro none chunk member
    rw [none] at member
    cases member

namespace Reception

/-- What `invoke` passes on in all: the bytes read, if `rxd` returns 0. -/
theorem flatten_invoke (session : Reception) (reading : Reading)
    (connected : session.serialPort.connected ≠ false) :
    (session.invoke reading).incomingSerial.flatten =
        (if (readLoop [] reading.last []).1 = 0 then
          session.incomingSerial.flatten ++ reading.bytes
        else session.incomingSerial.flatten) ∧
      (session.invoke reading).read = session.read ++ reading.bytes := by
  have received : session.serialPort.rxd reading =
      ((readLoop [] reading.last []).1, reading.bytes) :=
    (if_neg connected).trans (readLoop_eq reading.last reading.chunks [])
  refine ⟨?_, if_neg connected⟩
  unfold invoke
  dsimp only
  rw [received]
  dsimp only
  split
  · by_cases none : reading.bytes.length = 0
    · rw [if_pos none, List.length_eq_zero_iff.mp none, List.append_nil]
    · rw [if_neg none, List.flatten_append, List.flatten_singleton]
  · rfl

/-- One call keeps up exactly if it ends well. -/
theorem forwarded_serve_iff {session : Reception} (forwarded : session.Forwarded)
    (call : ReceptionCall) : (session.serve call).2.Forwarded ↔ session.EndsWell call := by
  cases call with
  | connect outcome | disconnect closeErrno => exact iff_of_true forwarded trivial
  | invoke reading =>
    by_cases closed : session.serialPort.connected = false
    · refine iff_of_true ?_ (Or.inl closed)
      have received : session.serialPort.rxd reading = (Errno.notConnected.code, []) :=
        if_pos closed
      show (session.invoke reading).incomingSerial.flatten = (session.invoke reading).read
      unfold invoke
      rw [received, if_pos closed]
      exact forwarded
    · obtain ⟨passed, read⟩ := session.flatten_invoke reading closed
      show (session.invoke reading).incomingSerial.flatten = (session.invoke reading).read ↔ _
      rw [passed, read, EndsWell, or_iff_right closed, ← readLoop_code_iff,
        ← reading.bytes_eq_nil_iff, forwarded]
      by_cases good : (readLoop [] reading.last []).1 = 0
      · rw [if_pos good]
        exact iff_of_true rfl (Or.inr good)
      · rw [if_neg good, or_iff_left good, eq_comm]
        exact List.append_right_eq_self

/-- After every call of a sequence all the bytes read so far have been passed on, exactly if no
call of the sequence reads bytes and then fails. -/
theorem forwarded_iff (calls : List ReceptionCall) :
    (∀ made, made <+: calls → (after serve constructed made).Forwarded) ↔
      Along serve EndsWell constructed calls :=
  prefixes_iff_along Forwarded (fun _ forwarded => forwarded)
    (fun _ call forwarded good => (forwarded_serve_iff forwarded call).mpr good)
    (fun _ call forwarded kept => (forwarded_serve_iff forwarded call).mp kept) calls constructed
    rfl

/-- The port is unplugged after two bytes have been read. -/
theorem not_forwarded :
    ¬ (after serve constructed
      [.connect (.opens 4),
        .invoke ⟨[⟨[0x7E, 0x01], by decide, by decide⟩], .fails ⟨5, by decide⟩⟩]).Forwarded := by
  intro forwarded
  have lost : (after serve constructed
      [.connect (.opens 4),
        .invoke ⟨[⟨[0x7E, 0x01], by decide, by decide⟩], .fails ⟨5, by decide⟩⟩]).incomingSerial =
      [] := by rfl
  have wanted : ([] : List Bytes).flatten = [0x7E, 0x01] := lost ▸ forwarded
  exact absurd wanted (by decide)

end Reception

end BrokerProxy.Session
