/-
This file models how `Serial::txd` writes a buffer to the tty. `write` appends to a queue of
the kernel, which the line empties at its own pace; the paths for a partial write and for
`EAGAIN` wait with `tcdrain` until the queue is empty.

After the last write there is no `tcdrain`: `fsync` does not wait, and
`tcflush(TCOFLUSH)` throws away what the line has not sent by then. A buffer is transmitted
whole if the line has emptied the queue in the meantime, and loses its end otherwise.
-/

import BrokerProxy.Messages
import BrokerProxy.Session.SessionSerial

namespace BrokerProxy.Session

/-! ### The line -/

/-- The output side of a tty: the bytes the kernel has accepted, and those the line has sent. -/
structure Line where
  queued : Bytes
  sent : Bytes

namespace Line

/-- What the line sends in all if nothing is discarded. -/
def output (line : Line) : Bytes := line.sent ++ line.queued

/-- The line sends up to a number of bytes. -/
def pace (line : Line) (count : Nat) : Line where
  queued := line.queued.drop count
  sent := line.sent ++ line.queued.take count

/-- `write` appends what it accepts. -/
def write (line : Line) (accepted : Bytes) : Line :=
  { line with queued := line.queued ++ accepted }

/-- `tcdrain` waits until the queue is empty. -/
def tcdrain (line : Line) : Line where
  queued := []
  sent := line.output

/-- `tcflush(TCOFLUSH)` discards the queue. -/
def tcflush (line : Line) : Line :=
  { line with queued := [] }

theorem output_pace (line : Line) (count : Nat) : (line.pace count).output = line.output := by
  unfold output pace
  rw [List.append_assoc, List.take_append_drop]

theorem output_write (line : Line) (accepted : Bytes) :
    (line.write accepted).output = line.output ++ accepted :=
  (List.append_assoc _ _ _).symm

theorem output_tcdrain (line : Line) : line.tcdrain.output = line.output :=
  List.append_nil _

/-- Discarding after some time keeps what was sent until then. -/
theorem output_tcflush_pace (line : Line) (count : Nat) :
    (line.pace count).tcflush.output = line.sent ++ line.queued.take count :=
  List.append_nil _

end Line

/-! ### The loop -/

/-- What the kernel does with one `write`: it accepts as many bytes as it has room for, or fails. -/
inductive WriteResult
  | accepts (room : Nat)
  | fails (errno : Errno)

/-- One round of the loop: the bytes the line sends until the call, and its result. -/
structure WriteAttempt where
  pace : Nat
  result : WriteResult

/-- The most that one `write` transfers, which is why its result fits an `int`. -/
def maxCount : Nat := 0x7ffff000

/-- The result of a `write` of a number of bytes. -/
def acceptedCount (room length : Nat) : Nat := min (min room maxCount) length

/-- The loop of `Serial::txd`: the error it returns with, if any, and the line; nothing if the
attempts do not finish it. -/
def writeLoop (line : Line) (buffer : Bytes) : List WriteAttempt → Option (Option Errno × Line)
  | [] => if buffer = [] then some (none, line) else none
  | attempt :: rest =>
      if buffer = [] then some (none, line)
      else
        let paced := line.pace attempt.pace
        match attempt.result with
        | .accepts room =>
            let rc := acceptedCount room buffer.length
            let written := paced.write (buffer.take rc)
            if rc = buffer.length then some (none, written)
            else writeLoop written.tcdrain (buffer.drop rc) rest
        | .fails errno =>
            if errno = Errno.again then writeLoop paced.tcdrain buffer rest
            else some (some errno, paced)

/-- `Serial::txd`: its return code and the line. The last argument is what the line sends between
the last `write` and `tcflush`, which includes the time `fsync` takes. -/
def Serial.txd (serial : Serial) (line : Line) (buffer : Bytes) (attempts : List WriteAttempt)
    (flushPace : Nat) : Option (Nat × Line) :=
  if serial.connected = false then some (Errno.notConnected.code, line)
  else
    (writeLoop line buffer attempts).map fun outcome =>
      match outcome with
      | (some errno, after) => (errno.code, after)
      | (none, after) => (0, (after.pace flushPace).tcflush)

/-! ### What is transmitted -/

/-- What the line sends of the bytes it was given after those it had at some moment. -/
def Line.transmittedSince (after line : Line) : Bytes := after.output.drop line.output.length

/-- A call that returns 0 has transmitted its buffer, and one that returns an error a beginning
of it. -/
def Transmits (line : Line) (buffer : Bytes) (returned : Option (Nat × Line)) : Prop :=
  ∀ rc after, returned = some (rc, after) →
    (rc = 0 → after.transmittedSince line = buffer) ∧
      (rc ≠ 0 → after.transmittedSince line <+: buffer)

/-- The bytes that wait in the queue when the last `write` has accepted the rest of the buffer,
counted from the number of bytes that wait and that are left; nothing if no `write` does. -/
def backlog (waiting left : Nat) : List WriteAttempt → Option Nat
  | [] => if left = 0 then some waiting else none
  | attempt :: rest =>
      if left = 0 then some waiting
      else
        match attempt.result with
        | .accepts room =>
            if acceptedCount room left = left then some (waiting - attempt.pace + left)
            else backlog 0 (left - acceptedCount room left) rest
        | .fails errno => if errno = Errno.again then backlog 0 left rest else none

theorem transmittedSince_of_output {after line : Line} {written : Bytes}
    (output : after.output = line.output ++ written) : after.transmittedSince line = written := by
  unfold Line.transmittedSince
  rw [output, List.drop_left]

/-- A line has been given a beginning of a buffer, and all of it where nothing has failed. -/
def Gives (line : Line) (buffer : Bytes) (failure : Option Errno) (after : Line) : Prop :=
  ∃ written, written <+: buffer ∧ after.output = line.output ++ written ∧
    (failure = none → written = buffer)

/-- Nothing is left to give. -/
theorem gives_nil (line : Line) : Gives line [] none line :=
  ⟨[], List.nil_prefix, (List.append_nil _).symm, fun _ => rfl⟩

/-- After a partial write the rest is given. -/
theorem Gives.partial_write {line after : Line} {buffer : Bytes} {failure : Option Errno}
    {pace rc : Nat}
    (rest : Gives ((line.pace pace).write (buffer.take rc)).tcdrain (buffer.drop rc) failure
      after) :
    Gives line buffer failure after := by
  obtain ⟨written, first, output, complete⟩ := rest
  refine ⟨buffer.take rc ++ written, ?_, ?_, fun none => ?_⟩
  · have together := (List.prefix_append_right_inj (buffer.take rc)).mpr first
    rwa [List.take_append_drop] at together
  · rw [output, Line.output_tcdrain, Line.output_write, Line.output_pace, List.append_assoc]
  · rw [complete none, List.take_append_drop]

/-- After a wait the same is given. -/
theorem Gives.retried {line after : Line} {buffer : Bytes} {failure : Option Errno} {pace : Nat}
    (rest : Gives (line.pace pace).tcdrain buffer failure after) :
    Gives line buffer failure after := by
  obtain ⟨written, first, output, complete⟩ := rest
  refine ⟨written, first, ?_, complete⟩
  rw [output, Line.output_tcdrain, Line.output_pace]

/-- The loop gives the line a beginning of the buffer, and all of it if it does not fail. -/
theorem writeLoop_gives (attempts : List WriteAttempt) :
    ∀ (line : Line) (buffer : Bytes) (failure : Option Errno) (after : Line),
      writeLoop line buffer attempts = some (failure, after) → Gives line buffer failure after := by
  induction attempts with
  | nil =>
    intro line buffer failure after returned
    unfold writeLoop at returned
    split at returned
    · rename_i empty
      subst empty
      cases returned
      exact gives_nil line
    · cases returned
  | cons attempt rest inductionHypothesis =>
    intro line buffer failure after returned
    obtain ⟨pace, result⟩ := attempt
    unfold writeLoop at returned
    dsimp only at returned
    split at returned
    · rename_i empty
      subst empty
      cases returned
      exact gives_nil line
    · cases result with
      | accepts room =>
        dsimp only at returned
        split at returned
        · rename_i whole
          cases returned
          refine ⟨buffer, List.prefix_rfl, ?_, fun _ => rfl⟩
          rw [whole, List.take_length, Line.output_write, Line.output_pace]
        · exact (inductionHypothesis _ _ failure after returned).partial_write
      | fails errno =>
        dsimp only at returned
        split at returned
        · exact (inductionHypothesis _ _ failure after returned).retried
        · cases returned
          refine ⟨[], List.nil_prefix, ?_, nofun⟩
          rw [Line.output_pace, List.append_nil]

/-- On a line on which nothing waits the loop does not fail with bytes in the queue. -/
theorem writeLoop_failed (attempts : List WriteAttempt) :
    ∀ {line : Line} {buffer : Bytes} {errno : Errno} {after : Line}, line.queued = [] →
      writeLoop line buffer attempts = some (some errno, after) → after.queued = [] := by
  induction attempts with
  | nil =>
    intro line buffer errno after _ returned
    unfold writeLoop at returned
    split at returned <;> cases returned
  | cons attempt rest inductionHypothesis =>
    intro line buffer errno after idle returned
    unfold writeLoop at returned
    dsimp only at returned
    split at returned
    · cases returned
    · cases result : attempt.result with
      | accepts room =>
        rw [result] at returned
        dsimp only at returned
        split at returned
        · cases returned
        · exact inductionHypothesis rfl returned
      | fails other =>
        rw [result] at returned
        dsimp only at returned
        split at returned
        · exact inductionHypothesis rfl returned
        · cases returned
          exact List.drop_eq_nil_of_le (idle ▸ Nat.zero_le _)

/-- On a line that holds nothing a call leaves nothing waiting, and the line has sent a beginning of
the buffer. -/
theorem txd_idle {serial : Serial} {buffer : Bytes} {attempts : List WriteAttempt}
    {flushPace rc : Nat} {after : Line}
    (returned : serial.txd ⟨[], []⟩ buffer attempts flushPace = some (rc, after)) :
    after.queued = [] ∧ after.sent <+: buffer := by
  unfold Serial.txd at returned
  split at returned
  · cases returned
    exact ⟨rfl, List.nil_prefix⟩
  · obtain ⟨⟨failure, last⟩, ended, same⟩ := Option.map_eq_some_iff.mp returned
    obtain ⟨written, first, output, complete⟩ :=
      writeLoop_gives attempts ⟨[], []⟩ buffer failure last ended
    replace output : last.sent ++ last.queued = written := output
    cases failure with
    | some errno =>
      cases same
      have nothing := writeLoop_failed attempts rfl ended
      rw [nothing, List.append_nil] at output
      exact ⟨nothing, output ▸ first⟩
    | none =>
      cases same
      refine ⟨rfl, ?_⟩
      rw [← complete rfl, ← output]
      exact (List.prefix_append_right_inj last.sent).mpr (List.take_prefix flushPace last.queued)

/-- The count agrees with the queue that the loop leaves. -/
theorem backlog_eq (attempts : List WriteAttempt) :
    ∀ (line : Line) (buffer : Bytes),
      backlog line.queued.length buffer.length attempts =
        (writeLoop line buffer attempts).bind fun outcome =>
          if outcome.1 = none then some outcome.2.queued.length else none := by
  induction attempts with
  | nil =>
    intro line buffer
    unfold backlog writeLoop
    by_cases empty : buffer = []
    · rw [if_pos empty, if_pos (List.length_eq_zero_iff.mpr empty)]
      rfl
    · rw [if_neg empty, if_neg (List.length_eq_zero_iff.not.mpr empty)]
      rfl
  | cons attempt rest inductionHypothesis =>
    intro line buffer
    obtain ⟨pace, result⟩ := attempt
    unfold backlog writeLoop
    by_cases empty : buffer = []
    · rw [if_pos empty, if_pos (List.length_eq_zero_iff.mpr empty)]
      rfl
    · rw [if_neg empty, if_neg (List.length_eq_zero_iff.not.mpr empty)]
      cases result with
      | accepts room =>
        dsimp only
        split
        · rename_i whole
          have queue : ((line.pace pace).write
              (buffer.take (acceptedCount room buffer.length))).queued.length =
              line.queued.length - pace + buffer.length := by
            rw [whole, List.take_length]
            simp only [Line.write, Line.pace, List.length_append, List.length_drop]
          exact congrArg some queue.symm
        · have drained := inductionHypothesis
            ((line.pace pace).write (buffer.take (acceptedCount room buffer.length))).tcdrain
            (buffer.drop (acceptedCount room buffer.length))
          rw [List.length_drop] at drained
          exact drained
      | fails errno =>
        dsimp only
        split
        · exact inductionHypothesis (line.pace pace).tcdrain buffer
        · rfl

/-- What is left of a buffer after the line was flushed: all of it if the line had sent the
queue. -/
theorem transmittedSince_flush_iff {after line : Line} {buffer : Bytes}
    (output : after.output = line.output ++ buffer) (flushPace : Nat) :
    (after.pace flushPace).tcflush.transmittedSince line = buffer ↔
      buffer = [] ∨ after.queued.length ≤ flushPace := by
  unfold Line.transmittedSince
  rw [Line.output_tcflush_pace]
  have lengths := congrArg List.length output
  unfold Line.output at lengths
  rw [List.length_append, List.length_append] at lengths
  constructor
  · intro transmitted
    have count := congrArg List.length transmitted
    rw [List.length_drop, List.length_append, List.length_take] at count
    rw [← List.length_eq_zero_iff]
    unfold Line.output at count
    omega
  · rintro (rfl | sent)
    · rw [List.length_nil] at lengths
      refine List.drop_eq_nil_of_le ?_
      rw [List.length_append, List.length_take]
      unfold Line.output
      omega
    · have all : after.sent ++ after.queued.take flushPace = after.output := by
        rw [List.take_of_length_le sent]
        rfl
      rw [all, output, List.drop_left]

/-- A call of `Serial::txd` transmits its buffer exactly if the port is not connected, the buffer
is empty, no `write` completes it, or the line sends what waits after the last `write` before the
queue is flushed. -/
theorem transmits_iff (serial : Serial) (line : Line) (buffer : Bytes)
    (attempts : List WriteAttempt) (flushPace : Nat) :
    Transmits line buffer (serial.txd line buffer attempts flushPace) ↔
      serial.connected = false ∨ buffer = [] ∨
        ∀ waiting ∈ backlog line.queued.length buffer.length attempts, waiting ≤ flushPace := by
  unfold Serial.txd
  by_cases closed : serial.connected = false
  · rw [if_pos closed]
    refine iff_of_true (fun rc after returned => ?_) (Or.inl closed)
    cases returned
    refine ⟨nofun, fun _ => ?_⟩
    rw [transmittedSince_of_output (List.append_nil _).symm]
    exact List.nil_prefix
  · rw [if_neg closed, or_iff_right closed, backlog_eq]
    cases ended : writeLoop line buffer attempts with
    | none => exact iff_of_true nofun (Or.inr nofun)
    | some outcome =>
      obtain ⟨failure, after⟩ := outcome
      obtain ⟨written, first, output, complete⟩ :=
        writeLoop_gives attempts line buffer failure after ended
      cases failure with
      | some errno =>
        refine iff_of_true (fun rc last returned => ?_) (Or.inr nofun)
        cases returned
        refine ⟨fun zero => absurd zero errno.code_pos.ne', fun _ => ?_⟩
        rw [transmittedSince_of_output output]
        exact first
      | none =>
        obtain rfl := complete rfl
        have flushed : Transmits line written
            (some (0, (after.pace flushPace).tcflush)) ↔
              (after.pace flushPace).tcflush.transmittedSince line = written := by
          constructor
          · intro transmits
            exact (transmits _ _ rfl).1 rfl
          · intro transmitted rc last returned
            cases returned
            exact ⟨fun _ => transmitted, fun nonzero => absurd rfl nonzero⟩
        refine flushed.trans ((transmittedSince_flush_iff output flushPace).trans ?_)
        refine or_congr_right ⟨fun sent waiting isLast => ?_, fun sent => sent _ rfl⟩
        cases isLast
        exact sent

/-- The kernel accepts three bytes at once, of which the line sends two before the flush. -/
theorem not_transmits :
    ¬ Transmits ⟨[], []⟩ [1, 2, 3]
      (Serial.txd ⟨4, true⟩ ⟨[], []⟩ [1, 2, 3] [⟨0, .accepts 4096⟩] 2) := by
  intro transmits
  have returned : Serial.txd ⟨4, true⟩ ⟨[], []⟩ [1, 2, 3] [⟨0, .accepts 4096⟩] 2 =
      some (0, ⟨[], [1, 2]⟩) := by rfl
  exact absurd ((transmits 0 _ returned).1 rfl) (by decide)

end BrokerProxy.Session
