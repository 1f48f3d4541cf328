/-
This file follows a `TimerSource` that does not repeat through calls of `start`, `reset`,
`stop` and `request` in any order. Such a timer has no flag for being spent: `stop` moves
the expire time to the largest number there is, and an emission moves it 2^32 - 1
milliseconds ahead.

After 49 days a timer that has emitted therefore emits again, with no start in between. It
emits once for each start exactly as long as no spent timer is polled at a time that it is
not moved beyond.
-/

import BrokerProxy.Library.Serving
import BrokerProxy.Limero.TimerSource

namespace BrokerProxy.Limero

open Serving

namespace TimerSource

/-- `stop`. -/
def stop (timer : TimerSource) : TimerSource := timer.expireAt (2 ^ 64 - 1)

/-- `start` with an interval, a 32-bit number. -/
def startInterval (timer : TimerSource) (interval now : Nat) : TimerSource :=
  start
    { timer with
      interval := interval % 2 ^ 32
      interval_lt := interval_mod_lt interval } now

end TimerSource

/-- What happens to a timer: a start, a stop, or an emission, with the second reading of the
clock. -/
inductive TimerEvent
  | started
  | stopped
  | emitted (second : Nat)
deriving DecidableEq

/-- A timer that does not repeat, and what has happened to it, latest first. -/
structure OneShot where
  timer : TimerSource
  single : timer.repeats = false
  history : List TimerEvent

/-- A call on a timer, with the readings of the clock that it takes. -/
inductive TimerCall
  | start (now : Nat)
  | startInterval (interval now : Nat)
  | reset (now : Nat)
  | stop
  | request (first second : Nat)

namespace OneShot

/-- A timer to which nothing has happened yet. -/
def fresh (timer : TimerSource) (single : timer.repeats = false) : OneShot where
  timer := timer
  single := single
  history := []

/-- A call: whether the timer emits, and the timer afterwards. -/
def serve (oneShot : OneShot) : TimerCall → Bool × OneShot
  | .start now | .reset now =>
      (false,
        { timer := oneShot.timer.start now
          single := oneShot.single
          history := .started :: oneShot.history })
  | .startInterval interval now =>
      (false,
        { timer := oneShot.timer.startInterval interval now
          single := oneShot.single
          history := .started :: oneShot.history })
  | .stop =>
      (false,
        { timer := oneShot.timer.stop
          single := oneShot.single
          history := .stopped :: oneShot.history })
  | .request first second =>
      ((oneShot.timer.request first second).1,
        { timer := (oneShot.timer.request first second).2
          single := (oneShot.timer.request_interval first second).2.trans oneShot.single
          history :=
            if (oneShot.timer.request first second).1 then .emitted second :: oneShot.history
            else oneShot.history })

/-! ### What is to hold -/

/-- An emission now would be the first after a start. Before any start or stop nothing is asked. -/
def mayEmit : List TimerEvent → Bool
  | [] => true
  | .started :: _ => true
  | .stopped :: _ => false
  | .emitted _ :: earlier => .started ∉ earlier ∧ .stopped ∉ earlier

/-- The timer has emitted at most once after each start, and not after a stop without a start. -/
def FiresOnce : List TimerEvent → Prop
  | [] => True
  | .emitted _ :: earlier => mayEmit earlier = true ∧ FiresOnce earlier
  | .started :: earlier | .stopped :: earlier => FiresOnce earlier

/-- The time beyond which a spent timer is polled again: the largest number after a stop, and
2^32 - 1 milliseconds, modulo 2^64, after an emission. -/
def silentUntil : List TimerEvent → Option Nat
  | .stopped :: _ => some (2 ^ 64 - 1)
  | .emitted second :: _ => some ((second + (2 ^ 32 - 1)) % 2 ^ 64)
  | .started :: _ | [] => none

/-- A spent timer is polled only while it is silent. -/
def PolledInTime (oneShot : OneShot) : TimerCall → Prop
  | .request first _ =>
      mayEmit oneShot.history = true ∨
        ∀ time, silentUntil oneShot.history = some time → first < time
  | .start _ | .startInterval _ _ | .reset _ | .stop => True

/-! ### The calls -/

/-- The timer has fired once so far, and a spent timer expires when its silence ends. -/
structure Tracked (oneShot : OneShot) : Prop where
  once : FiresOnce oneShot.history
  silent : ∀ time, silentUntil oneShot.history = some time → oneShot.timer.expireTime = time

theorem silentUntil_of_spent {history : List TimerEvent} (spent : mayEmit history = false) :
    ∃ time, silentUntil history = some time := by
  cases history with
  | nil => cases spent
  | cons event earlier =>
    cases event with
    | started => cases spent
    | stopped | emitted second => exact ⟨_, rfl⟩

/-- A one-shot timer that emits expires 2^32 - 1 milliseconds after the second reading. -/
theorem request_emits (oneShot : OneShot) (first second : Nat)
    (due : oneShot.timer.expireTime ≤ first) :
    (oneShot.serve (.request first second)).2.history = .emitted second :: oneShot.history ∧
      (oneShot.serve (.request first second)).2.timer.expireTime =
        (second + (2 ^ 32 - 1)) % 2 ^ 64 := by
  have emits := oneShot.timer.request_due first second due
  refine ⟨if_pos emits, ?_⟩
  show (oneShot.timer.request first second).2.expireTime = _
  rw [TimerSource.request, if_pos due, oneShot.single]
  rfl

theorem request_silent (oneShot : OneShot) {first second : Nat}
    (early : first < oneShot.timer.expireTime) :
    (oneShot.serve (.request first second)).2 = oneShot := by
  have silent := oneShot.timer.request_early first second early
  show OneShot.mk (oneShot.timer.request first second).2 _ _ = oneShot
  simp only [silent, Bool.false_eq_true, if_false]

theorem Tracked.serve {oneShot : OneShot} (tracked : oneShot.Tracked) (call : TimerCall)
    (inTime : oneShot.PolledInTime call) : (oneShot.serve call).2.Tracked := by
  cases call with
  | start now | startInterval interval now | reset now =>
    exact { once := tracked.once, silent := nofun }
  | stop =>
    refine { once := tracked.once, silent := fun time silent => ?_ }
    exact Option.some.inj silent
  | request first second =>
    rcases Nat.lt_or_ge first oneShot.timer.expireTime with early | due
    · rw [oneShot.request_silent early]
      exact tracked
    · obtain ⟨history, expires⟩ := oneShot.request_emits first second due
      have allowed : mayEmit oneShot.history = true := by
        rcases inTime with allowed | silent
        · exact allowed
        · by_contra spent
          obtain ⟨time, isSilent⟩ := silentUntil_of_spent (Bool.eq_false_iff.mpr spent)
          have later := silent time isSilent
          rw [tracked.silent time isSilent] at due
          exact Nat.not_lt.mpr due later
      constructor
      · rw [history]
        exact ⟨allowed, tracked.once⟩
      · intro time silent
        rw [history] at silent
        rw [expires]
        exact Option.some.inj silent

/-- A spent timer that is polled too late emits. -/
theorem polledInTime_of_firesOnce {oneShot : OneShot} (tracked : oneShot.Tracked)
    (call : TimerCall) (once : FiresOnce (oneShot.serve call).2.history) :
    oneShot.PolledInTime call := by
  cases call with
  | start now | startInterval interval now | reset now | stop => trivial
  | request first second =>
    rcases Nat.lt_or_ge first oneShot.timer.expireTime with early | due
    · refine Or.inr fun time silent => ?_
      rw [← tracked.silent time silent]
      exact early
    · rw [(oneShot.request_emits first second due).1] at once
      exact Or.inl once.1

/-! ### Runs -/

/-- A timer that does not repeat emits at most once after each start, and not after a stop without
a start, exactly as long as it is not polled too late while it is spent. -/
theorem fires_once_iff (timer : TimerSource) (single : timer.repeats = false)
    (calls : List TimerCall) :
    (∀ made, made <+: calls → FiresOnce (after serve (fresh timer single) made).history) ↔
      Along serve PolledInTime (fresh timer single) calls :=
  prefixes_iff_along Tracked (fun _ tracked => tracked.once)
    (fun _ call tracked inTime => tracked.serve call inTime)
    (fun _ call tracked once => polledInTime_of_firesOnce tracked call once)
    calls (fresh timer single) { once := trivial, silent := nofun }

/-- A timer of ten milliseconds that does not repeat. -/
def tenMillisOnce : TimerSource := { TimerSource.tenMillis with repeats := false }

/-- Started, polled early, on time and twice after its emission, stopped, and polled again. -/
theorem fires_once_iff_tenMillis :
    (∀ made, made <+: [.start 100, .request 105 105, .request 110 111, .request 120 120,
        .request 5000 5000, .stop, .request 6000 6000] →
      FiresOnce (after serve (fresh tenMillisOnce rfl) made).history) ↔
      Along serve PolledInTime (fresh tenMillisOnce rfl) [.start 100, .request 105 105,
        .request 110 111, .request 120 120, .request 5000 5000, .stop, .request 6000 6000] :=
  fires_once_iff tenMillisOnce rfl _

/-- Polled 2^32 - 1 milliseconds after its emission, a timer emits a second time. -/
theorem not_fires_once :
    ¬ FiresOnce (after serve (fresh tenMillisOnce rfl) [.start 100, .request 110 110,
      .request (110 + (2 ^ 32 - 1)) (110 + (2 ^ 32 - 1))]).history := by
  have twice : (after serve (fresh tenMillisOnce rfl) [.start 100, .request 110 110,
      .request (110 + (2 ^ 32 - 1)) (110 + (2 ^ 32 - 1))]).history =
        [.emitted (110 + (2 ^ 32 - 1)), .emitted 110, .started] := by decide +kernel
  rw [twice]
  rintro ⟨allowed, _⟩
  exact absurd allowed (by decide)

end OneShot

end BrokerProxy.Limero
