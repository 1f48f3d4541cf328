/-
This file models `TimerSource` of `limero.h`, a timer that a thread polls: `request` reads
the clock, emits when the expire time has come, and then sets the next expire time from
a second reading of the clock. A repeating timer keeps its phase when it is on time and
starts a new phase when it is late by more than an interval. Whichever of the two happens
at each emission, a repeating timer never emits more often than intervals have passed and
never schedules the next emission more than one interval ahead.

Clock readings and expire times are 64-bit numbers, intervals 32-bit numbers.
-/

import Mathlib.Algebra.Group.Int.Defs
import Mathlib.Algebra.Group.Nat.Defs

namespace BrokerProxy.Limero

/-- `TimerSource`. -/
structure TimerSource where
  interval : Nat
  repeats : Bool
  expireTime : Nat
  interval_lt : interval < 2 ^ 32
  expireTime_lt : expireTime < 2 ^ 64
deriving DecidableEq

namespace TimerSource

/-- An interval is converted to 32 bits. -/
theorem interval_mod_lt (interval : Nat) : interval % 2 ^ 32 < 2 ^ 32 := Nat.mod_lt _ (by decide)

theorem never_lt : 2 ^ 64 - 1 < 2 ^ 64 := by decide

/-- The constructor, which a repeating timer is started after. -/
def constructed (interval : Nat) (repeats : Bool) : TimerSource where
  interval := interval % 2 ^ 32
  repeats := repeats
  expireTime := 2 ^ 64 - 1
  interval_lt := interval_mod_lt interval
  expireTime_lt := never_lt

/-- Set the expire time. -/
def expireAt (timer : TimerSource) (time : Nat) : TimerSource :=
  { timer with expireTime := time % 2 ^ 64, expireTime_lt := Nat.mod_lt _ (by decide) }

/-- `start` and `reset`, given what `Sys::millis` returns. -/
def start (timer : TimerSource) (now : Nat) : TimerSource := timer.expireAt (now + timer.interval)

/-- `setNewExpireTime`. -/
def setNewExpireTime (timer : TimerSource) (now : Nat) : TimerSource :=
  let kept := timer.expireAt (timer.expireTime + timer.interval)
  if kept.expireTime < now ∧ timer.repeats = true then kept.expireAt (now + kept.interval)
  else kept

/-- `request`: whether it emits, and the timer afterwards. The first reading of the clock decides,
the second sets the next expire time. -/
def request (timer : TimerSource) (first second : Nat) : Bool × TimerSource :=
  if timer.expireTime ≤ first then
    (true,
      if timer.repeats = true then timer.setNewExpireTime second
      else timer.expireAt (second + (2 ^ 32 - 1)))
  else (false, timer)

@[simp] theorem expireAt_interval (timer : TimerSource) (time : Nat) :
    (timer.expireAt time).interval = timer.interval := rfl

@[simp] theorem expireAt_repeats (timer : TimerSource) (time : Nat) :
    (timer.expireAt time).repeats = timer.repeats := rfl

@[simp] theorem expireAt_expireTime (timer : TimerSource) (time : Nat) :
    (timer.expireAt time).expireTime = time % 2 ^ 64 := rfl

theorem setNewExpireTime_interval (timer : TimerSource) (now : Nat) :
    (timer.setNewExpireTime now).interval = timer.interval := by
  unfold setNewExpireTime
  dsimp only
  split <;> rfl

theorem setNewExpireTime_repeats (timer : TimerSource) (now : Nat) :
    (timer.setNewExpireTime now).repeats = timer.repeats := by
  unfold setNewExpireTime
  dsimp only
  split <;> rfl

theorem request_early (timer : TimerSource) (first second : Nat)
    (early : first < timer.expireTime) : timer.request first second = (false, timer) := by
  rw [request, if_neg (Nat.not_le.mpr early)]

theorem request_due (timer : TimerSource) (first second : Nat)
    (due : timer.expireTime ≤ first) : (timer.request first second).1 = true := by
  rw [request, if_pos due]

/-- `request` leaves the interval and the kind of the timer alone. -/
theorem request_interval (timer : TimerSource) (first second : Nat) :
    (timer.request first second).2.interval = timer.interval ∧
      (timer.request first second).2.repeats = timer.repeats := by
  rw [request]
  split
  · dsimp only
    split
    · exact ⟨timer.setNewExpireTime_interval second, timer.setNewExpireTime_repeats second⟩
    · exact ⟨timer.expireAt_interval _, timer.expireAt_repeats _⟩
  · exact ⟨rfl, rfl⟩

/-- The next expire time of a repeating timer, where no sum passes 64 bits: the phase is kept
unless that time has passed already. -/
theorem setNewExpireTime_eq (timer : TimerSource) (repeating : timer.repeats = true) (now : Nat)
    (keptSmall : timer.expireTime + timer.interval < 2 ^ 64)
    (nowSmall : now + timer.interval < 2 ^ 64) :
    (timer.setNewExpireTime now).expireTime =
      if timer.expireTime + timer.interval < now then now + timer.interval
      else timer.expireTime + timer.interval := by
  unfold setNewExpireTime
  simp only [expireAt_expireTime, expireAt_interval, repeating, and_true,
    Nat.mod_eq_of_lt keptSmall]
  split
  · rw [expireAt_expireTime, Nat.mod_eq_of_lt nowSmall]
  · rw [expireAt_expireTime, Nat.mod_eq_of_lt keptSmall]

/-- A request that is due moves the expire time past the second reading and past its old value,
unless the sum passes 2^64; then it is far behind the clock. -/
theorem request_next (timer : TimerSource) (positive : 0 < timer.interval) (first second : Nat)
    (due : timer.expireTime ≤ first) (readings : first ≤ second) :
    (second ≤ (timer.request first second).2.expireTime ∧
        timer.expireTime < (timer.request first second).2.expireTime) ∨
      (timer.request first second).2.expireTime + 2 ^ 31 ≤ second := by
  have interval := timer.interval_lt
  rw [request, if_pos due]
  dsimp only
  split
  · rename_i repeating
    unfold setNewExpireTime
    simp only [expireAt_expireTime, expireAt_interval, repeating, and_true]
    split
    · rw [expireAt_expireTime]
      omega
    · rw [expireAt_expireTime]
      omega
  · rw [expireAt_expireTime]
    omega

/-! ### Runs of requests -/

/-- One emission: the expire time that had come, the two readings of the clock, and the expire
time set for the next emission. -/
structure Emission where
  due : Nat
  first : Nat
  second : Nat
  next : Nat
deriving DecidableEq

/-- The emissions of a sequence of `request` calls, each with its two readings of the clock. -/
def emissions : TimerSource → List (Nat × Nat) → List Emission
  | _, [] => []
  | timer, (first, second) :: rest =>
      let after := (timer.request first second).2
      if (timer.request first second).1 = true then
        ⟨timer.expireTime, first, second, after.expireTime⟩ :: emissions after rest
      else emissions after rest

/-- Readings that never decrease, from a first reading on, and stay below a bound. -/
def Ordered (bound : Nat) : Nat → List (Nat × Nat) → Prop
  | since, [] => since < bound
  | since, (first, second) :: rest => since ≤ first ∧ first ≤ second ∧ Ordered bound second rest

theorem Ordered.lt {bound : Nat} (calls : List (Nat × Nat)) :
    ∀ {since : Nat}, Ordered bound since calls → since < bound := by
  induction calls with
  | nil => exact fun ordered => ordered
  | cons call rest inductionHypothesis =>
    intro since ordered
    obtain ⟨first, second, rest⟩ := ordered
    exact Nat.lt_of_le_of_lt (Nat.le_trans first second) (inductionHypothesis rest)

/-- One emission of a repeating timer, whichever regime it is in. -/
structure Paced (interval : Nat) (emission : Emission) : Prop where
  due_le : emission.due ≤ emission.first
  readings : emission.first ≤ emission.second
  not_past : emission.second ≤ emission.next
  not_far : emission.next ≤ emission.second + interval
  apart : emission.due + interval ≤ emission.next

/-- One request that is due: the next expire time is set between the second reading and an
interval after it, and at least an interval after the last one. -/
theorem request_paced (timer : TimerSource) (repeating : timer.repeats = true)
    (first second : Nat) (due : timer.expireTime ≤ first) (readings : first ≤ second)
    (small : second < 2 ^ 63) :
    Paced timer.interval
      ⟨timer.expireTime, first, second, (timer.request first second).2.expireTime⟩ := by
  have interval := timer.interval_lt
  have next := timer.setNewExpireTime_eq repeating second (by omega) (by omega)
  have requested : (timer.request first second).2 = timer.setNewExpireTime second := by
    rw [request, if_pos due, if_pos repeating]
  rw [requested, next]
  split
  · exact ⟨due, readings, by dsimp only; omega, by dsimp only; omega, by dsimp only; omega⟩
  · exact ⟨due, readings, by dsimp only; omega, by dsimp only; omega, by dsimp only; omega⟩

theorem emissions_early (timer : TimerSource) (first second : Nat) (rest : List (Nat × Nat))
    (early : first < timer.expireTime) :
    timer.emissions ((first, second) :: rest) = timer.emissions rest := by
  rw [emissions, timer.request_early first second early]
  exact if_neg Bool.false_ne_true

theorem emissions_due (timer : TimerSource) (first second : Nat) (rest : List (Nat × Nat))
    (due : timer.expireTime ≤ first) :
    timer.emissions ((first, second) :: rest) =
      ⟨timer.expireTime, first, second, (timer.request first second).2.expireTime⟩ ::
        (timer.request first second).2.emissions rest := by
  rw [emissions]
  exact if_pos (timer.request_due first second due)

/-- A run of requests: every emission is paced, and the emissions are an interval apart, counted
from an interval before the first expire time. -/
theorem emissions_paced (calls : List (Nat × Nat)) :
    ∀ (timer : TimerSource) (since origin : Nat), timer.repeats = true →
      origin + timer.interval ≤ timer.expireTime → Ordered (2 ^ 63) since calls →
      ∀ (place : Nat) (emission : Emission), (timer.emissions calls)[place]? = some emission →
        Paced timer.interval emission ∧
          origin + (place + 1) * timer.interval ≤ emission.first := by
  induction calls with
  | nil =>
    intro timer since origin _ _ _ place emission reached
    exact absurd reached (by rw [emissions, List.getElem?_nil]; exact (Option.some_ne_none _).symm)
  | cons call rest inductionHypothesis =>
    obtain ⟨first, second⟩ := call
    intro timer since origin repeating ahead ordered place emission reached
    obtain ⟨notBefore, readings, ordered⟩ := ordered
    rcases Nat.lt_or_ge first timer.expireTime with early | due
    · rw [timer.emissions_early first second rest early] at reached
      exact inductionHypothesis timer second origin repeating ahead ordered place emission reached
    · have paced := timer.request_paced repeating first second due readings
        (Ordered.lt rest ordered)
      have kept := timer.request_interval first second
      rw [timer.emissions_due first second rest due] at reached
      cases place with
      | zero =>
        rw [List.getElem?_cons_zero, Option.some.injEq] at reached
        rw [← reached, Nat.zero_add, Nat.one_mul]
        exact ⟨paced, Nat.le_trans ahead due⟩
      | succ place =>
        rw [List.getElem?_cons_succ] at reached
        have apart := paced.apart
        dsimp only at apart
        -- the origin moves on by one interval with each emission
        have later := inductionHypothesis (timer.request first second).2 second
          (origin + timer.interval) (kept.2.trans repeating) (by rw [kept.1]; omega) ordered
          place emission reached
        rw [kept.1] at later
        refine ⟨later.1, Nat.le_trans (Nat.le_of_eq ?_) later.2⟩
        rw [Nat.succ_mul (place + 1)]
        omega

theorem emissions_first_le (calls : List (Nat × Nat)) (time : Nat)
    (untilTime : ∀ call ∈ calls, call.1 ≤ time) :
    ∀ timer : TimerSource, ∀ emission ∈ timer.emissions calls, emission.first ≤ time := by
  induction calls with
  | nil => exact fun _ _ member => absurd member List.not_mem_nil
  | cons call rest inductionHypothesis =>
    obtain ⟨first, second⟩ := call
    rw [List.forall_mem_cons] at untilTime
    intro timer emission member
    rw [emissions] at member
    split at member
    · rcases List.mem_cons.mp member with rfl | later
      · exact untilTime.1
      · exact inductionHypothesis untilTime.2 _ emission later
    · exact inductionHypothesis untilTime.2 _ emission member

/-- A repeating timer started at a time: its k-th emission is at least k intervals later, each
emission sets the next expire time at most one interval ahead of the clock and at least one
interval after the last expire time, and there are never more emissions than elapsed
intervals. -/
theorem repeating_rate (timer : TimerSource) (repeating : timer.repeats = true)
    (positive : 0 < timer.interval) (started : Nat) (calls : List (Nat × Nat))
    (ordered : Ordered (2 ^ 63) started calls) :
    (∀ k emission, ((timer.start started).emissions calls)[k]? = some emission →
      Paced timer.interval emission ∧
        started + (k + 1) * timer.interval ≤ emission.first) ∧
      ∀ time, started ≤ time → (∀ call ∈ calls, call.1 ≤ time) →
        ((timer.start started).emissions calls).length ≤ (time - started) / timer.interval := by
  have interval := timer.interval_lt
  have early := Ordered.lt calls ordered
  have first : (timer.start started).expireTime = started + timer.interval := by
    rw [start, expireAt_expireTime, Nat.mod_eq_of_lt (by omega)]
  have paced := emissions_paced calls (timer.start started) started started repeating
    (Nat.le_of_eq first.symm) ordered
  refine ⟨paced, fun time later untilTime => ?_⟩
  rw [Nat.le_div_iff_mul_le positive]
  rcases Nat.eq_zero_or_pos ((timer.start started).emissions calls).length with none | some
  · rw [none, Nat.zero_mul]
    exact Nat.zero_le _
  · have last := List.getElem?_eq_getElem (Nat.sub_lt some Nat.zero_lt_one)
    have reached := (paced _ _ last).2
    have bounded := emissions_first_le calls time untilTime _ _ (List.mem_of_getElem? last)
    rw [Nat.sub_add_cancel some] at reached
    have total := Nat.le_trans reached bounded
    rw [show (timer.start started).interval = timer.interval from rfl] at total
    omega

/-- A repeating timer of ten milliseconds. -/
def tenMillis : TimerSource where
  interval := 10
  repeats := true
  expireTime := 2 ^ 64 - 1
  interval_lt := by decide
  expireTime_lt := by decide

/-- Polled too early, on time, late by more than an interval, and on time again. -/
theorem repeating_rate_tenMillis :
    (∀ k emission, ((tenMillis.start 100).emissions
        [(105, 105), (110, 110), (145, 147), (157, 158)])[k]? = some emission →
      Paced 10 emission ∧ 100 + (k + 1) * 10 ≤ emission.first) ∧
      ∀ time, 100 ≤ time →
        (∀ call ∈ [(105, 105), (110, 110), (145, 147), (157, 158)], call.1 ≤ time) →
        ((tenMillis.start 100).emissions
          [(105, 105), (110, 110), (145, 147), (157, 158)]).length ≤ (time - 100) / 10 :=
  repeating_rate tenMillis rfl (by decide) 100 [(105, 105), (110, 110), (145, 147), (157, 158)]
    (by
      simp only [Ordered]
      decide)

/-- In that run the phase is kept once and set anew once. -/
example : (tenMillis.start 100).emissions [(105, 105), (110, 110), (145, 147), (157, 158)] =
    [⟨110, 110, 110, 120⟩, ⟨120, 145, 147, 157⟩, ⟨157, 157, 158, 167⟩] := by decide

end TimerSource

end BrokerProxy.Limero
