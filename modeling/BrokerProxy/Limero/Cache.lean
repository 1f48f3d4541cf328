/-
This file models `Cache` of `limero.h`, a flow that is to pass values on no more often than
a minimum interval allows and no less often than a maximum interval asks. A value that
comes too early is held back for the callback of a timer.

The value path looks at the time of the last emission, the callback does not: the timer
runs from its own last callback, so a value that is held back may be emitted at once. And
the callback looks at the last emission for the maximum interval before anything has been
emitted or received, when neither `_lastSend` nor `_t` has been written.
-/

import BrokerProxy.Library.Runs
import BrokerProxy.Limero.TimerSource

namespace BrokerProxy.Limero

open Runs

/-- The fields of `Cache`. The intervals are 32-bit numbers, the timer does not repeat and has the
minimum as its interval. -/
structure Cache (T : Type) where
  minimum : Nat
  maximum : Nat
  unsendValue : Bool
  lastSend : Nat
  t : T
  timerSource : TimerSource
  minimum_lt : minimum < 2 ^ 32
  maximum_lt : maximum < 2 ^ 32
  interval : timerSource.interval = minimum
  single : timerSource.repeats = false

namespace Cache

variable {T : Type}

/-- The constructor, given what the memory of `_lastSend` and `_t` holds. -/
def constructed (minimum maximum : Nat) (lastSend : Nat) (t : T) (now : Nat) : Cache T where
  minimum := minimum % 2 ^ 32
  maximum := maximum % 2 ^ 32
  unsendValue := false
  lastSend := lastSend
  t := t
  timerSource := (TimerSource.constructed minimum false).start now
  minimum_lt := TimerSource.interval_mod_lt minimum
  maximum_lt := TimerSource.interval_mod_lt maximum
  interval := rfl
  single := rfl

/-- Note an emission. -/
def sent (cache : Cache T) (now : Nat) : Cache T :=
  { cache with
    unsendValue := false
    lastSend := now }

/-- `on` for a value: what is emitted, and the cache afterwards. -/
def onValue (cache : Cache T) (t : T) (now : Nat) : List T × Cache T :=
  let received := { cache with t := t, unsendValue := true }
  if (received.lastSend + received.minimum) % 2 ^ 64 < now then ([t], received.sent now)
  else ([], received)

/-- The first half of `on` for a message of the timer. -/
def sendHeld (cache : Cache T) (now : Nat) : List T × Cache T :=
  if cache.unsendValue = true then ([cache.t], cache.sent now) else ([], cache)

/-- The second half of `on` for a message of the timer. -/
def sendAgain (cache : Cache T) (now : Nat) : List T × Cache T :=
  if (cache.lastSend + cache.maximum) % 2 ^ 64 < now then ([cache.t], cache.sent now)
  else ([], cache)

/-- `on` for a message of the timer, with its reading of the clock and that of `reset`. -/
def onTimer (cache : Cache T) (now later : Nat) : List T × Cache T :=
  let held := cache.sendHeld now
  let again := held.2.sendAgain now
  (held.1 ++ again.1,
    { again.2 with
      timerSource := again.2.timerSource.start later
      interval := again.2.interval
      single := again.2.single })

/-! ### Runs -/

/-- What happens at a cache: a value is received, a value is emitted at a time, or a callback of
the timer ends. -/
inductive Event (T : Type)
  | received (t : T)
  | emitted (t : T) (now : Nat)
  | calledBack
deriving DecidableEq

/-- The next call: a value with its reading of the clock, or a poll of the timer with the two
readings of `request`, that of the callback and that of `reset`. -/
inductive Call (T : Type)
  | on (t : T) (now : Nat)
  | request (first second now later : Nat)

end Cache

/-- A cache with the latest reading of the clock and what has happened, latest first. -/
structure CacheRun (T : Type) where
  cache : Cache T
  clock : Nat
  history : List (Cache.Event T)

namespace CacheRun

variable {T : Type}

/-- The emissions of a call at a time, latest first. -/
def emissions (values : List T) (now : Nat) : List (Cache.Event T) :=
  values.reverse.map fun t => .emitted t now

/-- `request` of the timer takes a value of the second reading for its expire time before it calls
back. -/
def expired (cache : Cache T) (first second : Nat) : Cache T :=
  { cache with
    timerSource := (cache.timerSource.request first second).2
    interval := (cache.timerSource.request_interval first second).1.trans cache.interval
    single := (cache.timerSource.request_interval first second).2.trans cache.single }

/-- The callback is made: the timer has expired at the first reading. -/
def calls (run : CacheRun T) (first : Nat) : Bool := run.cache.timerSource.expireTime ≤ first

/-- One call. The clock does not run backwards, and its readings are 64-bit numbers. -/
def step (run : CacheRun T) : Cache.Call T → Option (CacheRun T)
  | .on t now =>
      if run.clock ≤ now ∧ now < 2 ^ 64 then
        let answer := run.cache.onValue t now
        some
          { cache := answer.2
            clock := now
            history := emissions answer.1 now ++ .received t :: run.history }
      else none
  | .request first second now later =>
      if run.clock ≤ first ∧ first ≤ second ∧ second ≤ now ∧ now ≤ later ∧ later < 2 ^ 64 then
        if run.calls first then
          let answer := (expired run.cache first second).onTimer now later
          some
            { cache := answer.2
              clock := later
              history := .calledBack :: (emissions answer.1 now ++ run.history) }
        else some { run with clock := first }
      else none

end CacheRun

/-- A cache and its callers. -/
def cacheMachine (T : Type) : Machine (CacheRun T) (Cache.Call T) where
  initial run := ∃ minimum maximum lastSend t,
    run.cache = Cache.constructed minimum maximum lastSend t run.clock ∧
      run.clock < 2 ^ 64 ∧ run.history = []
  step := CacheRun.step

/-! ### The answers -/

namespace Cache

variable {T : Type}

/-- A value is passed on at once, or held back. -/
theorem onValue_cases (cache : Cache T) (t : T) (now : Nat) :
    ((cache.lastSend + cache.minimum) % 2 ^ 64 < now ∧
        cache.onValue t now = ([t], ({ cache with t := t, unsendValue := true }).sent now)) ∨
      (now ≤ (cache.lastSend + cache.minimum) % 2 ^ 64 ∧
        cache.onValue t now = ([], { cache with t := t, unsendValue := true })) := by
  rcases Nat.lt_or_ge ((cache.lastSend + cache.minimum) % 2 ^ 64) now with late | early
  · exact Or.inl ⟨late, if_pos late⟩
  · exact Or.inr ⟨early, if_neg (Nat.not_lt.mpr early)⟩

/-- What a callback leaves: nothing is held back, the value and the intervals are as they were, and
`_lastSend` is the time of the callback if it emits. -/
structure Answered (cache : Cache T) (now : Nat) (answer : List T × Cache T) : Prop where
  minimum : answer.2.minimum = cache.minimum
  maximum : answer.2.maximum = cache.maximum
  t : answer.2.t = cache.t
  unsendValue : answer.2.unsendValue = false
  lastSend : answer.2.lastSend = if answer.1 = [] then cache.lastSend else now

/-- A callback that finds a value held back emits it, and once more if the maximum interval takes
the time past 2^64. -/
theorem onTimer_held (cache : Cache T) (held : cache.unsendValue = true) (now later : Nat) :
    (cache.onTimer now later).1 =
        (if (now + cache.maximum) % 2 ^ 64 < now then [cache.t, cache.t] else [cache.t]) ∧
      cache.Answered now (cache.onTimer now later) := by
  have first : cache.sendHeld now = ([cache.t], cache.sent now) := if_pos held
  unfold onTimer
  simp only [first]
  by_cases again : (now + cache.maximum) % 2 ^ 64 < now
  · have second : (cache.sent now).sendAgain now = ([cache.t], (cache.sent now).sent now) :=
      if_pos again
    simp only [second, if_pos again]
    exact ⟨rfl, rfl, rfl, rfl, rfl, rfl⟩
  · have second : (cache.sent now).sendAgain now = ([], cache.sent now) := if_neg again
    simp only [second, if_neg again]
    exact ⟨rfl, rfl, rfl, rfl, rfl, rfl⟩

/-- A callback that finds nothing held back emits the value it has if the maximum interval has
passed. -/
theorem onTimer_idle (cache : Cache T) (idle : cache.unsendValue = false) (now later : Nat) :
    (cache.onTimer now later).1 =
        (if (cache.lastSend + cache.maximum) % 2 ^ 64 < now then [cache.t] else []) ∧
      cache.Answered now (cache.onTimer now later) := by
  have first : cache.sendHeld now = ([], cache) := if_neg (by rw [idle]; decide)
  unfold onTimer
  simp only [first]
  by_cases again : (cache.lastSend + cache.maximum) % 2 ^ 64 < now
  · have second : cache.sendAgain now = ([cache.t], cache.sent now) := if_pos again
    simp only [second, if_pos again]
    exact ⟨rfl, rfl, rfl, rfl, rfl, rfl⟩
  · have second : cache.sendAgain now = ([], cache) := if_neg again
    simp only [second, if_neg again]
    exact ⟨rfl, rfl, rfl, rfl, idle, rfl⟩

end Cache

/-! ### The minimum interval -/

namespace CacheRun

variable {T : Type}

/-- The time of the latest emission. -/
def lastEmission : List (Cache.Event T) → Option Nat
  | [] => none
  | .emitted _ now :: _ => some now
  | .received _ :: earlier | .calledBack :: earlier => lastEmission earlier

/-- Any two consecutive emissions are at least the minimum apart. -/
def Spaced (minimum : Nat) : List (Cache.Event T) → Prop
  | [] => True
  | .emitted _ now :: earlier =>
      (∀ time, lastEmission earlier = some time → time + minimum ≤ now) ∧ Spaced minimum earlier
  | .received _ :: earlier | .calledBack :: earlier => Spaced minimum earlier

/-- Once something has been emitted, a callback that finds a value held back comes no sooner than
the minimum after the last emission, and no sum with an interval passes 2^64 where that makes
a difference. -/
def keepsSpacing (run : CacheRun T) : Cache.Call T → Bool
  | .on _ _ => (lastEmission run.history).all fun time => time + run.cache.minimum < 2 ^ 64
  | .request first _ now _ =>
      !run.calls first ||
        if run.cache.unsendValue then
          ((lastEmission run.history).all fun time => time + run.cache.minimum ≤ now) &&
            (now + run.cache.maximum < 2 ^ 64 || run.cache.minimum = 0)
        else
          (lastEmission run.history).all fun time =>
            time + run.cache.maximum < 2 ^ 64 || time + run.cache.minimum ≤ now

/-- The intervals are in order, and `_lastSend` is the time of the last emission, if there was
one. -/
structure Timed (run : CacheRun T) : Prop where
  ordered : run.cache.minimum ≤ run.cache.maximum
  lastSend : ∀ time, lastEmission run.history = some time →
    run.cache.lastSend = time ∧ time ≤ run.clock
  now : run.clock < 2 ^ 64

theorem lastEmission_emissions (values : List T) (now : Nat) (history : List (Cache.Event T)) :
    lastEmission (emissions values now ++ history) =
      if values = [] then lastEmission history else some now := by
  rw [emissions]
  cases reversed : values.reverse with
  | nil => rw [if_pos (List.reverse_eq_nil_iff.mp reversed), List.map_nil, List.nil_append]
  | cons last rest =>
    have some : values ≠ [] := fun none => by
      rw [none] at reversed
      cases reversed
    rw [if_neg some, List.map_cons, List.cons_append, lastEmission]

/-- A call is a value or a poll; a poll does nothing, or the callback answers. -/
theorem step_cases {run next : CacheRun T} {call : Cache.Call T}
    (taken : run.step call = some next) :
    (∃ t now, call = .on t now ∧ run.clock ≤ now ∧ now < 2 ^ 64 ∧
        next =
          { cache := (run.cache.onValue t now).2
            clock := now
            history := emissions (run.cache.onValue t now).1 now ++ .received t :: run.history }) ∨
      (∃ first second now later, call = .request first second now later ∧ run.clock ≤ first ∧
          first < 2 ^ 64 ∧ run.calls first = false ∧ next = { run with clock := first }) ∨
        ∃ first second now later, call = .request first second now later ∧ run.clock ≤ now ∧
          now ≤ later ∧ later < 2 ^ 64 ∧ run.calls first = true ∧
          next =
            { cache := ((expired run.cache first second).onTimer now later).2
              clock := later
              history := .calledBack ::
                (emissions ((expired run.cache first second).onTimer now later).1 now ++
                  run.history) } := by
  cases call with
  | on t now =>
    unfold step at taken
    dsimp only at taken
    split at taken
    · rename_i readings
      exact Or.inl ⟨t, now, rfl, readings.1, readings.2, (Option.some.inj taken).symm⟩
    · cases taken
  | request first second now later =>
    unfold step at taken
    dsimp only at taken
    split at taken
    · rename_i readings
      obtain ⟨before, order, onward, last, small⟩ := readings
      split at taken
      · rename_i due
        exact Or.inr (Or.inr ⟨first, second, now, later, rfl, by omega, last, small, due,
          (Option.some.inj taken).symm⟩)
      · rename_i early
        exact Or.inr (Or.inl ⟨first, second, now, later, rfl, before, by omega,
          Bool.eq_false_iff.mpr early, (Option.some.inj taken).symm⟩)
    · cases taken

theorem answered_onTimer (cache : Cache T) (now later : Nat) :
    cache.Answered now (cache.onTimer now later) := by
  cases held : cache.unsendValue with
  | true => exact (cache.onTimer_held held now later).2
  | false => exact (cache.onTimer_idle held now later).2

/-- No call changes the minimum interval. -/
theorem step_minimum {run next : CacheRun T} {call : Cache.Call T}
    (taken : run.step call = some next) : next.cache.minimum = run.cache.minimum := by
  rcases step_cases taken with ⟨t, now, _, _, _, rfl⟩ | ⟨_, _, _, _, _, _, _, _, rfl⟩ |
    ⟨first, second, now, later, _, _, _, _, _, rfl⟩
  · rcases run.cache.onValue_cases t now with ⟨_, answer⟩ | ⟨_, answer⟩
    · rw [answer]
      rfl
    · rw [answer]
  · rfl
  · exact (answered_onTimer (expired run.cache first second) now later).minimum

/-- A callback at a time: the intervals and the last emission afterwards. -/
theorem Timed.answered {run : CacheRun T} (timed : run.Timed) {first second now : Nat}
    {answer : List T × Cache T} (answered : (expired run.cache first second).Answered now answer)
    {later : Nat} (onward : run.clock ≤ now) (last : now ≤ later) (small : later < 2 ^ 64) :
    Timed
      { cache := answer.2
        clock := later
        history := .calledBack :: (emissions answer.1 now ++ run.history) } where
  ordered := by
    rw [answered.minimum, answered.maximum]
    exact timed.ordered
  lastSend := by
    intro time isLast
    rw [lastEmission, lastEmission_emissions] at isLast
    show answer.2.lastSend = time ∧ time ≤ later
    rw [answered.lastSend]
    split at isLast
    · rename_i none
      obtain ⟨same, past⟩ := timed.lastSend time isLast
      rw [if_pos none]
      exact ⟨same, by omega⟩
    · rename_i some
      obtain rfl := Option.some.inj isLast
      rw [if_neg some]
      exact ⟨rfl, last⟩
  now := small

theorem Timed.step {run next : CacheRun T} (timed : run.Timed) {call : Cache.Call T}
    (taken : run.step call = some next) : next.Timed := by
  rcases step_cases taken with ⟨t, now, rfl, before, small, rfl⟩ |
    ⟨first, second, now, later, rfl, before, small, early, rfl⟩ |
    ⟨first, second, now, later, rfl, onward, last, small, due, rfl⟩
  · rcases run.cache.onValue_cases t now with ⟨_, answer⟩ | ⟨_, answer⟩
    · rw [answer]
      refine { ordered := timed.ordered, lastSend := fun time isLast => ?_, now := small }
      exact ⟨Option.some.inj isLast, (Option.some.inj isLast).symm.le⟩
    · rw [answer]
      refine { ordered := timed.ordered, lastSend := fun time isLast => ?_, now := small }
      obtain ⟨same, past⟩ := timed.lastSend time isLast
      exact ⟨same, past.trans before⟩
  · refine { ordered := timed.ordered, lastSend := fun time isLast => ?_, now := small }
    obtain ⟨same, past⟩ := timed.lastSend time isLast
    exact ⟨same, past.trans before⟩
  · exact timed.answered (answered_onTimer _ now later) onward last small

/-- A value emitted at once follows the last emission by the minimum exactly if the sum it is
compared with has not passed 2^64. -/
theorem spaced_on_iff {run next : CacheRun T} (timed : run.Timed)
    (spaced : Spaced run.cache.minimum run.history) {t : T} {now : Nat}
    (taken : run.step (.on t now) = some next) :
    Spaced run.cache.minimum next.history ↔ run.keepsSpacing (.on t now) = true := by
  have minimum := run.cache.minimum_lt
  rcases step_cases taken with ⟨t, now, same, before, small, rfl⟩ |
    ⟨_, _, _, _, other, _⟩ | ⟨_, _, _, _, other, _⟩
  · cases same
    rw [keepsSpacing, Option.all_eq_true]
    rcases run.cache.onValue_cases t now with ⟨late, answer⟩ | ⟨early, answer⟩
    · rw [answer]
      refine Iff.trans (and_iff_left spaced) (forall₂_congr fun time isLast => ?_)
      obtain ⟨lastSend, past⟩ := timed.lastSend time isLast
      rw [lastSend] at late
      rw [decide_eq_true_eq]
      omega
    · rw [answer]
      refine iff_of_true spaced fun time isLast => ?_
      obtain ⟨lastSend, past⟩ := timed.lastSend time isLast
      rw [lastSend] at early
      rw [decide_eq_true_eq]
      omega
  · cases other
  · cases other

/-- One or two emissions of a callback at one time. -/
theorem spaced_held_iff {minimum now : Nat} {history : List (Cache.Event T)} {t : T}
    (spaced : Spaced minimum history) (again : Bool) :
    Spaced minimum (.calledBack ::
        (emissions (if again = true then [t, t] else [t]) now ++ history)) ↔
      (∀ time, lastEmission history = some time → time + minimum ≤ now) ∧
        (again = false ∨ minimum = 0) := by
  cases again with
  | false => exact ⟨fun both => ⟨both.1, Or.inl rfl⟩, fun both => ⟨both.1, spaced⟩⟩
  | true =>
    constructor
    · rintro ⟨second, first, _⟩
      refine ⟨first, Or.inr ?_⟩
      have apart := second now rfl
      omega
    · rintro ⟨first, same | none⟩
      · cases same
      · refine ⟨fun time isLast => ?_, first, spaced⟩
        rw [← Option.some.inj isLast, none]
        exact Nat.le_refl now

/-- A callback that finds a value held back keeps the spacing exactly if it comes late enough and
emits the value once. -/
theorem spaced_onTimer_held_iff {cache : Cache T} (held : cache.unsendValue = true)
    {history : List (Cache.Event T)} (spaced : Spaced cache.minimum history) (now later : Nat)
    (small : now < 2 ^ 64) :
    Spaced cache.minimum
        (.calledBack :: (emissions (cache.onTimer now later).1 now ++ history)) ↔
      (∀ time, lastEmission history = some time → time + cache.minimum ≤ now) ∧
        (now + cache.maximum < 2 ^ 64 ∨ cache.minimum = 0) := by
  have maximum := cache.maximum_lt
  have wraps : (now + cache.maximum) % 2 ^ 64 < now ↔
      decide (2 ^ 64 ≤ now + cache.maximum) = true := by
    rw [decide_eq_true_eq]
    omega
  rw [(cache.onTimer_held held now later).1, if_congr wraps rfl rfl]
  refine (spaced_held_iff spaced _).trans (and_congr_right' (or_congr_left ?_))
  rw [decide_eq_false_iff_not, Nat.not_le]

/-- A callback that finds nothing held back keeps the spacing exactly if the sum with the maximum
does not pass 2^64, or it comes late enough anyway. -/
theorem spaced_onTimer_idle_iff {cache : Cache T} (idle : cache.unsendValue = false)
    {history : List (Cache.Event T)} (spaced : Spaced cache.minimum history) (now later : Nat)
    (small : now < 2 ^ 64) (ordered : cache.minimum ≤ cache.maximum)
    (lastSend : ∀ time, lastEmission history = some time → cache.lastSend = time ∧ time ≤ now) :
    Spaced cache.minimum
        (.calledBack :: (emissions (cache.onTimer now later).1 now ++ history)) ↔
      ∀ time, lastEmission history = some time →
        time + cache.maximum < 2 ^ 64 ∨ time + cache.minimum ≤ now := by
  have maximum := cache.maximum_lt
  rw [(cache.onTimer_idle idle now later).1]
  by_cases passed : (cache.lastSend + cache.maximum) % 2 ^ 64 < now
  · rw [if_pos passed]
    refine Iff.trans (and_iff_left spaced) (forall₂_congr fun time isLast => ?_)
    obtain ⟨same, past⟩ := lastSend time isLast
    rw [same] at passed
    omega
  · rw [if_neg passed]
    refine iff_of_true spaced fun time isLast => ?_
    obtain ⟨same, past⟩ := lastSend time isLast
    rw [same] at passed
    omega

/-- A callback keeps the spacing exactly under its condition. -/
theorem spaced_request_iff {run next : CacheRun T} (timed : run.Timed)
    (spaced : Spaced run.cache.minimum run.history) {first second now later : Nat}
    (taken : run.step (.request first second now later) = some next) :
    Spaced run.cache.minimum next.history ↔
      run.keepsSpacing (.request first second now later) = true := by
  rcases step_cases taken with ⟨_, _, other, _⟩ |
    ⟨_, _, _, _, same, _, _, early, rfl⟩ | ⟨_, _, _, _, same, onward, last, small, due, rfl⟩
  · cases other
  · cases same
    rw [keepsSpacing, early]
    exact iff_of_true spaced rfl
  · cases same
    rw [keepsSpacing, due, Bool.not_true, Bool.false_or]
    cases held : run.cache.unsendValue with
    | true =>
      have heldBack : (expired run.cache first second).unsendValue = true := held
      rw [if_pos rfl, Bool.and_eq_true, Option.all_eq_true, Bool.or_eq_true, decide_eq_true_eq,
        decide_eq_true_eq]
      simp only [decide_eq_true_eq]
      exact spaced_onTimer_held_iff heldBack spaced now later (by omega)
    | false =>
      have idle : (expired run.cache first second).unsendValue = false := held
      rw [if_neg Bool.false_ne_true, Option.all_eq_true]
      simp only [Bool.or_eq_true, decide_eq_true_eq]
      refine spaced_onTimer_idle_iff idle spaced now later (by omega) timed.ordered ?_
      intro time isLast
      obtain ⟨lastSend, past⟩ := timed.lastSend time isLast
      exact ⟨lastSend, past.trans onward⟩

theorem spaced_step_iff {run next : CacheRun T} (timed : run.Timed)
    (spaced : Spaced run.cache.minimum run.history) {call : Cache.Call T}
    (taken : run.step call = some next) :
    Spaced next.cache.minimum next.history ↔ run.keepsSpacing call = true := by
  rw [step_minimum taken]
  cases call with
  | on t now => exact spaced_on_iff timed spaced taken
  | request first second now later => exact spaced_request_iff timed spaced taken

theorem spaced_of_append {minimum : Nat} (more : List (Cache.Event T))
    {history : List (Cache.Event T)} (spaced : Spaced minimum (more ++ history)) :
    Spaced minimum history := by
  induction more with
  | nil => exact spaced
  | cons event rest inductionHypothesis =>
    cases event with
    | received t | calledBack => exact inductionHypothesis spaced
    | emitted t now => exact inductionHypothesis spaced.2

/-- A call adds to what has happened. -/
theorem step_history {run next : CacheRun T} {call : Cache.Call T}
    (taken : run.step call = some next) : ∃ more, next.history = more ++ run.history := by
  rcases step_cases taken with ⟨t, now, _, _, _, rfl⟩ | ⟨_, _, _, _, _, _, _, _, rfl⟩ |
    ⟨first, second, now, later, _, _, _, _, _, rfl⟩
  · refine ⟨emissions (run.cache.onValue t now).1 now ++ [.received t], ?_⟩
    rw [List.append_assoc, List.singleton_append]
  · exact ⟨[], rfl⟩
  · exact ⟨.calledBack :: emissions _ now, rfl⟩

theorem timed_of_initial {start : CacheRun T} (initial : (cacheMachine T).initial start)
    (ordered : start.cache.minimum ≤ start.cache.maximum) : start.Timed := by
  obtain ⟨minimum, maximum, lastSend, t, _, small, none⟩ := initial
  refine { ordered := ordered, lastSend := fun time isLast => ?_, now := small }
  rw [none] at isLast
  cases isLast

/-- A run of a cache keeps its emissions the minimum interval apart exactly if each of its steps
meets the condition. -/
theorem spaced_iff {start final : CacheRun T} (initial : (cacheMachine T).initial start)
    (ordered : start.cache.minimum ≤ start.cache.maximum) (calls : List (Cache.Call T))
    (ended : (cacheMachine T).run start calls = some final) :
    Spaced final.cache.minimum final.history ↔
      ((cacheMachine T).restrict keepsSpacing).run start calls = some final := by
  refine Machine.run_keeps_iff
    (fun run : CacheRun T => run.Timed ∧ Spaced run.cache.minimum run.history)
    (fun _ paced => paced.2)
    (fun run call next paced taken met =>
      ⟨paced.1.step taken, (spaced_step_iff paced.1 paced.2 taken).mpr met⟩)
    (fun run call next paced taken spaced => (spaced_step_iff paced.1 paced.2 taken).mp spaced)
    (fun run call next taken spaced => ?_) calls start final ⟨timed_of_initial initial ordered, ?_⟩
    ended
  · obtain ⟨more, longer⟩ := step_history taken
    rw [longer, step_minimum taken] at spaced
    exact spaced_of_append more spaced
  · obtain ⟨_, _, _, _, _, _, none⟩ := initial
    rw [none]
    trivial

/-- A cache of intervals 100 and 1000 whose memory held zeros. -/
def hundred : CacheRun Nat where
  cache := Cache.constructed 100 1000 0 0 0
  clock := 0
  history := []

theorem hundred_initial : (cacheMachine Nat).initial hundred :=
  ⟨100, 1000, 0, 0, rfl, by decide, rfl⟩

/-- A value passed on at once, one held back, its callback, and one more value. -/
def inTime : List (Cache.Call Nat) :=
  [.request 100 100 100 100, .on 1 150, .on 2 180, .request 260 260 260 260, .on 3 400]

theorem spaced_iff_hundred : ∃ final,
    (cacheMachine Nat).run hundred inTime = some final ∧
      (Spaced final.cache.minimum final.history ↔
        ((cacheMachine Nat).restrict keepsSpacing).run hundred inTime = some final) := by
  have ends : ((cacheMachine Nat).run hundred inTime).isSome = true := by decide +kernel
  obtain ⟨final, ended⟩ := Option.isSome_iff_exists.mp ends
  exact ⟨final, ended, spaced_iff hundred_initial (by decide) inTime ended⟩

/-- The timer runs from its own last callback: a value held back 10 ms after an emission goes out
40 ms later. -/
def outOfPhase : List (Cache.Call Nat) :=
  [.request 200 200 200 200, .on 1 250, .on 2 260, .request 300 300 300 300]

theorem not_spaced :
    ((cacheMachine Nat).run hundred outOfPhase).map (fun run => run.history) =
        some [.calledBack, .emitted 2 300, .received 2, .emitted 1 250, .received 1, .calledBack] ∧
      ¬ Spaced hundred.cache.minimum
        [.calledBack, .emitted 2 300, .received 2, .emitted 1 250, .received 1,
          .calledBack (T := Nat)] := by
  refine ⟨by decide +kernel, fun spaced => ?_⟩
  have apart := spaced.1 250 rfl
  exact absurd apart (by decide)

/-! ### The value emitted -/

/-- The value received most recently. -/
def latest : List (Cache.Event T) → Option T
  | [] => none
  | .received t :: _ => some t
  | .emitted _ _ :: earlier | .calledBack :: earlier => latest earlier

/-- A value has been emitted since the last one was received. -/
def EmittedSince (t : T) : List (Cache.Event T) → Prop
  | [] | .received _ :: _ => False
  | .emitted value _ :: earlier => value = t ∨ EmittedSince t earlier
  | .calledBack :: earlier => EmittedSince t earlier

/-- The value received most recently, if any, has been emitted. -/
def PassedOn (history : List (Cache.Event T)) : Prop :=
  ∀ t, latest history = some t → EmittedSince t history

/-- What is emitted is the value received most recently, and when a callback ends that value has
been emitted. -/
def Faithful : List (Cache.Event T) → Prop
  | [] => True
  | .received _ :: earlier => Faithful earlier
  | .emitted t _ :: earlier => latest earlier = some t ∧ Faithful earlier
  | .calledBack :: earlier => PassedOn earlier ∧ Faithful earlier

/-- A callback before the first value comes no later than the maximum after what the memory of
`_lastSend` holds. -/
def keepsFaith (run : CacheRun T) : Cache.Call T → Bool
  | .on _ _ => true
  | .request first _ now _ =>
      !run.calls first || (latest run.history).isSome ||
        now ≤ (run.cache.lastSend + run.cache.maximum) % 2 ^ 64

/-- `_t` is the value received most recently, which has been emitted unless it is held back. -/
structure Holding (run : CacheRun T) : Prop where
  value : ∀ t, latest run.history = some t → run.cache.t = t
  received : run.cache.unsendValue = true → (latest run.history).isSome = true
  passedOn : run.cache.unsendValue = false → PassedOn run.history

theorem latest_emissions (values : List T) (now : Nat) (history : List (Cache.Event T)) :
    latest (emissions values now ++ history) = latest history := by
  rw [emissions]
  induction values.reverse with
  | nil => rfl
  | cons t rest inductionHypothesis => exact inductionHypothesis

theorem faithful_emissions_iff (values : List T) (now : Nat) (history : List (Cache.Event T)) :
    Faithful (emissions values now ++ history) ↔
      (∀ t ∈ values, latest history = some t) ∧ Faithful history := by
  have reversed : ∀ events : List T,
      Faithful ((events.map fun t => Cache.Event.emitted t now) ++ history) ↔
        (∀ t ∈ events, latest history = some t) ∧ Faithful history := by
    intro events
    induction events with
    | nil => exact (and_iff_right (by simp)).symm
    | cons t rest inductionHypothesis =>
      have same : latest ((rest.map fun t => Cache.Event.emitted t now) ++ history) =
          latest history := by
        have emitted := latest_emissions rest.reverse now history
        rwa [emissions, List.reverse_reverse] at emitted
      rw [List.map_cons, List.cons_append, Faithful, inductionHypothesis, same,
        List.forall_mem_cons, and_assoc]
  rw [emissions, reversed]
  simp only [List.mem_reverse]

/-- An emission among those of a call at the end has come since the last value. -/
theorem emittedSince_emissions {values : List T} {t : T} (now : Nat)
    (history : List (Cache.Event T)) (emitted : t ∈ values ∨ EmittedSince t history) :
    EmittedSince t (emissions values now ++ history) := by
  rw [← List.mem_reverse] at emitted
  rw [emissions]
  generalize values.reverse = events at emitted ⊢
  induction events with
  | nil => exact emitted.resolve_left List.not_mem_nil
  | cons value rest inductionHypothesis =>
    rcases emitted with among | before
    · rcases List.mem_cons.mp among with rfl | among
      · exact Or.inl rfl
      · exact Or.inr (inductionHypothesis (Or.inl among))
    · exact Or.inr (inductionHypothesis (Or.inr before))

end CacheRun

/-- A callback emits `_t` or nothing, and nothing if no value is held back and the maximum interval
has not passed. -/
theorem Cache.onTimer_values {T : Type} (cache : Cache T) (now later : Nat) :
    (∀ t ∈ (cache.onTimer now later).1, t = cache.t) ∧
      ((cache.onTimer now later).1 = [] ↔ cache.unsendValue = false ∧
        now ≤ (cache.lastSend + cache.maximum) % 2 ^ 64) := by
  cases held : cache.unsendValue with
  | true =>
    rw [(cache.onTimer_held held now later).1]
    split
    · simp
    · simp
  | false =>
    rw [(cache.onTimer_idle held now later).1]
    split
    · rename_i late
      simpa using late
    · rename_i early
      simpa using early

namespace CacheRun

variable {T : Type}

theorem Holding.on {run : CacheRun T} (t : T) (now : Nat) :
    Holding
      { cache := (run.cache.onValue t now).2
        clock := now
        history := emissions (run.cache.onValue t now).1 now ++ .received t :: run.history } := by
  rcases run.cache.onValue_cases t now with ⟨_, answer⟩ | ⟨_, answer⟩
  · rw [answer]
    exact
      { value := fun value isLatest => Option.some.inj isLatest
        received := nofun
        passedOn := fun _ value isLatest => Or.inl (Option.some.inj isLatest) }
  · rw [answer]
    exact
      { value := fun value isLatest => Option.some.inj isLatest
        received := fun _ => rfl
        passedOn := nofun }

/-- After a callback the latest value has been emitted, by it or before. -/
theorem Holding.passedOn_onTimer {run : CacheRun T} (holding : run.Holding)
    (first second now later : Nat) :
    PassedOn (emissions ((expired run.cache first second).onTimer now later).1 now ++
      run.history) := by
  intro t isLatest
  rw [latest_emissions] at isLatest
  refine emittedSince_emissions now run.history ?_
  have value := holding.value t isLatest
  cases held : run.cache.unsendValue with
  | true =>
    refine Or.inl ?_
    have emits := (Cache.onTimer_held (expired run.cache first second) held now later).1
    have same : (expired run.cache first second).t = t := value
    rw [emits, same]
    split
    · exact List.mem_cons_self
    · exact List.mem_cons_self
  | false => exact Or.inr (holding.passedOn held t isLatest)

theorem Holding.step {run next : CacheRun T} (holding : run.Holding) {call : Cache.Call T}
    (taken : run.step call = some next) : next.Holding := by
  rcases step_cases taken with ⟨t, now, _, _, _, rfl⟩ | ⟨_, _, _, _, _, _, _, _, rfl⟩ |
    ⟨first, second, now, later, _, _, _, _, _, rfl⟩
  · exact Holding.on t now
  · exact { value := holding.value, received := holding.received, passedOn := holding.passedOn }
  · have answered := answered_onTimer (expired run.cache first second) now later
    refine
      { value := fun t isLatest => ?_
        received := fun held => ?_
        passedOn := fun _ => holding.passedOn_onTimer first second now later }
    · rw [latest, latest_emissions] at isLatest
      exact answered.t.trans (holding.value t isLatest)
    · exact absurd (held.symm.trans answered.unsendValue) (by decide)

theorem faithful_step_iff {run next : CacheRun T} (holding : run.Holding)
    (faithful : Faithful run.history) {call : Cache.Call T} (taken : run.step call = some next) :
    Faithful next.history ↔ run.keepsFaith call = true := by
  rcases step_cases taken with ⟨t, now, rfl, _, _, rfl⟩ |
    ⟨first, second, now, later, rfl, _, _, early, rfl⟩ |
    ⟨first, second, now, later, rfl, _, _, _, due, rfl⟩
  · refine iff_of_true ((faithful_emissions_iff _ now _).mpr ⟨fun value emitted => ?_, faithful⟩)
      rfl
    rcases run.cache.onValue_cases t now with ⟨_, answer⟩ | ⟨_, answer⟩
    · rw [answer, List.mem_singleton] at emitted
      rw [emitted, latest]
    · rw [answer] at emitted
      cases emitted
  · rw [keepsFaith, early]
    exact iff_of_true faithful rfl
  · obtain ⟨values, nothing⟩ :=
      Cache.onTimer_values (expired run.cache first second) now later
    rw [Faithful, faithful_emissions_iff, keepsFaith, due, Bool.not_true, Bool.false_or,
      Bool.or_eq_true, decide_eq_true_eq,
      and_iff_right (holding.passedOn_onTimer first second now later), and_iff_left faithful]
    constructor
    · intro emitted
      cases emits : ((expired run.cache first second).onTimer now later).1 with
      | nil => exact Or.inr (nothing.mp emits).2
      | cons t rest =>
        have isLatest := emitted t (by rw [emits]; exact List.mem_cons_self)
        rw [isLatest]
        exact Or.inl rfl
    · rintro (received | early) t emitted
      · obtain ⟨value, isLatest⟩ := Option.isSome_iff_exists.mp received
        have same : (expired run.cache first second).t = value := holding.value value isLatest
        rw [isLatest, values t emitted, same]
      · cases held : run.cache.unsendValue with
        | true =>
          obtain ⟨value, isLatest⟩ := Option.isSome_iff_exists.mp (holding.received held)
          have same : (expired run.cache first second).t = value := holding.value value isLatest
          rw [isLatest, values t emitted, same]
        | false =>
          have none := nothing.mpr ⟨held, early⟩
          rw [none] at emitted
          cases emitted

theorem faithful_of_append (more : List (Cache.Event T)) {history : List (Cache.Event T)}
    (faithful : Faithful (more ++ history)) : Faithful history := by
  induction more with
  | nil => exact faithful
  | cons event rest inductionHypothesis =>
    cases event with
    | received t => exact inductionHypothesis faithful
    | emitted t now | calledBack => exact inductionHypothesis faithful.2

theorem holding_of_initial {start : CacheRun T} (initial : (cacheMachine T).initial start) :
    start.Holding := by
  obtain ⟨minimum, maximum, lastSend, t, constructed, _, none⟩ := initial
  refine
    { value := fun value isLatest => ?_
      received := fun held => ?_
      passedOn := fun _ value isLatest => ?_ }
  · rw [none] at isLatest
    cases isLatest
  · rw [constructed] at held
    cases held
  · rw [none] at isLatest
    cases isLatest

/-- A run of a cache emits only what was received last, and has emitted it when a callback ends,
exactly if each of its steps meets the condition. -/
theorem faithful_iff {start final : CacheRun T} (initial : (cacheMachine T).initial start)
    (calls : List (Cache.Call T)) (ended : (cacheMachine T).run start calls = some final) :
    Faithful final.history ↔
      ((cacheMachine T).restrict keepsFaith).run start calls = some final := by
  refine Machine.run_keeps_iff
    (fun run : CacheRun T => run.Holding ∧ Faithful run.history)
    (fun _ kept => kept.2)
    (fun run call next kept taken met =>
      ⟨kept.1.step taken, (faithful_step_iff kept.1 kept.2 taken).mpr met⟩)
    (fun run call next kept taken faithful => (faithful_step_iff kept.1 kept.2 taken).mp faithful)
    (fun run call next taken faithful => ?_) calls start final ⟨holding_of_initial initial, ?_⟩
    ended
  · obtain ⟨more, longer⟩ := step_history taken
    rw [longer] at faithful
    exact faithful_of_append more faithful
  · obtain ⟨_, _, _, _, _, _, none⟩ := initial
    rw [none]
    trivial

theorem faithful_iff_hundred : ∃ final,
    (cacheMachine Nat).run hundred inTime = some final ∧
      (Faithful final.history ↔
        ((cacheMachine Nat).restrict keepsFaith).run hundred inTime = some final) := by
  have ends : ((cacheMachine Nat).run hundred inTime).isSome = true := by decide +kernel
  obtain ⟨final, ended⟩ := Option.isSome_iff_exists.mp ends
  exact ⟨final, ended, faithful_iff hundred_initial inTime ended⟩

/-- A callback more than the maximum after what the memory held, before any value: it emits what
the memory of `_t` held. -/
theorem not_faithful :
    ((cacheMachine Nat).run hundred [.request 5000 5000 5000 5000]).map
        (fun run => run.history) = some [.calledBack, .emitted 0 5000] ∧
      ¬ Faithful [.calledBack, .emitted 0 5000 (T := Nat)] := by
  refine ⟨by decide +kernel, fun faithful => ?_⟩
  exact absurd faithful.2.1 nofun

end CacheRun

end BrokerProxy.Limero
