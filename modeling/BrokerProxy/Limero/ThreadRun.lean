/-
This file models the loop of the Linux `Thread::run`. An iteration reads the clock, looks
for the timer with the earliest expire time within the next five seconds, narrows its
distance to a signed 32-bit number, and either waits for that long or polls the timer at
once.

The narrowing decides which timers are served: a timer that is late by more than 2^31 - 1
milliseconds looks like one that is still to come, and a clock within five seconds of
2^64 finds no timer at all. As long as no timer is that late, the earliest one is served,
and so no timer overtakes a due one more than twice.
-/

import BrokerProxy.Limero.TimerSource

namespace BrokerProxy.Limero

namespace ThreadRun

/-! ### One iteration -/

/-- The search for the next expired timer: the loop over `_timers` from an index on, with the
variables `expTime` and `expiredTimer`, the latter as an index. -/
def findExpired : List TimerSource → Nat → Nat × Option Nat → Nat × Option Nat
  | [], _, found => found
  | timer :: rest, index, (expTime, expiredTimer) =>
      if timer.expireTime < expTime then
        findExpired rest (index + 1) (timer.expireTime, some index)
      else findExpired rest (index + 1) (expTime, expiredTimer)

/-- The conversion of a 64-bit number to `int32_t`. -/
def narrow (value : Nat) : Int :=
  if value % 2 ^ 32 < 2 ^ 31 then (value % 2 ^ 32 : Nat) else (value % 2 ^ 32 : Nat) - 2 ^ 32

/-- `waitTime`: the 64-bit difference of the two times, as an `int32_t`. -/
def waitTime (expTime now : Nat) : Int := narrow ((expTime + (2 ^ 64 - now)) % 2 ^ 64)

/-- What an iteration does: the timeout it passes to `waitInvoker`, if it waits, and the index of
the timer on which it calls `request`, if any. -/
structure Served where
  wait : Option Nat
  requested : Option Nat
deriving DecidableEq

/-- An iteration of `run`, given the reading of the clock at its start and whether `waitInvoker`
returns `ETIMEDOUT`. No result where `-waitTime` overflows. -/
def iteration (timers : List TimerSource) (now : Nat) (timedOut : Bool) : Option Served :=
  let (expTime, expiredTimer) := findExpired timers 0 ((now + 5000) % 2 ^ 64, none)
  let waitTime := waitTime expTime now
  if 0 < waitTime then
    some { wait := some waitTime.toNat, requested := if timedOut then expiredTimer else none }
  else
    match expiredTimer with
    | none => some { wait := none, requested := none }
    | some timer =>
        if waitTime = -2 ^ 31 then none else some { wait := none, requested := some timer }

/-- The search either meets no timer before the given time, or finds the first of the earliest
timers. -/
theorem findExpired_cases (timers : List TimerSource) : ∀ index expTime expiredTimer,
    ((∀ timer ∈ timers, expTime ≤ timer.expireTime) ∧
        findExpired timers index (expTime, expiredTimer) = (expTime, expiredTimer)) ∨
      ∃ place timer, timers[place]? = some timer ∧ timer.expireTime < expTime ∧
        (∀ other ∈ timers, timer.expireTime ≤ other.expireTime) ∧
        findExpired timers index (expTime, expiredTimer) =
          (timer.expireTime, some (index + place)) := by
  induction timers with
  | nil => exact fun _ _ _ => Or.inl ⟨fun _ member => absurd member List.not_mem_nil, rfl⟩
  | cons timer rest inductionHypothesis =>
    intro index expTime expiredTimer
    rw [findExpired]
    by_cases sooner : timer.expireTime < expTime
    · rw [if_pos sooner]
      refine Or.inr ?_
      rcases inductionHypothesis (index + 1) timer.expireTime (some index) with
        ⟨none, found⟩ | ⟨place, other, atPlace, before, least, found⟩
      · refine ⟨0, timer, rfl, sooner, ?_, found⟩
        rw [List.forall_mem_cons]
        exact ⟨Nat.le_refl _, none⟩
      · refine ⟨place + 1, other, atPlace, Nat.lt_trans before sooner, ?_, ?_⟩
        · rw [List.forall_mem_cons]
          exact ⟨Nat.le_of_lt before, least⟩
        · rw [found, Nat.add_assoc, Nat.add_comm 1]
    · rw [if_neg sooner]
      rcases inductionHypothesis (index + 1) expTime expiredTimer with
        ⟨none, found⟩ | ⟨place, other, atPlace, before, least, found⟩
      · refine Or.inl ⟨?_, found⟩
        rw [List.forall_mem_cons]
        exact ⟨Nat.not_lt.mp sooner, none⟩
      · refine Or.inr ⟨place + 1, other, atPlace, before, ?_, ?_⟩
        · rw [List.forall_mem_cons]
          exact ⟨Nat.le_trans (Nat.le_of_lt before) (Nat.not_lt.mp sooner), least⟩
        · rw [found, Nat.add_assoc, Nat.add_comm 1]

/-! ### The wait -/

/-- A time less than 2^31 milliseconds ahead keeps its distance. -/
theorem waitTime_ahead {expTime now : Nat} (ahead : now ≤ expTime) (wide : expTime < 2 ^ 64)
    (near : expTime < now + 2 ^ 31) : waitTime expTime now = (expTime - now : Nat) := by
  have reduced : (expTime + (2 ^ 64 - now)) % 2 ^ 64 = expTime - now := by omega
  rw [waitTime, reduced, narrow, if_pos (by omega), Nat.mod_eq_of_lt (by omega)]

/-- Five seconds ahead is a wait of five seconds, also where the sum passes 2^64. -/
theorem waitTime_fiveSeconds {now : Nat} (wide : now < 2 ^ 64) :
    waitTime ((now + 5000) % 2 ^ 64) now = 5000 := by
  have reduced : ((now + 5000) % 2 ^ 64 + (2 ^ 64 - now)) % 2 ^ 64 = 5000 := by omega
  rw [waitTime, reduced]
  decide

/-- A time that has passed by less than 2^31 milliseconds, modulo 2^32, is no time to wait. -/
theorem waitTime_late_nonpos {expTime now : Nat} (late : expTime ≤ now) (wide : now < 2 ^ 64) :
    (waitTime expTime now ≤ 0 ∧ waitTime expTime now ≠ -2 ^ 31) ↔
      (now - expTime) % 2 ^ 32 < 2 ^ 31 := by
  rw [waitTime, narrow]
  split
  · omega
  · omega

/-! ### Which timers are served -/

/-- The earliest expire time of a set of timers. -/
def earliest (timers : List TimerSource) : Nat :=
  timers.foldr (fun timer least => min timer.expireTime least) (2 ^ 64 - 1)

theorem earliest_le (timers : List TimerSource) :
    ∀ timer ∈ timers, earliest timers ≤ timer.expireTime := by
  induction timers with
  | nil => exact fun _ member => absurd member List.not_mem_nil
  | cons timer rest inductionHypothesis =>
    rw [List.forall_mem_cons]
    exact ⟨Nat.min_le_left _ _,
      fun other member => Nat.le_trans (Nat.min_le_right _ _) (inductionHypothesis other member)⟩

theorem exists_earliest (timers : List TimerSource) (nonempty : timers ≠ []) :
    ∃ timer ∈ timers, timer.expireTime = earliest timers := by
  induction timers with
  | nil => exact absurd rfl nonempty
  | cons timer rest inductionHypothesis =>
    rcases Nat.le_total timer.expireTime (earliest rest) with first | later
    · exact ⟨timer, List.mem_cons_self, (Nat.min_eq_left first).symm⟩
    · by_cases single : rest = []
      · subst single
        have small := timer.expireTime_lt
        exact ⟨timer, List.mem_cons_self, (Nat.min_eq_left (Nat.le_sub_one_of_lt small)).symm⟩
      · obtain ⟨other, member, same⟩ := inductionHypothesis single
        exact ⟨other, List.mem_cons_of_mem _ member, same.trans (Nat.min_eq_right later).symm⟩

/-- What an iteration owes its timers, whatever `waitInvoker` returns: a request of a timer with
the earliest expire time if that time has come, and otherwise a wait until then, of five seconds
at most. -/
def ServesDue (timers : List TimerSource) (now : Nat) : Prop :=
  ∀ timedOut,
    (earliest timers ≤ now → ∃ served place timer, iteration timers now timedOut = some served ∧
      served.requested = some place ∧ timers[place]? = some timer ∧
      timer.expireTime = earliest timers) ∧
    (now < earliest timers → ∃ served, iteration timers now timedOut = some served ∧
      served.wait = some (min 5000 (earliest timers - now)))

/-- A due timer must lie before the horizon of five seconds and be late by less than 2^31
milliseconds modulo 2^32; a timer to come needs a horizon that does not pass 2^64. -/
def Servable (timers : List TimerSource) (now : Nat) : Prop :=
  if earliest timers ≤ now then
    earliest timers < (now + 5000) % 2 ^ 64 ∧ (now - earliest timers) % 2 ^ 32 < 2 ^ 31
  else now + 5000 < 2 ^ 64

/-- The time of the first of the earliest timers is the earliest expire time. -/
theorem earliest_eq (timers : List TimerSource) (timer : TimerSource) (member : timer ∈ timers)
    (least : ∀ other ∈ timers, timer.expireTime ≤ other.expireTime) :
    timer.expireTime = earliest timers := by
  obtain ⟨first, inTimers, same⟩ := exists_earliest timers (List.ne_nil_of_mem member)
  exact Nat.le_antisymm (same ▸ least first inTimers) (earliest_le timers timer member)

/-- Without a timer before the horizon an iteration waits five seconds and polls nothing. -/
theorem iteration_of_none (timers : List TimerSource) (now : Nat) (wide : now < 2 ^ 64)
    (later : (now + 5000) % 2 ^ 64 ≤ earliest timers) (timedOut : Bool) :
    iteration timers now timedOut = some { wait := some 5000, requested := none } := by
  rcases findExpired_cases timers 0 ((now + 5000) % 2 ^ 64) none with
    ⟨_, found⟩ | ⟨place, timer, atPlace, before, _, _⟩
  · rw [iteration, found]
    dsimp only
    rw [waitTime_fiveSeconds wide, if_pos (by decide)]
    cases timedOut <;> rfl
  · have bound := earliest_le timers timer (List.mem_of_getElem? atPlace)
    omega

/-- With a timer before the horizon an iteration is decided by the wait until the earliest. -/
theorem iteration_of_some (timers : List TimerSource) (now : Nat)
    (sooner : earliest timers < (now + 5000) % 2 ^ 64) :
    ∃ place timer, timers[place]? = some timer ∧ timer.expireTime = earliest timers ∧
      ∀ timedOut, iteration timers now timedOut =
        if 0 < waitTime (earliest timers) now then
          some { wait := some (waitTime (earliest timers) now).toNat,
                 requested := if timedOut then some place else none }
        else if waitTime (earliest timers) now = -2 ^ 31 then none
        else some { wait := none, requested := some place } := by
  rcases findExpired_cases timers 0 ((now + 5000) % 2 ^ 64) none with
    ⟨none, _⟩ | ⟨place, timer, atPlace, _, least, found⟩
  · have nonempty : timers ≠ [] := by
      rintro rfl
      rw [show earliest [] = 2 ^ 64 - 1 from rfl] at sooner
      omega
    obtain ⟨timer, member, same⟩ := exists_earliest timers nonempty
    have bound := none timer member
    omega
  · have same := earliest_eq timers timer (List.mem_of_getElem? atPlace) least
    refine ⟨place, timer, atPlace, same, fun timedOut => ?_⟩
    rw [iteration, found, same, Nat.zero_add]

/-- An iteration that polls nothing has not polled a timer. -/
theorem not_requested {wait : Option Nat} {served : Served} {place : Nat}
    (idle : some { wait := wait, requested := none } = some served) :
    served.requested ≠ some place := by
  rw [← Option.some.inj idle]
  exact (Option.some_ne_none _).symm

/-- An iteration whose earliest timer is due serves it exactly if the timer is before the horizon
and its lateness fits. -/
theorem serves_due_iff (timers : List TimerSource) (now : Nat) (wide : now < 2 ^ 64)
    (due : earliest timers ≤ now) :
    (∀ timedOut, ∃ served place timer, iteration timers now timedOut = some served ∧
        served.requested = some place ∧ timers[place]? = some timer ∧
        timer.expireTime = earliest timers) ↔
      earliest timers < (now + 5000) % 2 ^ 64 ∧ (now - earliest timers) % 2 ^ 32 < 2 ^ 31 := by
  rcases Nat.lt_or_ge (earliest timers) ((now + 5000) % 2 ^ 64) with sooner | later
  · obtain ⟨place, timer, atPlace, same, decided⟩ := iteration_of_some timers now sooner
    rw [← waitTime_late_nonpos due wide]
    constructor
    · intro serves
      -- the outcome that is not a timeout shows the branch
      obtain ⟨served, other, _, result, requested, _, _⟩ := serves false
      rw [decided false] at result
      refine ⟨sooner, ?_⟩
      split at result
      · exact absurd requested (not_requested result)
      · rename_i notPositive
        split at result
        · exact absurd result.symm (Option.some_ne_none _)
        · rename_i representable
          exact ⟨Int.not_lt.mp notPositive, representable⟩
    · rintro ⟨_, notPositive, representable⟩ timedOut
      refine ⟨{ wait := none, requested := some place }, place, timer, ?_, rfl, atPlace, same⟩
      rw [decided, if_neg (Int.not_lt.mpr notPositive), if_neg representable]
  · refine ⟨fun serves => ?_, fun condition => absurd condition.1 (Nat.not_lt.mpr later)⟩
    obtain ⟨served, place, _, result, requested, _, _⟩ := serves true
    rw [iteration_of_none timers now wide later] at result
    exact absurd requested (not_requested result)

/-- An iteration whose timers are all to come waits for the earliest, or five seconds, exactly if
five seconds from now are still below 2^64. -/
theorem waits_iff (timers : List TimerSource) (nonempty : timers ≠ []) (now : Nat)
    (wide : now < 2 ^ 64) (ahead : now < earliest timers) :
    (∀ timedOut, ∃ served, iteration timers now timedOut = some served ∧
        served.wait = some (min 5000 (earliest timers - now))) ↔ now + 5000 < 2 ^ 64 := by
  obtain ⟨timer, _, same⟩ := exists_earliest timers nonempty
  have small := timer.expireTime_lt
  rcases Nat.lt_or_ge (earliest timers) ((now + 5000) % 2 ^ 64) with sooner | later
  · obtain ⟨place, timer, atPlace, same, decided⟩ := iteration_of_some timers now sooner
    have wait : waitTime (earliest timers) now = (earliest timers - now : Nat) :=
      waitTime_ahead (Nat.le_of_lt ahead) (by omega) (by omega)
    refine ⟨fun _ => by omega, fun _ timedOut => ?_⟩
    rw [decided timedOut, wait, if_pos (by omega), Int.toNat_natCast]
    exact ⟨_, rfl, congrArg some (Nat.min_eq_right (by omega)).symm⟩
  · have decided := iteration_of_none timers now wide later
    constructor
    · intro waits
      obtain ⟨served, result, wait⟩ := waits true
      rw [decided, Option.some.injEq] at result
      rw [← result, Option.some.injEq] at wait
      omega
    · intro short timedOut
      refine ⟨_, decided timedOut, ?_⟩
      rw [Nat.min_eq_left (by omega)]

/-- An iteration serves its timers exactly if no sum or narrowed difference goes wrong. -/
theorem servesDue_iff (timers : List TimerSource) (nonempty : timers ≠ []) (now : Nat)
    (wide : now < 2 ^ 64) : ServesDue timers now ↔ Servable timers now := by
  rw [Servable]
  split
  · rename_i due
    rw [← serves_due_iff timers now wide due]
    exact ⟨fun serves timedOut => (serves timedOut).1 due,
      fun serves timedOut => ⟨fun _ => serves timedOut, fun ahead => absurd due (by omega)⟩⟩
  · rename_i notDue
    rw [← waits_iff timers nonempty now wide (Nat.not_le.mp notDue)]
    exact ⟨fun serves timedOut => (serves timedOut).2 (Nat.not_le.mp notDue),
      fun waits timedOut => ⟨fun due => absurd due notDue, fun _ => waits timedOut⟩⟩

/-- A repeating timer of ten milliseconds that expires at a given time. -/
def tenMillisAt (time : Nat) : TimerSource := TimerSource.tenMillis.expireAt time

theorem servesDue_iff_tenMillis :
    ServesDue [tenMillisAt 1000] 1005 ↔ Servable [tenMillisAt 1000] 1005 :=
  servesDue_iff [tenMillisAt 1000] (List.cons_ne_nil _ _) 1005 (by decide)

/-- A timer that is late by 2^31 + 1 milliseconds, as after a step of the clock, is not polled:
the iteration waits for 2^31 - 1 milliseconds. -/
theorem not_servesDue_of_late : ¬ ServesDue [tenMillisAt 1000] (1000 + 2 ^ 31 + 1) := by
  intro serves
  obtain ⟨served, place, _, result, requested, _, _⟩ := (serves false).1 (by decide)
  have waits : iteration [tenMillisAt 1000] (1000 + 2 ^ 31 + 1) false =
      some { wait := some (2 ^ 31 - 1), requested := none } := by decide +kernel
  rw [waits] at result
  exact absurd requested (not_requested result)

/-! ### Runs -/

/-- What the world adds to an iteration: the reading of the clock at its start, whether
`waitInvoker` returns `ETIMEDOUT`, and the two readings that `request` takes. -/
structure Turn where
  now : Nat
  timedOut : Bool
  first : Nat
  second : Nat

/-- The call of `request` in an iteration: the timers afterwards, and the index of the timer if it
emits. -/
def perform (timers : List TimerSource) (turn : Turn) (place : Nat) :
    List TimerSource × Option Nat :=
  match timers[place]? with
  | none => (timers, none)
  | some timer =>
      (timers.set place (timer.request turn.first turn.second).2,
        if (timer.request turn.first turn.second).1 = true then some place else none)

/-- An iteration with its effect on the timers. -/
def iterate (timers : List TimerSource) (turn : Turn) : Option (List TimerSource × Option Nat) :=
  (iteration timers turn.now turn.timedOut).map fun served =>
    match served.requested with
    | none => (timers, none)
    | some place => perform timers turn place

/-- The timers that emit in a run of iterations, one entry for each iteration. -/
def emitters : List TimerSource → List Turn → List (Option Nat)
  | _, [] => []
  | timers, turn :: rest =>
      match iterate timers turn with
      | none => []
      | some (next, emitter) => emitter :: emitters next rest

/-- A clock that does not run backwards, from a time on. -/
def Ticking : Nat → List Turn → Prop
  | since, [] => since < 2 ^ 64
  | since, turn :: rest =>
      since ≤ turn.now ∧ turn.now ≤ turn.first ∧ turn.first ≤ turn.second ∧
        Ticking turn.second rest

/-- No timer is ever more than 2^31 - 1 milliseconds late when an iteration starts. -/
def Punctual : List TimerSource → List Turn → Prop
  | _, [] => True
  | timers, turn :: rest =>
      (∀ timer ∈ timers, turn.now ≤ timer.expireTime + (2 ^ 31 - 1)) ∧
        ∀ next emitter, iterate timers turn = some (next, emitter) → Punctual next rest

theorem Punctual.cons {timers next : List TimerSource} {turn : Turn} {rest : List Turn}
    {emitter : Option Nat} (late : ∀ timer ∈ timers, turn.now ≤ timer.expireTime + (2 ^ 31 - 1))
    (result : iterate timers turn = some (next, emitter)) (later : Punctual next rest) :
    Punctual timers (turn :: rest) := by
  refine ⟨late, fun other emitted same => ?_⟩
  rw [result, Option.some.injEq, Prod.mk.injEq] at same
  rw [← same.1]
  exact later

theorem Ticking.lt (turns : List Turn) : ∀ {since : Nat}, Ticking since turns → since < 2 ^ 64 := by
  induction turns with
  | nil => exact fun ticking => ticking
  | cons turn rest inductionHypothesis =>
    intro since ticking
    obtain ⟨before, first, second, later⟩ := ticking
    have bound := inductionHypothesis later
    omega

/-- Where no timer is too late, an iteration is defined. -/
theorem exists_iterate (timers : List TimerSource) (turn : Turn) (wide : turn.now < 2 ^ 64)
    (punctual : ∀ timer ∈ timers, turn.now ≤ timer.expireTime + (2 ^ 31 - 1)) :
    ∃ next emitter, iterate timers turn = some (next, emitter) := by
  suffices defined : ∃ served, iteration timers turn.now turn.timedOut = some served by
    obtain ⟨served, result⟩ := defined
    exact ⟨_, _, by rw [iterate, result, Option.map_some]⟩
  rcases Nat.lt_or_ge (earliest timers) ((turn.now + 5000) % 2 ^ 64) with sooner | later
  · obtain ⟨place, timer, atPlace, same, decided⟩ := iteration_of_some timers turn.now sooner
    have late := punctual timer (List.mem_of_getElem? atPlace)
    have representable : waitTime (earliest timers) turn.now ≠ -2 ^ 31 := by
      rcases Nat.lt_or_ge turn.now (earliest timers) with ahead | due
      · rw [waitTime_ahead (Nat.le_of_lt ahead) (by omega) (by omega)]
        omega
      · exact ((waitTime_late_nonpos due wide).mpr (by omega)).2
    rw [decided, if_neg representable]
    split
    · exact ⟨_, rfl⟩
    · exact ⟨_, rfl⟩
  · exact ⟨_, iteration_of_none timers turn.now wide later turn.timedOut⟩

/-- An iteration at which some timer is due, and none is too late, polls the earliest timer, which
emits; close to 2^64 it may also do nothing. -/
theorem iterate_of_due (timers : List TimerSource) (turn : Turn) (wide : turn.now < 2 ^ 64)
    (readings : turn.now ≤ turn.first)
    (punctual : ∀ timer ∈ timers, turn.now ≤ timer.expireTime + (2 ^ 31 - 1))
    (due : earliest timers ≤ turn.now) :
    iterate timers turn = some (timers, none) ∨
      ∃ place timer, timers[place]? = some timer ∧ timer.expireTime = earliest timers ∧
        iterate timers turn = some
          (timers.set place (timer.request turn.first turn.second).2, some place) := by
  rcases Nat.lt_or_ge (earliest timers) ((turn.now + 5000) % 2 ^ 64) with sooner | later
  · obtain ⟨place, timer, atPlace, same, decided⟩ := iteration_of_some timers turn.now sooner
    have late := punctual timer (List.mem_of_getElem? atPlace)
    obtain ⟨notPositive, representable⟩ := (waitTime_late_nonpos due wide).mpr (by omega)
    have emits := timer.request_due turn.first turn.second (by omega)
    refine Or.inr ⟨place, timer, atPlace, same, ?_⟩
    rw [iterate, decided, if_neg (Int.not_lt.mpr notPositive), if_neg representable,
      Option.map_some]
    dsimp only
    rw [perform, atPlace]
    dsimp only
    rw [if_pos emits]
  · refine Or.inl ?_
    rw [iterate, iteration_of_none timers turn.now wide later, Option.map_some]

/-! ### Overtaking -/

/-- How often a timer may still emit before a due one does, given their expire times: twice if it
is before the due one, once if they are level, and not at all if it is behind. -/
def remaining (due expireTime : Nat) : Nat :=
  if expireTime < due then 2 else if expireTime = due then 1 else 0

theorem remaining_ahead {due expireTime : Nat} (ahead : expireTime < due) :
    remaining due expireTime = 2 := if_pos ahead

theorem remaining_level {due expireTime : Nat} (level : expireTime = due) :
    remaining due expireTime = 1 := by
  rw [remaining, if_neg (by omega), if_pos level]

theorem remaining_behind {due expireTime : Nat} (behind : due < expireTime) :
    remaining due expireTime = 0 := by
  rw [remaining, if_neg (by omega), if_neg (by omega)]

theorem remaining_pos {due expireTime : Nat} (before : expireTime ≤ due) :
    0 < remaining due expireTime := by
  rcases Nat.lt_or_eq_of_le before with ahead | level
  · rw [remaining_ahead ahead]
    exact Nat.two_pos
  · rw [remaining_level level]
    exact Nat.one_pos

theorem remaining_le_two (due expireTime : Nat) : remaining due expireTime ≤ 2 := by
  unfold remaining
  split
  · exact Nat.le_refl 2
  · split <;> decide

/-- An emission uses up one of the emissions that remain, or leaves the timer too late for any
further iteration. -/
theorem remaining_request (timer : TimerSource) (positive : 0 < timer.interval)
    (due first second : Nat) (before : timer.expireTime ≤ due) (dueNow : due ≤ first)
    (readings : first ≤ second) :
    1 + remaining due (timer.request first second).2.expireTime ≤
        remaining due timer.expireTime ∨
      (timer.request first second).2.expireTime + 2 ^ 31 ≤ second := by
  rcases timer.request_next positive first second (by omega) readings with
    ⟨current, later⟩ | late
  · left
    rcases Nat.lt_or_eq_of_le before with ahead | level
    · have spent := remaining_ahead ahead
      rcases Nat.lt_or_eq_of_le (show due ≤ (timer.request first second).2.expireTime by omega) with
        behind | same
      · have none := remaining_behind behind
        omega
      · have one := remaining_level same.symm
        omega
    · have spent := remaining_level level
      have none := remaining_behind (show due < (timer.request first second).2.expireTime by omega)
      omega
  · exact Or.inr late

theorem count_takeWhile_cons (place other : Nat) (emitter : Option Nat)
    (emitted : List (Option Nat)) :
    ((emitter :: emitted).takeWhile (· ≠ some place)).count (some other) =
      if emitter = some place then 0
      else (if emitter = some other then 1 else 0) +
        (emitted.takeWhile (· ≠ some place)).count (some other) := by
  by_cases stops : emitter = some place
  · rw [if_pos stops, List.takeWhile_cons_of_neg (by simpa using stops), List.count_nil]
  · rw [if_neg stops, List.takeWhile_cons_of_pos (by simpa using stops), List.count_cons,
      Nat.add_comm]
    simp only [beq_iff_eq]

/-- What is left of a timer in a list after another one, or it itself, has been replaced. -/
theorem getElem?_set_cases (timers : List TimerSource) (place other : Nat)
    (next : TimerSource) (timer : TimerSource) (atOther : timers[other]? = some timer) :
    (timers.set place next)[other]? = some (if place = other then next else timer) := by
  have bound : other < timers.length := (List.getElem?_eq_some_iff.mp atOther).1
  rw [List.getElem?_set, atOther]
  split
  · rename_i same
    rw [if_pos (same ▸ bound)]
  · rfl

theorem positive_set (timers : List TimerSource) (place : Nat) (timer : TimerSource) (turn : Turn)
    (positive : ∀ other ∈ timers, 0 < other.interval) (atPlace : timers[place]? = some timer) :
    ∀ other ∈ timers.set place (timer.request turn.first turn.second).2, 0 < other.interval := by
  intro other member
  rcases List.mem_or_eq_of_mem_set member with kept | rfl
  · exact positive other kept
  · rw [(timer.request_interval turn.first turn.second).1]
    exact positive timer (List.mem_of_getElem? atPlace)

/-- After a request that has left its timer far behind the clock, no iteration is punctual. -/
theorem emitters_of_late (timers : List TimerSource) (place since : Nat) (timer : TimerSource)
    (turns : List Turn) (atPlace : timers[place]? = some timer) (ticking : Ticking since turns)
    (punctual : Punctual timers turns) (late : timer.expireTime + 2 ^ 31 ≤ since) :
    emitters timers turns = [] := by
  cases turns with
  | nil => rfl
  | cons turn rest =>
    have bound := punctual.1 timer (List.mem_of_getElem? atPlace)
    have later := ticking.1
    omega

/-- From an iteration at which a timer is due until it emits, every other timer emits no more
often than it may from its expire time on. -/
theorem count_le_remaining (place other : Nat) (turns : List Turn) :
    ∀ (timers : List TimerSource) (since : Nat) (due overtaking : TimerSource),
      (∀ timer ∈ timers, 0 < timer.interval) → timers[place]? = some due →
      due.expireTime ≤ since → timers[other]? = some overtaking → Ticking since turns →
      Punctual timers turns →
      ((emitters timers turns).takeWhile (· ≠ some place)).count (some other) ≤
        remaining due.expireTime overtaking.expireTime := by
  induction turns with
  | nil => exact fun _ _ _ _ _ _ _ _ _ _ => Nat.zero_le _
  | cons turn rest inductionHypothesis =>
    intro timers since due overtaking positive atPlace isDue atOther ticking punctual
    obtain ⟨before, nowFirst, firstSecond, ticking⟩ := ticking
    obtain ⟨late, onward⟩ := punctual
    have wide := Ticking.lt rest ticking
    have earliestDue := earliest_le timers due (List.mem_of_getElem? atPlace)
    rcases iterate_of_due timers turn (by omega) nowFirst late (by omega) with
      idle | ⟨emitting, timer, atEmitting, same, emits⟩
    · rw [emitters, idle]
      dsimp only
      rw [count_takeWhile_cons, if_neg (Option.some_ne_none _).symm,
        if_neg (Option.some_ne_none _).symm, Nat.zero_add]
      exact inductionHypothesis timers turn.second due overtaking positive atPlace (by omega)
        atOther ticking (onward _ _ idle)
    · rw [emitters, emits]
      dsimp only
      rw [count_takeWhile_cons]
      by_cases stops : emitting = place
      · rw [if_pos (congrArg some stops)]
        exact Nat.zero_le _
      · have after := getElem?_set_cases timers emitting other
          (timer.request turn.first turn.second).2 overtaking atOther
        have next := inductionHypothesis
          (timers.set emitting (timer.request turn.first turn.second).2) turn.second due
          (if emitting = other then (timer.request turn.first turn.second).2 else overtaking)
          (positive_set timers emitting timer turn positive atEmitting)
          (by rw [getElem?_set_cases timers emitting place _ due atPlace, if_neg stops])
          (by omega) after ticking (onward _ _ emits)
        rw [if_neg (fun equal => stops (Option.some.inj equal))]
        by_cases own : emitting = other
        · rw [if_pos own] at next
          rw [if_pos (congrArg some own)]
          obtain rfl : timer = overtaking :=
            Option.some.inj (atEmitting.symm.trans (own ▸ atOther))
          rcases remaining_request timer (positive timer (List.mem_of_getElem? atEmitting))
            due.expireTime turn.first turn.second (by omega) (by omega) firstSecond with
            fewer | tooLate
          · exact Nat.le_trans (Nat.add_le_add_left next 1) fewer
          · rw [if_pos own] at after
            rw [emitters_of_late _ other turn.second _ rest after ticking (onward _ _ emits)
              tooLate]
            exact remaining_pos (by omega)
        · rw [if_neg own] at next
          rw [if_neg (fun equal => own (Option.some.inj equal)), Nat.zero_add]
          exact next

/-- Where no timer is too late, no iteration of a run goes wrong. -/
theorem length_emitters (turns : List Turn) : ∀ (timers : List TimerSource) (since : Nat),
    Ticking since turns → Punctual timers turns →
      (emitters timers turns).length = turns.length := by
  induction turns with
  | nil => exact fun _ _ _ _ => rfl
  | cons turn rest inductionHypothesis =>
    intro timers since ticking punctual
    obtain ⟨_, nowFirst, firstSecond, ticking⟩ := ticking
    obtain ⟨late, onward⟩ := punctual
    have wide := Ticking.lt rest ticking
    obtain ⟨next, emitter, result⟩ := exists_iterate timers turn (by omega) late
    rw [emitters, result]
    dsimp only
    rw [List.length_cons, List.length_cons,
      inductionHypothesis next turn.second ticking (onward next emitter result)]

/-- Bounded overtaking: from the start of an iteration at which a timer is due until it emits,
every other timer emits at most twice. -/
theorem bounded_overtaking (timers : List TimerSource)
    (positive : ∀ timer ∈ timers, 0 < timer.interval) (turn : Turn) (rest : List Turn)
    (ticking : Ticking turn.now (turn :: rest)) (punctual : Punctual timers (turn :: rest))
    (place : Nat) (timer : TimerSource) (atPlace : timers[place]? = some timer)
    (due : timer.expireTime ≤ turn.now) :
    (emitters timers (turn :: rest)).length = (turn :: rest).length ∧
      ∀ other < timers.length,
        ((emitters timers (turn :: rest)).takeWhile (· ≠ some place)).count (some other) ≤ 2 := by
  refine ⟨length_emitters (turn :: rest) timers turn.now ticking punctual, fun other bound => ?_⟩
  exact Nat.le_trans (count_le_remaining place other (turn :: rest) timers turn.now timer _ positive
    atPlace due (List.getElem?_eq_getElem bound) ticking punctual) (remaining_le_two _ _)

/-- Two timers of ten milliseconds: the one in front of a due timer in the vector, and level with
it after its first emission, emits twice before it. -/
theorem bounded_overtaking_twice :
    (emitters [tenMillisAt 990, tenMillisAt 1000]
      [⟨1000, false, 1000, 1000⟩, ⟨1000, false, 1000, 1000⟩, ⟨1000, false, 1000, 1001⟩]).length =
        3 ∧
      ∀ other < 2, ((emitters [tenMillisAt 990, tenMillisAt 1000]
        [⟨1000, false, 1000, 1000⟩, ⟨1000, false, 1000, 1000⟩,
          ⟨1000, false, 1000, 1001⟩]).takeWhile (· ≠ some 1)).count (some other) ≤ 2 := by
  refine bounded_overtaking [tenMillisAt 990, tenMillisAt 1000] (by decide)
    ⟨1000, false, 1000, 1000⟩ _ ?_ ?_ 1 (tenMillisAt 1000) rfl (by decide)
  · simp only [Ticking]
    decide
  · have first : iterate [tenMillisAt 990, tenMillisAt 1000] ⟨1000, false, 1000, 1000⟩ =
        some ([tenMillisAt 1000, tenMillisAt 1000], some 0) := by decide +kernel
    have second : iterate [tenMillisAt 1000, tenMillisAt 1000] ⟨1000, false, 1000, 1000⟩ =
        some ([tenMillisAt 1010, tenMillisAt 1000], some 0) := by decide +kernel
    have third : iterate [tenMillisAt 1010, tenMillisAt 1000] ⟨1000, false, 1000, 1001⟩ =
        some ([tenMillisAt 1010, tenMillisAt 1010], some 1) := by decide +kernel
    exact Punctual.cons (by decide) first
      (Punctual.cons (by decide) second (Punctual.cons (by decide) third trivial))

/-- That bound is reached. -/
example : emitters [tenMillisAt 990, tenMillisAt 1000]
    [⟨1000, false, 1000, 1000⟩, ⟨1000, false, 1000, 1000⟩, ⟨1000, false, 1000, 1001⟩] =
      [some 0, some 0, some 1] := by decide +kernel

end ThreadRun

end BrokerProxy.Limero
