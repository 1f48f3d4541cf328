/-
This file develops machines and their runs. A machine is a set of initial states
and a step function: a label says what the environment or the scheduler chose, and
the step has no result where the label is not enabled. The file gives the three
rules every run argument of the development uses: the invariant rule, restriction
to the runs whose steps all meet a condition, and simulation of one machine by
another.
-/

import Mathlib.Data.Option.Basic
import Mathlib.Order.Nat

namespace Runs

/-- A machine: its initial states and, for each label, the state the step leads to. A label
without result is not enabled. -/
structure Machine (State Label : Type) where
  initial : State → Prop
  step : State → Label → Option State

variable {State Label Abstract AbstractLabel : Type}

namespace Machine

/-- The states a run of the machine reaches. -/
inductive Reachable (machine : Machine State Label) : State → Prop
  | initial {state : State} : machine.initial state → Reachable machine state
  | step {state next : State} (label : Label) :
      Reachable machine state → machine.step state label = some next → Reachable machine next

/-- The invariant rule: a property that holds initially and is kept by every step from a
reachable state holds of every reachable state. -/
theorem Reachable.invariant {machine : Machine State Label} {property : State → Prop}
    (base : ∀ state, machine.initial state → property state)
    (preserve : ∀ state label next, machine.Reachable state → property state →
      machine.step state label = some next → property next)
    {state : State} (reachable : machine.Reachable state) : property state := by
  induction reachable with
  | initial start => exact base _ start
  | step label before taken inductionHypothesis =>
    exact preserve _ label _ before inductionHypothesis taken

/-! ### Restricted runs -/

/-- The machine whose steps all meet a condition on the state before the step and the label. -/
def restrict (machine : Machine State Label) (guard : State → Label → Bool) :
    Machine State Label where
  initial := machine.initial
  step state label := if guard state label then machine.step state label else none

theorem restrict_step {machine : Machine State Label} {guard : State → Label → Bool}
    {state next : State} {label : Label}
    (taken : (machine.restrict guard).step state label = some next) :
    guard state label = true ∧ machine.step state label = some next := by
  by_cases met : guard state label = true
  · exact ⟨met, by simpa only [restrict, met, if_true] using taken⟩
  · simp only [restrict, met, Bool.false_eq_true, if_false, reduceCtorEq] at taken

/-- A state that a restricted run reaches is reached by the machine itself. -/
theorem Reachable.of_restrict {machine : Machine State Label} {guard : State → Label → Bool}
    {state : State} (reachable : (machine.restrict guard).Reachable state) :
    machine.Reachable state := by
  induction reachable with
  | initial start => exact .initial start
  | step label _ taken inductionHypothesis =>
    exact .step label inductionHypothesis (restrict_step taken).2

/-! ### Runs as lists of labels -/

/-- The state after a list of labels, where every label is enabled. -/
def run (machine : Machine State Label) : State → List Label → Option State
  | state, [] => some state
  | state, label :: rest => (machine.step state label).bind fun next => machine.run next rest

/-- A run from a reachable state ends in a reachable state. -/
theorem Reachable.run {machine : Machine State Label} {labels : List Label} :
    ∀ {state final : State}, machine.Reachable state → machine.run state labels = some final →
      machine.Reachable final := by
  induction labels with
  | nil =>
    intro state final reachable ended
    rw [Machine.run, Option.some_inj] at ended
    exact ended ▸ reachable
  | cons label rest inductionHypothesis =>
    intro state final reachable ended
    rw [Machine.run, Option.bind_eq_some_iff] at ended
    obtain ⟨next, taken, remaining⟩ := ended
    exact inductionHypothesis (.step label reachable taken) remaining

/-- A run whose final state passes a test gives a reachable state that passes it. -/
theorem exists_reachable_of_run (machine : Machine State Label) {state : State}
    (start : machine.initial state) (labels : List Label) (test : State → Bool)
    (passes : (machine.run state labels).any test = true) :
    ∃ final, machine.Reachable final ∧ test final = true := by
  obtain ⟨final, ended, passed⟩ := (Option.any_eq_true _ _).mp passes
  exact ⟨final, Reachable.run (.initial start) ended, passed⟩

/-- A measure that no step lowers is not lower at the end of a run than at its start. -/
theorem run_grows {machine : Machine State Label} (measure : State → Nat)
    (grows : ∀ state label next, machine.step state label = some next →
      measure state ≤ measure next)
    (labels : List Label) : ∀ state final : State,
      machine.run state labels = some final → measure state ≤ measure final := by
  induction labels with
  | nil =>
    intro state final ended
    cases ended
    exact le_rfl
  | cons label rest inductionHypothesis =>
    intro state final ended
    obtain ⟨next, taken, remaining⟩ := Option.bind_eq_some_iff.mp ended
    exact (grows state label next taken).trans (inductionHypothesis next final remaining)

/-- A property that no step restores holds at the start of a run that ends with it. -/
theorem run_earlier {machine : Machine State Label} {property : State → Prop}
    (earlier : ∀ state label next, machine.step state label = some next → property next →
      property state) (labels : List Label) : ∀ {state final : State},
      machine.run state labels = some final → property final → property state := by
  induction labels with
  | nil =>
    intro state final ended holds
    cases ended
    exact holds
  | cons label rest inductionHypothesis =>
    intro state final ended holds
    obtain ⟨next, taken, remaining⟩ := Option.bind_eq_some_iff.mp ended
    exact earlier state label next taken (inductionHypothesis remaining holds)

/-- The exactness rule: where an invariant gives a property, every step that meets a condition keeps
the invariant, every step that keeps the property meets the condition, and no step restores the
property, a run ends with the property exactly if each of its steps meets the condition. -/
theorem run_keeps_iff {machine : Machine State Label} {guard : State → Label → Bool}
    {property : State → Prop} (invariant : State → Prop)
    (strong : ∀ state, invariant state → property state)
    (kept : ∀ state label next, invariant state → machine.step state label = some next →
      guard state label = true → invariant next)
    (forced : ∀ state label next, invariant state → machine.step state label = some next →
      property next → guard state label = true)
    (earlier : ∀ state label next, machine.step state label = some next → property next →
      property state) (labels : List Label) :
    ∀ state final : State, invariant state → machine.run state labels = some final →
      (property final ↔ (machine.restrict guard).run state labels = some final) := by
  induction labels with
  | nil =>
    intro state final holds ended
    cases ended
    exact iff_of_true (strong state holds) rfl
  | cons label rest inductionHypothesis =>
    intro state final holds ended
    obtain ⟨next, taken, remaining⟩ := Option.bind_eq_some_iff.mp ended
    constructor
    · intro last
      have met := forced state label next holds taken (run_earlier earlier rest remaining last)
      have restricted : (machine.restrict guard).step state label = some next :=
        (if_pos met).trans taken
      exact Option.bind_eq_some_iff.mpr ⟨next, restricted, (inductionHypothesis next final
        (kept state label next holds taken met) remaining).mp last⟩
    · intro restrictedRun
      obtain ⟨other, restricted, rest⟩ := Option.bind_eq_some_iff.mp restrictedRun
      obtain ⟨met, again⟩ := restrict_step restricted
      cases taken.symm.trans again
      exact (inductionHypothesis next final (kept state label next holds taken met)
        remaining).mpr rest

/-! ### Recorded runs -/

/-- The machine that keeps the states it has been in beside its state, latest first. -/
def recorded (machine : Machine State Label) : Machine (State × List State) Label where
  initial recording := machine.initial recording.1 ∧ recording.2 = []
  step recording label :=
    (machine.step recording.1 label).map fun next => (next, recording.1 :: recording.2)

theorem recorded_step {machine : Machine State Label} {recording next : State × List State}
    {label : Label} (taken : machine.recorded.step recording label = some next) :
    machine.step recording.1 label = some next.1 ∧ next.2 = recording.1 :: recording.2 := by
  obtain ⟨state, stepped, rfl⟩ := Option.map_eq_some_iff.mp taken
  exact ⟨stepped, rfl⟩

/-- A recorded run is a run of the machine. -/
theorem Reachable.of_recorded {machine : Machine State Label} {recording : State × List State}
    (reachable : machine.recorded.Reachable recording) : machine.Reachable recording.1 := by
  induction reachable with
  | initial start => exact .initial start.1
  | step label _ taken inductionHypothesis =>
    exact .step label inductionHypothesis (recorded_step taken).1

/-! ### Simulation -/

/-- The simulation rule: where every concrete step is, seen through a projection, no step or a
step of the abstract machine, every reachable concrete state projects to a reachable abstract
one. -/
theorem Reachable.project {concrete : Machine State Label}
    {abstract : Machine Abstract AbstractLabel} (projection : State → Abstract)
    (starts : ∀ state, concrete.initial state → abstract.initial (projection state))
    (steps : ∀ state label next, concrete.step state label = some next →
      projection next = projection state ∨
        ∃ abstractLabel,
          abstract.step (projection state) abstractLabel = some (projection next))
    {state : State} (reachable : concrete.Reachable state) :
    abstract.Reachable (projection state) := by
  induction reachable with
  | initial start => exact .initial (starts _ start)
  | step label _ taken inductionHypothesis =>
    rcases steps _ label _ taken with same | ⟨abstractLabel, abstractTaken⟩
    · exact same ▸ inductionHypothesis
    · exact .step abstractLabel inductionHypothesis abstractTaken

/-! ### Observed runs -/

/-- What an observer sees of a run: each step shows a list of things, read off the state before it
and its label. -/
def observed {Visible : Type} (machine : Machine State Label)
    (observe : State → Label → List Visible) : State → List Label → List Visible
  | _, [] => []
  | state, label :: rest =>
      observe state label ++
        ((machine.step state label).map fun next => machine.observed observe next rest).getD []

theorem run_append (machine : Machine State Label) (first second : List Label) :
    ∀ state : State, machine.run state (first ++ second) =
      (machine.run state first).bind fun middle => machine.run middle second := by
  induction first with
  | nil => exact fun state => rfl
  | cons label rest inductionHypothesis =>
    intro state
    rw [List.cons_append, run, run, Option.bind_assoc]
    exact Option.bind_congr fun next _ => inductionHypothesis next

theorem observed_append {Visible : Type} (machine : Machine State Label)
    (observe : State → Label → List Visible) {first second : List Label} :
    ∀ {state middle : State}, machine.run state first = some middle →
      machine.observed observe state (first ++ second) =
        machine.observed observe state first ++ machine.observed observe middle second := by
  induction first with
  | nil =>
    intro state middle ended
    rw [run, Option.some_inj] at ended
    rw [ended]
    rfl
  | cons label rest inductionHypothesis =>
    intro state middle ended
    obtain ⟨next, taken, remaining⟩ := Option.bind_eq_some_iff.mp ended
    rw [List.cons_append, observed, observed, taken, Option.map_some, Option.map_some,
      Option.getD_some, Option.getD_some, inductionHypothesis remaining, List.append_assoc]

/-- The refinement rule: where every concrete step that ends inside a bound is answered by a run of
the abstract machine that shows the same and ends in a matching state, every concrete run that ends
inside the bound shows what some abstract run shows. -/
theorem exists_abstract_run {Visible : Type} {concrete : Machine State Label}
    {abstract : Machine Abstract AbstractLabel} {observe : State → Label → List Visible}
    {observeAbstract : Abstract → AbstractLabel → List Visible}
    (Matches : State → Abstract → Prop) (bounded : State → Prop)
    (earlier : ∀ state label next, concrete.step state label = some next → bounded next →
      bounded state)
    (steps : ∀ state label next image, Matches state image → bounded next →
      concrete.step state label = some next →
        ∃ labels nextImage, abstract.run image labels = some nextImage ∧ Matches next nextImage ∧
          abstract.observed observeAbstract image labels = observe state label)
    (labels : List Label) : ∀ {state final : State} {image : Abstract}, Matches state image →
      concrete.run state labels = some final → bounded final →
        ∃ abstractLabels finalImage, abstract.run image abstractLabels = some finalImage ∧
          Matches final finalImage ∧
          abstract.observed observeAbstract image abstractLabels =
            concrete.observed observe state labels := by
  induction labels with
  | nil =>
    intro state final image matched ended _
    cases ended
    exact ⟨[], image, rfl, matched, rfl⟩
  | cons label rest inductionHypothesis =>
    intro state final image matched ended inside
    obtain ⟨next, taken, remaining⟩ := Option.bind_eq_some_iff.mp ended
    obtain ⟨first, nextImage, firstRun, nextMatched, firstShown⟩ :=
      steps state label next image matched (run_earlier earlier rest remaining inside) taken
    obtain ⟨later, finalImage, laterRun, finalMatched, laterShown⟩ :=
      inductionHypothesis nextMatched remaining inside
    refine ⟨first ++ later, finalImage, ?_, finalMatched, ?_⟩
    · rw [run_append, firstRun]
      exact laterRun
    · rw [observed_append abstract observeAbstract firstRun, firstShown, laterShown, observed,
        taken]
      rfl

end Machine

end Runs
