/-
This file develops steps that may be undefined and that record events: a step has no
result where the code it stands for has undefined behaviour, and otherwise ends in a
state together with the events it passed on, in order. Steps compose, and iterating
one step over a list of inputs is a run; a run over a concatenation is the run over
the first part followed by the run over the second.
-/

import Mathlib.Data.Option.Basic

/-- The outcome of a step: none where it is undefined, otherwise the final state and the events
recorded on the way. -/
abbrev Traced (State Event : Type) := Option (State × List Event)

namespace Traced

variable {State Event Input : Type}

/-- The step that records nothing. -/
def done (state : State) : Traced State Event := some (state, [])

/-- Run a second step from where the first one ended. -/
def andThen (first : Traced State Event) (second : State → Traced State Event) :
    Traced State Event :=
  first.bind fun middle => (second middle.1).map fun final => (final.1, middle.2 ++ final.2)

/-- Run one step for each input, from left to right. -/
def iterate (step : State → Input → Traced State Event) : State → List Input → Traced State Event
  | state, [] => done state
  | state, input :: rest => (step state input).andThen fun next => iterate step next rest

theorem some_andThen (middle : State) (events : List Event)
    (second : State → Traced State Event) :
    andThen (some (middle, events)) second =
      (second middle).map fun final => (final.1, events ++ final.2) := rfl

theorem done_andThen (state : State) (second : State → Traced State Event) :
    (done state).andThen second = second state := by
  simp only [done, some_andThen, List.nil_append]
  exact Option.map_id'

theorem andThen_assoc (first : Traced State Event) (second third : State → Traced State Event) :
    (first.andThen second).andThen third =
      first.andThen fun middle => (second middle).andThen third := by
  cases first with
  | none => rfl
  | some middle =>
    obtain ⟨middle, events⟩ := middle
    simp only [some_andThen]
    cases second middle with
    | none => rfl
    | some final =>
      obtain ⟨final, more⟩ := final
      simp only [Option.map_some, some_andThen, Option.map_map, Function.comp_def,
        List.append_assoc]

/-- A step and its continuation both ended where their composition did. -/
theorem andThen_eq_some {first : Traced State Event} {second : State → Traced State Event}
    {final : State} {events : List Event} (ended : first.andThen second = some (final, events)) :
    ∃ middle before after, first = some (middle, before) ∧
      second middle = some (final, after) ∧ events = before ++ after := by
  obtain ⟨⟨middle, before⟩, first, rest⟩ := Option.bind_eq_some_iff.mp ended
  obtain ⟨⟨last, after⟩, second, same⟩ := Option.map_eq_some_iff.mp rest
  obtain ⟨rfl, rfl⟩ := Prod.mk.inj same
  exact ⟨middle, before, after, first, second, rfl⟩

/-- A run over a concatenation is the two runs in turn. -/
theorem iterate_append (step : State → Input → Traced State Event) (first second : List Input) :
    ∀ state, iterate step state (first ++ second) =
      (iterate step state first).andThen fun middle => iterate step middle second := by
  induction first with
  | nil =>
    intro state
    rw [List.nil_append, iterate, done_andThen]
  | cons input rest inductionHypothesis =>
    intro state
    simp only [List.cons_append, iterate, andThen_assoc, inductionHypothesis]

/-- The run rule: a property that every step keeps is kept by a run. -/
theorem iterate_invariant {step : State → Input → Traced State Event} (property : State → Prop)
    (preserve : ∀ state input next events, property state →
      step state input = some (next, events) → property next)
    (inputs : List Input) :
    ∀ {state final : State} {events : List Event}, property state →
      iterate step state inputs = some (final, events) → property final := by
  induction inputs with
  | nil =>
    intro state final events holds ended
    obtain ⟨rfl, -⟩ := Prod.mk.inj (Option.some.inj ended)
    exact holds
  | cons input rest inductionHypothesis =>
    intro state final events holds ended
    obtain ⟨middle, before, after, stepped, remaining, -⟩ := andThen_eq_some ended
    exact inductionHypothesis (preserve state input middle before holds stepped) remaining

end Traced
