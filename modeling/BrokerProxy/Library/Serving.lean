/-
This file develops objects that serve one call after another: a call takes the object
to its next state and gives an answer. Two objects agree on a sequence of calls when a
relation between their states is kept by every call and forces equal answers; the
relation may speak of the calls that are still to come.
-/

import Mathlib.Data.List.Basic

namespace Serving

variable {State Other Call Answer : Type}

/-- The state after a sequence of calls. -/
def after (serve : State → Call → Answer × State) (state : State) (calls : List Call) : State :=
  calls.foldl (fun current call => (serve current call).2) state

/-- The answers to a sequence of calls, in order. -/
def answers (serve : State → Call → Answer × State) : State → List Call → List Answer
  | _, [] => []
  | state, call :: rest => (serve state call).1 :: answers serve (serve state call).2 rest

/-- Every call of a sequence meets a condition in the state in which it is made. -/
def Along (serve : State → Call → Answer × State) (condition : State → Call → Prop) :
    State → List Call → Prop
  | _, [] => True
  | state, call :: rest =>
      condition state call ∧ Along serve condition (serve state call).2 rest

theorem answers_append (serve : State → Call → Answer × State) (first second : List Call) :
    ∀ state, answers serve state (first ++ second) =
      answers serve state first ++ answers serve (after serve state first) second := by
  induction first with
  | nil => intro state; rfl
  | cons call rest inductionHypothesis =>
    intro state
    rw [List.cons_append, answers, inductionHypothesis, answers, List.cons_append]
    rfl

theorem length_answers (serve : State → Call → Answer × State) (calls : List Call) :
    ∀ state, (answers serve state calls).length = calls.length := by
  induction calls with
  | nil => intro state; rfl
  | cons call rest inductionHypothesis =>
    intro state
    rw [answers, List.length_cons, List.length_cons, inductionHypothesis]

/-- The simulation rule: related objects give the same answers to the calls they are related
for. -/
theorem answers_eq {serve : State → Call → Answer × State}
    {serveOther : Other → Call → Answer × Other} (related : List Call → State → Other → Prop)
    (step : ∀ state other call rest, related (call :: rest) state other →
      (serve state call).1 = (serveOther other call).1 ∧
        related rest (serve state call).2 (serveOther other call).2) (calls : List Call) :
    ∀ {state other}, related calls state other →
      answers serve state calls = answers serveOther other calls := by
  induction calls with
  | nil => exact fun _ => rfl
  | cons call rest inductionHypothesis =>
    intro state other holds
    obtain ⟨same, next⟩ := step _ _ _ _ holds
    rw [answers, answers, same, inductionHypothesis next]

/-- A relation that every call keeps holds after every sequence of calls. -/
theorem related_after {serve : State → Call → Answer × State}
    {serveOther : Other → Call → Answer × Other} (related : State → Other → Prop)
    (step : ∀ state other call, related state other →
      related (serve state call).2 (serveOther other call).2) (calls : List Call) :
    ∀ {state other}, related state other →
      related (after serve state calls) (after serveOther other calls) := by
  induction calls with
  | nil => exact fun holds => holds
  | cons call rest inductionHypothesis =>
    exact fun holds => inductionHypothesis (step _ _ call holds)

/-- The exactness rule: where an invariant gives a property, every call that meets a condition
keeps the invariant, and every call that keeps the property meets the condition, a sequence of
calls keeps the property throughout exactly if each of its calls meets the condition. -/
theorem prefixes_iff_along {serve : State → Call → Answer × State} {property : State → Prop}
    {condition : State → Call → Prop} (invariant : State → Prop)
    (strong : ∀ state, invariant state → property state)
    (kept : ∀ state call, invariant state → condition state call → invariant (serve state call).2)
    (forced : ∀ state call, invariant state → property (serve state call).2 →
      condition state call) (calls : List Call) :
    ∀ state, invariant state →
      ((∀ made, made <+: calls → property (after serve state made)) ↔
        Along serve condition state calls) := by
  induction calls with
  | nil =>
    intro state holds
    refine ⟨fun _ => trivial, fun _ made isPrefix => ?_⟩
    rw [List.prefix_nil.mp isPrefix]
    exact strong state holds
  | cons call rest inductionHypothesis =>
    intro state holds
    constructor
    · intro always
      have first : condition state call :=
        forced state call holds (always [call] (List.prefix_append [call] rest))
      refine ⟨first, (inductionHypothesis _ (kept state call holds first)).mp ?_⟩
      exact fun made isPrefix => always (call :: made)
        ((List.prefix_cons_inj call).mpr isPrefix)
    · rintro ⟨first, later⟩ made isPrefix
      cases made with
      | nil => exact strong state holds
      | cons made others =>
        obtain ⟨rfl, shorter⟩ := List.cons_prefix_cons.mp isPrefix
        exact (inductionHypothesis _ (kept state made holds first)).mpr later others shorter

/-- A condition that does not look at the state is met along a sequence exactly if each call meets
it. -/
theorem along_forall_iff (serve : State → Call → Answer × State) (condition : Call → Prop)
    (calls : List Call) :
    ∀ state, Along serve (fun _ call => condition call) state calls ↔
      ∀ call ∈ calls, condition call := by
  induction calls with
  | nil => exact fun _ => iff_of_true trivial (fun _ member => absurd member List.not_mem_nil)
  | cons call rest inductionHypothesis =>
    intro state
    rw [Along, inductionHypothesis, List.forall_mem_cons]

/-- Equal answers to a sequence with one more call are equal answers to that last call. -/
theorem last_answer_eq {serve : State → Call → Answer × State}
    {serveOther : Other → Call → Answer × Other} {state : State} {other : Other}
    {calls : List Call} {call : Call}
    (same : answers serve state (calls ++ [call]) = answers serveOther other (calls ++ [call])) :
    (serve (after serve state calls) call).1 =
      (serveOther (after serveOther other calls) call).1 := by
  rw [answers_append, answers_append] at same
  have lengths : (answers serve state calls).length = (answers serveOther other calls).length := by
    rw [length_answers, length_answers]
  exact (List.cons.inj (List.append_inj_right same lengths)).1

end Serving
