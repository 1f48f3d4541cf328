/-
This file models `TimeoutFlow`, which the three programs on the broker's side share: a flow
that is to emit true for each input and false whenever none has arrived for some time.

The function that it hands to its `LambdaFlow` emits true by itself and returns true without
setting its output, so `LambdaFlow::on` emits a second time: whatever its output variable
held. A sequence of inputs and expirations is therefore answered as it should be exactly if
it has no input.
-/

import BrokerProxy.Library.Serving
import BrokerProxy.Limero.TimerSource

namespace BrokerProxy.Limero

open Serving

/-- `LambdaFlow::on`, for a function that may emit by itself and change a state: what is emitted,
and the state afterwards. The output variable is not initialised. -/
def lambdaFlowOn {State In Out : Type} (func : State → Out → In → List Out × (Bool × Out) × State)
    (state : State) (uninitialised : Out) (input : In) : List Out × State :=
  let ran := func state uninitialised input
  (if ran.2.1.1 = true then ran.1 ++ [ran.2.1.2] else ran.1, ran.2.2)

/-- A `TimeoutFlow` with what it has emitted, latest first, beside what it owed until then and
whether an input has arrived since the last expiration. -/
structure TimeoutFlow where
  watchdogTimer : TimerSource
  emitted : List Bool
  owed : List Bool
  fed : Bool

namespace TimeoutFlow

/-- The function of the flow: it restarts the watchdog, emits true, and leaves its output alone. -/
def lambda {Input : Type} (now : Nat) (watchdogTimer : TimerSource) (out : Bool) (_ : Input) :
    List Bool × (Bool × Bool) × TimerSource :=
  ([true], (true, out), watchdogTimer.start now)

/-- The constructor, with the delay, a 32-bit number. It emits false. -/
def constructed (delay now : Nat) : TimeoutFlow where
  watchdogTimer := (TimerSource.constructed delay true).start now
  emitted := [false]
  owed := [false]
  fed := false

/-- What the flow meets: an input, with what the output variable holds and the reading of the
clock, or a poll of the watchdog with its two readings. -/
inductive Call (Input : Type)
  | on (input : Input) (uninitialised : Bool) (now : Nat)
  | request (first second : Nat)

/-- The call is an input. -/
def Call.isInput {Input : Type} : Call Input → Bool
  | .on _ _ _ => true
  | .request _ _ => false

/-- A call: what the flow emits, and the flow afterwards. -/
def serve {Input : Type} (flow : TimeoutFlow) : Call Input → List Bool × TimeoutFlow
  | .on input uninitialised now =>
      let ran := lambdaFlowOn (lambda now) flow.watchdogTimer uninitialised input
      (ran.1,
        { watchdogTimer := ran.2
          emitted := ran.1.reverse ++ flow.emitted
          owed := true :: flow.owed
          fed := true })
  | .request first second =>
      let requested := flow.watchdogTimer.request first second
      if requested.1 = true then
        ([false],
          { watchdogTimer := requested.2
            emitted := false :: flow.emitted
            owed := false :: flow.owed
            fed := false })
      else ([], { flow with watchdogTimer := requested.2 })

/-- The flow has emitted what it owed, and the last value is true exactly if an input has arrived
since the last expiration. -/
structure Watches (flow : TimeoutFlow) : Prop where
  exact : flow.emitted = flow.owed
  last : flow.emitted.head? = some flow.fed

variable {Input : Type}

/-- An input is answered with two values, the second one being whatever the output variable held. -/
theorem serve_on (flow : TimeoutFlow) (input : Input) (uninitialised : Bool) (now : Nat) :
    (flow.serve (.on input uninitialised now)).1 = [true, uninitialised] ∧
      (flow.serve (.on input uninitialised now)).2.emitted =
        uninitialised :: true :: flow.emitted :=
  ⟨rfl, rfl⟩

/-- A poll emits false if the watchdog has expired, and nothing otherwise. -/
theorem Watches.request {flow : TimeoutFlow} (watches : flow.Watches) (first second : Nat) :
    (flow.serve (.request first second : Call Input)).2.Watches := by
  unfold serve
  dsimp only
  split
  · exact { exact := congrArg (false :: ·) watches.exact, last := rfl }
  · exact { exact := watches.exact, last := watches.last }

theorem not_watches_on {flow : TimeoutFlow} (watches : flow.Watches) (input : Input)
    (uninitialised : Bool) (now : Nat) :
    ¬ (flow.serve (.on input uninitialised now)).2.Watches := by
  intro after
  have lengths := congrArg List.length after.exact
  rw [(flow.serve_on input uninitialised now).2] at lengths
  have same := congrArg List.length watches.exact
  have owed : (flow.serve (.on input uninitialised now)).2.owed = true :: flow.owed := rfl
  rw [owed, List.length_cons, List.length_cons, List.length_cons] at lengths
  omega

theorem Watches.serve {flow : TimeoutFlow} (watches : flow.Watches) (call : Call Input)
    (notInput : call.isInput = false) : (flow.serve call).2.Watches := by
  cases call with
  | on input uninitialised now => cases notInput
  | request first second => exact watches.request first second

theorem isInput_of_watches {flow : TimeoutFlow} (watches : flow.Watches) (call : Call Input)
    (after : (flow.serve call).2.Watches) : call.isInput = false := by
  cases call with
  | on input uninitialised now =>
    exact absurd after (not_watches_on watches input uninitialised now)
  | request first second => rfl

theorem watches_constructed (delay now : Nat) : (constructed delay now).Watches where
  exact := rfl
  last := rfl

/-- In every state that a sequence of inputs and expirations leads through, the flow has emitted
one true for each input and one false for each expiration, exactly if the sequence has no
input. -/
theorem watches_iff (delay now : Nat) (calls : List (Call Input)) :
    (∀ made, made <+: calls → (after serve (constructed delay now) made).Watches) ↔
      ∀ call ∈ calls, call.isInput = false := by
  have exactly := prefixes_iff_along Watches (fun _ watches => watches)
    (fun _ call watches notInput => watches.serve call notInput)
    (fun _ call watches after => isInput_of_watches watches call after) calls _
    (watches_constructed delay now)
  exact exactly.trans (along_forall_iff serve (fun call => call.isInput = false) calls _)

/-- One input is answered twice, whatever the output variable held, and if that is false, the last
value is wrong as well. -/
theorem not_watches :
    (∀ uninitialised, ¬ (after serve (constructed 2000 0)
      [Call.on (0 : Nat) uninitialised 10]).Watches) ∧
      (after serve (constructed 2000 0) [Call.on (0 : Nat) false 10]).emitted =
        [false, true, false] := by
  refine ⟨fun uninitialised watches => ?_, rfl⟩
  exact not_watches_on (watches_constructed 2000 0) 0 uninitialised 10 watches

end TimeoutFlow

end BrokerProxy.Limero
