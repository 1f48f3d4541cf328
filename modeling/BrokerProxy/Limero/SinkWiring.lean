/-
This file models `operator>>`: which of its overloads an expression `f >> s` selects, and
what the selected one does to the listeners of `f`. The selection depends on the static
types of both operands. A class is given by its base classes, an overload is viable if its
parameters can be deduced and the operands converted to them, and the best overload is the
one whose parameters are base classes nearer to the operands.

All overloads subscribe the sink to their left operand, except for the one that takes a
flow and a sink: it casts the flow to `Source` by value, and subscribes the sink to the
copy that the cast makes.
-/

import Mathlib.Data.List.Basic

namespace BrokerProxy.Limero.Wiring

/-! ### Classes -/

/-- A class, by the types of the messages it carries: `Sink`, `Source`, `Flow` and `LambdaFlow`, or
a class with bases that declares no `operator>>` of its own. -/
inductive Class (T : Type)
  | sink (t : T)
  | source (t : T)
  | flow (input output : T)
  | lambdaFlow (input output : T)
  | derived (bases : List (Class T))

/-- The class of a part of an object. -/
inductive Part (T : Type)
  | sink (t : T)
  | source (t : T)
  | flow (input output : T)
  | lambdaFlow (input output : T)
  | derived
deriving DecidableEq

namespace Class

variable {T : Type}

mutual

/-- The parts of an object: the object itself and those of its base classes. -/
def parts : Class T → List (Part T)
  | .sink t => [.sink t]
  | .source t => [.source t]
  | .flow input output => [.flow input output, .sink input, .source output]
  | .lambdaFlow input output =>
      [.lambdaFlow input output, .flow input output, .sink input, .source output]
  | .derived bases => .derived :: partsOfBases bases

def partsOfBases : List (Class T) → List (Part T)
  | [] => []
  | base :: bases => base.parts ++ partsOfBases bases

end

mutual

/-- The parts in which the lookup of the member `operator>>` ends. `LambdaFlow` declares its own,
which hides that of its base class. -/
def declaring : Class T → List (Part T)
  | .sink _ => []
  | .source t => [.source t]
  | .flow _ output => [.source output]
  | .lambdaFlow input output => [.lambdaFlow input output]
  | .derived bases => declaringOfBases bases

def declaringOfBases : List (Class T) → List (Part T)
  | [] => []
  | base :: bases => base.declaring ++ declaringOfBases bases

end

end Class

namespace Part

variable {T : Type}

def asSink : Part T → Option T
  | .sink t => some t
  | _ => none

def asSource : Part T → Option T
  | .source t => some t
  | _ => none

def asFlow : Part T → Option (T × T)
  | .flow input output => some (input, output)
  | _ => none

/-- The type that a part which declares `operator>>` is the source of. -/
def output : Part T → Option T
  | .source t => some t
  | .lambdaFlow _ output => some output
  | _ => none

variable [DecidableEq T]

/-- The part derives from the other. -/
def derives : Part T → Part T → Bool
  | .flow input _, .sink t | .lambdaFlow input _, .sink t => input = t
  | .flow _ output, .source t | .lambdaFlow _ output, .source t => output = t
  | .lambdaFlow input output, .flow input' output' => input = input' ∧ output = output'
  | _, _ => false

end Part

namespace Class

variable {T : Type}

/-- The types of the `Sink`, `Source` and `Flow` parts. -/
def sinks (c : Class T) : List T := c.parts.filterMap Part.asSink

def sources (c : Class T) : List T := c.parts.filterMap Part.asSource

def flows (c : Class T) : List (T × T) := c.parts.filterMap Part.asFlow

theorem mem_sinks {s : Class T} {t : T} : t ∈ s.sinks ↔ Part.sink t ∈ s.parts := by
  unfold sinks
  rw [List.mem_filterMap]
  constructor
  · rintro ⟨part, member, found⟩
    cases part with
    | sink t' =>
      cases found
      exact member
    | _ => cases found
  · intro member
    exact ⟨_, member, rfl⟩

theorem mem_flows {s : Class T} {flow : T × T} :
    flow ∈ s.flows ↔ Part.flow flow.1 flow.2 ∈ s.parts := by
  unfold flows
  rw [List.mem_filterMap]
  constructor
  · rintro ⟨part, member, found⟩
    cases part with
    | flow input output =>
      cases found
      exact member
    | _ => cases found
  · intro member
    exact ⟨_, member, rfl⟩

mutual

/-- Every flow has a part that is the sink of its input. -/
theorem inputs_sublist (c : Class T) : (c.flows.map Prod.fst).Sublist c.sinks := by
  cases c with
  | sink t => exact List.nil_sublist _
  | source t => exact List.nil_sublist _
  | flow input output => exact List.Sublist.refl [input]
  | lambdaFlow input output => exact List.Sublist.refl [input]
  | derived bases => exact inputsOfBases_sublist bases

theorem inputsOfBases_sublist (bases : List (Class T)) :
    (((partsOfBases bases).filterMap Part.asFlow).map Prod.fst).Sublist
      ((partsOfBases bases).filterMap Part.asSink) := by
  cases bases with
  | nil => exact List.Sublist.refl []
  | cons base bases =>
    rw [partsOfBases, List.filterMap_append, List.filterMap_append, List.map_append]
    exact (inputs_sublist base).append (inputsOfBases_sublist bases)

end

mutual

/-- Every flow has a part that declares `operator>>` for its output. -/
theorem outputs_sublist (c : Class T) :
    (c.flows.map Prod.snd).Sublist (c.declaring.filterMap Part.output) := by
  cases c with
  | sink t => exact List.Sublist.refl []
  | source t => exact List.nil_sublist _
  | flow input output => exact List.Sublist.refl [output]
  | lambdaFlow input output => exact List.Sublist.refl [output]
  | derived bases => exact outputsOfBases_sublist bases

theorem outputsOfBases_sublist (bases : List (Class T)) :
    (((partsOfBases bases).filterMap Part.asFlow).map Prod.snd).Sublist
      ((declaringOfBases bases).filterMap Part.output) := by
  cases bases with
  | nil => exact List.Sublist.refl []
  | cons base bases =>
    rw [partsOfBases, declaringOfBases, List.filterMap_append, List.filterMap_append,
      List.map_append]
    exact (outputs_sublist base).append (outputsOfBases_sublist bases)

end

end Class

/-! ### The overloads -/

/-- The overloads of `operator>>`: the three members of `Source`, the member of `LambdaFlow`, and
the four templates, named by their parameters. -/
inductive Overload
  | memberSink
  | memberSinkPointer
  | memberFunction
  | lambdaFunction
  | sourceFlow
  | sourceFlowPointer
  | flowSink
  | flowFlow
deriving DecidableEq

/-- The right operand: an object, a pointer to one, or a function of a message. -/
inductive Operand (T : Type)
  | object (s : Class T)
  | pointer (s : Class T)
  | function (t : T)

/-- The second parameter of an overload. -/
inductive Parameter (T : Type)
  | reference (part : Part T)
  | pointer (part : Part T)
  | function (t : T)
deriving DecidableEq

/-- An overload with its parameters. -/
structure Candidate (T : Type) where
  overload : Overload
  left : Part T
  right : Parameter T
deriving DecidableEq

variable {T : Type} [DecidableEq T]

/-- What is deduced for a parameter of a template: the type of the only part of its kind. If parts
of different types fit, the deduction fails. -/
def deduce {Types : Type} [DecidableEq Types] : List Types → Option Types
  | [] => none
  | first :: others => if ∀ other ∈ others, other = first then some first else none

/-- `Source::operator>>`, `LambdaFlow::operator>>`: the members that the lookup finds. -/
def members (f : Class T) : List (Candidate T) :=
  match f.declaring with
  | [.source t] =>
      [{ overload := .memberSink, left := .source t, right := .reference (.sink t) },
        { overload := .memberSinkPointer, left := .source t, right := .pointer (.sink t) },
        { overload := .memberFunction, left := .source t, right := .function t }]
  | [.lambdaFlow input output] =>
      [{ overload := .lambdaFunction, left := .lambdaFlow input output, right := .function output }]
  | _ => []

/-- The templates of a source and a flow, of which one takes a pointer. -/
def sourceFlow (overload : Overload) (parameter : Part T → Parameter T) (f s : Class T) :
    Option (Candidate T) :=
  (deduce f.sources).bind fun t => (deduce s.flows).bind fun flow =>
    if flow.1 = t then
      some { overload := overload, left := .source t, right := parameter (.flow flow.1 flow.2) }
    else none

/-- The template of a flow and a sink. -/
def flowSink (f s : Class T) : Option (Candidate T) :=
  (deduce f.flows).bind fun flow => (deduce s.sinks).bind fun t =>
    if flow.2 = t then
      some { overload := .flowSink, left := .flow flow.1 flow.2, right := .reference (.sink t) }
    else none

/-- The template of two flows. -/
def flowFlow (f s : Class T) : Option (Candidate T) :=
  (deduce f.flows).bind fun flow1 => (deduce s.flows).bind fun flow2 =>
    if flow1.2 = flow2.1 then
      some
        { overload := .flowFlow
          left := .flow flow1.1 flow1.2
          right := .reference (.flow flow2.1 flow2.2) }
    else none

/-- The templates whose parameters can be deduced. -/
def templates (f : Class T) : Operand T → List (Candidate T)
  | .object s =>
      (sourceFlow .sourceFlow .reference f s).toList ++ (flowSink f s).toList ++
        (flowFlow f s).toList
  | .pointer s => (sourceFlow .sourceFlowPointer .pointer f s).toList
  | .function _ => []

/-! ### The selection -/

/-- How often the right operand has the part that the parameter asks for. -/
def Operand.conversions : Operand T → Parameter T → Nat
  | .object s, .reference part => s.parts.count part
  | .pointer s, .pointer part => s.parts.count part
  | .function t, .function t' => if t = t' then 1 else 0
  | _, _ => 0

/-- The overloads that are viable. -/
def candidates (f : Class T) (s : Operand T) : List (Candidate T) :=
  (members f ++ templates f s).filter fun candidate => s.conversions candidate.right ≠ 0

def Parameter.derives : Parameter T → Parameter T → Bool
  | .reference part, .reference other | .pointer part, .pointer other => part.derives other
  | _, _ => false

/-- One overload is better than another: one of its parameters is nearer to the operand, and none of
the other is. No two overloads have the same parameters. -/
def Candidate.better (candidate other : Candidate T) : Bool :=
  (candidate.left.derives other.left || candidate.right.derives other.right) &&
    !other.left.derives candidate.left && !other.right.derives candidate.right

/-- The overload that is better than every other one. -/
def best (candidates : List (Candidate T)) : Option (Candidate T) :=
  candidates.find? fun candidate =>
    candidates.all fun other => other = candidate || candidate.better other

/-- The overload that `f >> s` selects. There is none if the lookup of the member is ambiguous, if
no overload is the best, or if a part that it takes occurs more than once. -/
def select (f : Class T) (s : Operand T) : Option (Candidate T) :=
  if f.declaring.length ≤ 1 then
    (best (candidates f s)).filter fun candidate =>
      f.parts.count candidate.left = 1 ∧ s.conversions candidate.right = 1
  else none

/-! ### What is selected -/

theorem deduce_eq_some {Types : Type} [DecidableEq Types] {types : List Types} {type : Types}
    (deduced : deduce types = some type) : types ≠ [] ∧ ∀ other ∈ types, other = type := by
  cases types with
  | nil => cases deduced
  | cons first others =>
    rw [deduce] at deduced
    split at deduced
    · rename_i same
      cases deduced
      exact ⟨List.cons_ne_nil _ _, List.forall_mem_cons.mpr ⟨rfl, same⟩⟩
    · cases deduced

theorem deduce_singleton {Types : Type} [DecidableEq Types] (type : Types) :
    deduce [type] = some type := by
  rw [deduce, if_pos (List.forall_mem_nil _)]

/-- A selected overload is viable, and better than every other viable one. -/
theorem of_select {f : Class T} {s : Operand T} {candidate : Candidate T}
    (selected : select f s = some candidate) :
    f.declaring.length ≤ 1 ∧ candidate ∈ candidates f s ∧
      (∀ other ∈ candidates f s, other = candidate ∨ candidate.better other = true) ∧
      f.parts.count candidate.left = 1 ∧ s.conversions candidate.right = 1 := by
  unfold select at selected
  split at selected
  · rename_i unambiguous
    obtain ⟨isBest, once⟩ := Option.filter_eq_some_iff.mp selected
    have holds := List.find?_some (p := fun candidate => (candidates f s).all fun other =>
      other = candidate || candidate.better other) isBest
    have better := List.all_eq_true.mp holds
    obtain ⟨left, right⟩ := of_decide_eq_true once
    refine ⟨unambiguous, List.mem_of_find?_eq_some isBest, fun other member => ?_, left, right⟩
    rcases Bool.or_eq_true_iff.mp (better other member) with same | isBetter
    · exact Or.inl (of_decide_eq_true same)
    · exact Or.inr isBetter
  · cases selected

/-- An overload is not better than one that has a parameter nearer to the operand. -/
theorem not_nearer_of_better {candidate other : Candidate T}
    (better : candidate.better other = true) :
    other.left.derives candidate.left = false ∧ other.right.derives candidate.right = false := by
  unfold Candidate.better at better
  obtain ⟨both, right⟩ := Bool.and_eq_true_iff.mp better
  obtain ⟨-, left⟩ := Bool.and_eq_true_iff.mp both
  exact ⟨(Bool.not_eq_true' _).mp left, (Bool.not_eq_true' _).mp right⟩

theorem mem_candidates {f : Class T} {s : Operand T} {candidate : Candidate T} :
    candidate ∈ candidates f s ↔
      (candidate ∈ members f ∨ candidate ∈ templates f s) ∧ s.conversions candidate.right ≠ 0 := by
  unfold candidates
  rw [List.mem_filter, List.mem_append, decide_eq_true_iff]

/-- A member is the one of `Source` that takes a sink, or takes no object. -/
theorem members_cases {f : Class T} {candidate : Candidate T} (member : candidate ∈ members f) :
    (∃ t, f.declaring = [.source t] ∧ candidate =
        { overload := .memberSink, left := .source t, right := .reference (.sink t) }) ∨
      (candidate.overload ≠ .flowSink ∧
        ∀ s, (Operand.object s).conversions candidate.right = 0) := by
  unfold members at member
  split at member
  · rename_i t declares
    rcases List.mem_cons.mp member with rfl | member
    · exact Or.inl ⟨t, declares, rfl⟩
    · rcases List.mem_cons.mp member with rfl | member
      · exact Or.inr ⟨nofun, fun _ => rfl⟩
      · cases List.mem_singleton.mp member
        exact Or.inr ⟨nofun, fun _ => rfl⟩
  · cases List.mem_singleton.mp member
    exact Or.inr ⟨nofun, fun _ => rfl⟩
  · cases member

theorem mem_templates_object {f s : Class T} {candidate : Candidate T} :
    candidate ∈ templates f (.object s) ↔
      sourceFlow .sourceFlow .reference f s = some candidate ∨
        flowSink f s = some candidate ∨ flowFlow f s = some candidate := by
  rw [templates, List.mem_append, List.mem_append, Option.mem_toList, Option.mem_toList,
    Option.mem_toList, or_assoc]

theorem of_sourceFlow {overload : Overload} {parameter : Part T → Parameter T} {f s : Class T}
    {candidate : Candidate T} (found : sourceFlow overload parameter f s = some candidate) :
    candidate.overload = overload ∧ s.flows ≠ [] := by
  obtain ⟨t, -, rest⟩ := Option.bind_eq_some_iff.mp found
  obtain ⟨flow, deduced, rest⟩ := Option.bind_eq_some_iff.mp rest
  split at rest
  · cases rest
    exact ⟨rfl, (deduce_eq_some deduced).1⟩
  · cases rest

theorem of_flowFlow {f s : Class T} {candidate : Candidate T}
    (found : flowFlow f s = some candidate) :
    candidate.overload = .flowFlow ∧ s.flows ≠ [] := by
  obtain ⟨flow1, -, rest⟩ := Option.bind_eq_some_iff.mp found
  obtain ⟨flow2, deduced, rest⟩ := Option.bind_eq_some_iff.mp rest
  split at rest
  · cases rest
    exact ⟨rfl, (deduce_eq_some deduced).1⟩
  · cases rest

theorem flowFlow_of {f s : Class T} {input t output : T}
    (first : deduce f.flows = some (input, t)) (second : deduce s.flows = some (t, output)) :
    flowFlow f s = some
      { overload := .flowFlow, left := .flow input t, right := .reference (.flow t output) } := by
  rw [flowFlow, first, Option.bind_some, second, Option.bind_some, if_pos rfl]

theorem flowSink_eq_some_iff {f s : Class T} {candidate : Candidate T} :
    flowSink f s = some candidate ↔
      ∃ input t, deduce f.flows = some (input, t) ∧ deduce s.sinks = some t ∧ candidate =
        { overload := .flowSink, left := .flow input t, right := .reference (.sink t) } := by
  constructor
  · intro found
    obtain ⟨⟨input, output⟩, first, rest⟩ := Option.bind_eq_some_iff.mp found
    obtain ⟨t, second, rest⟩ := Option.bind_eq_some_iff.mp rest
    split at rest
    · rename_i same
      cases rest
      cases same
      exact ⟨input, output, first, second, rfl⟩
    · cases rest
  · rintro ⟨input, t, first, second, rfl⟩
    rw [flowSink, first, Option.bind_some, second, Option.bind_some, if_pos rfl]

/-- A class has no flow among its parts, but is a sink of messages of one type. -/
def Class.OnlySink (s : Class T) : Prop := s.flows = [] ∧ (deduce s.sinks).isSome = true

/-- An object that has one `Sink` part, for the output of one of its flows, has no second flow. -/
theorem flows_of_single_sink {s : Class T} {t : T} (deduced : deduce s.sinks = some t)
    (once : s.parts.count (.sink t) = 1) (isFlow : s.flows ≠ []) :
    ∃ output, s.flows = [(t, output)] := by
  have all := (deduce_eq_some deduced).2
  have count : s.sinks.count t = s.parts.count (.sink t) := by
    rw [Class.sinks, List.count_filterMap, List.count_eq_countP]
    refine List.countP_congr fun part _ => ?_
    rw [beq_iff_eq, beq_iff_eq]
    cases part with
    | sink t' => exact ⟨fun same => congrArg Part.sink (Option.some.inj same),
        fun same => congrArg some (Part.sink.inj same)⟩
    | _ => exact ⟨nofun, nofun⟩
  have length : s.sinks.length = 1 := by
    rw [← List.count_eq_length.mpr fun other member => (all other member).symm, count, once]
  have inputs := s.inputs_sublist
  have short := inputs.length_le
  rw [List.length_map, length] at short
  cases flows : s.flows with
  | nil => exact absurd flows isFlow
  | cons flow others =>
    rw [flows, List.length_cons] at short
    rw [flows] at inputs
    have nothing : others = [] := List.length_eq_zero_iff.mp (by omega)
    have isSink : flow.1 ∈ s.sinks := inputs.subset (List.mem_map_of_mem List.mem_cons_self)
    refine ⟨flow.2, ?_⟩
    rw [nothing, ← all flow.1 isSink]

/-- A flow whose member `operator>>` is that of `Source` has one type of messages. -/
theorem deduce_flows_of_declaring {f : Class T} {t : T} (declares : f.declaring = [.source t])
    (isFlow : f.flows ≠ []) : ∃ input, deduce f.flows = some (input, t) := by
  have outputs := f.outputs_sublist
  rw [declares] at outputs
  have outputs : (f.flows.map Prod.snd).Sublist [t] := outputs
  rcases List.sublist_singleton.mp outputs with none | one
  · exact absurd (List.map_eq_nil_iff.mp none) isFlow
  · obtain ⟨flow, flows, rfl⟩ := List.map_eq_singleton_iff.mp one
    exact ⟨flow.1, by rw [flows, deduce_singleton]⟩

/-- The template of a flow and a sink is selected exactly for a flow and an object that is only a
sink. -/
theorem select_flowSink_iff {f : Class T} {s : Operand T} {candidate : Candidate T}
    (selected : select f s = some candidate) :
    candidate.overload = .flowSink ↔ f.flows ≠ [] ∧ ∃ c, s = .object c ∧ c.OnlySink := by
  obtain ⟨-, viable, isBest, -, once⟩ := of_select selected
  obtain ⟨found, converts⟩ := mem_candidates.mp viable
  constructor
  · intro isFlowSink
    rcases found with member | template
    · rcases members_cases member with ⟨t, -, rfl⟩ | ⟨other, -⟩
      · cases isFlowSink
      · exact absurd isFlowSink other
    · cases s with
      | function t => cases template
      | pointer c =>
        have other := (of_sourceFlow (Option.mem_toList.mp template)).1
        cases isFlowSink.symm.trans other
      | object c =>
        rcases mem_templates_object.mp template with sourceFlow | flowSink | flowFlow
        · cases isFlowSink.symm.trans (of_sourceFlow sourceFlow).1
        · obtain ⟨input, t, first, second, rfl⟩ := flowSink_eq_some_iff.mp flowSink
          refine ⟨(deduce_eq_some first).1, c, rfl, ?_, by rw [second]; rfl⟩
          by_contra isFlow
          -- The template of two flows would be better.
          obtain ⟨output, flows⟩ := flows_of_single_sink second once isFlow
          have both := flowFlow_of first (show deduce c.flows = some (t, output) by
            rw [flows, deduce_singleton])
          have there : Part.flow t output ∈ c.parts :=
            Class.mem_flows.mp (by rw [flows]; exact List.mem_singleton_self _)
          have viable := mem_candidates.mpr ⟨Or.inr (mem_templates_object.mpr (Or.inr
            (Or.inr both))), Nat.pos_iff_ne_zero.mp (List.count_pos_iff.mpr there)⟩
          rcases isBest _ viable with same | better
          · cases same
          · exact absurd rfl (of_decide_eq_false (not_nearer_of_better better).2)
        · cases isFlowSink.symm.trans (of_flowFlow flowFlow).1
  · rintro ⟨isFlow, c, rfl, noFlow, isSink⟩
    rcases found with member | template
    · rcases members_cases member with ⟨t, declares, rfl⟩ | ⟨-, inconvertible⟩
      · -- The template of a flow and a sink would be better.
        obtain ⟨input, first⟩ := deduce_flows_of_declaring declares isFlow
        obtain ⟨type, second⟩ := Option.isSome_iff_exists.mp isSink
        have there : Part.sink t ∈ c.parts := List.count_pos_iff.mp (Nat.pos_of_ne_zero converts)
        have same := (deduce_eq_some second).2 t (Class.mem_sinks.mpr there)
        subst same
        have nearer := flowSink_eq_some_iff.mpr ⟨input, t, first, second, rfl⟩
        have viable := mem_candidates.mpr ⟨Or.inr (mem_templates_object.mpr (Or.inr
          (Or.inl nearer))), converts⟩
        rcases isBest _ viable with same | better
        · cases same
        · exact absurd rfl (of_decide_eq_false (not_nearer_of_better better).1)
      · exact absurd (inconvertible c) converts
    · rcases mem_templates_object.mp template with sourceFlow | flowSink | flowFlow
      · exact absurd noFlow (of_sourceFlow sourceFlow).2
      · obtain ⟨input, t, -, -, rfl⟩ := flowSink_eq_some_iff.mp flowSink
        rfl
      · exact absurd noFlow (of_flowFlow flowFlow).2

/-! ### Listeners -/

/-- A `Source`: its listeners, and the last message. -/
structure Source (Listener Message : Type) where
  listeners : List Listener
  last : Option Message

variable {Listener Message : Type}

/-- `subscribe`. -/
def Source.subscribe (source : Source Listener Message) (listener : Listener) :
    Source Listener Message :=
  { source with listeners := source.listeners ++ [listener] }

/-- `emit`, with the calls of `on` that it makes. -/
def Source.emit (source : Source Listener Message) (t : Message) :
    Source Listener Message × List (Listener × Message) :=
  ({ source with last := some t }, source.listeners.map fun listener => (listener, t))

/-- What an overload leaves of its left operand. A function is wrapped in a sink first. -/
def Overload.shift (overload : Overload) (f : Source Listener Message) (s : Listener) :
    Source Listener Message :=
  match overload with
  | .memberSink | .memberSinkPointer | .memberFunction | .lambdaFunction => f.subscribe s
  | .sourceFlow | .sourceFlowPointer | .flowFlow => f.subscribe s
  | .flowSink =>
      -- The cast to `Source` by value makes a copy, which is subscribed to and then destroyed.
      let copied := f
      let _copied := copied.subscribe s
      f

/-- All overloads but one subscribe the sink to their left operand. -/
theorem shift_listeners {overload : Overload} (subscribes : overload ≠ .flowSink)
    (f : Source Listener Message) (s : Listener) :
    (overload.shift f s).listeners = f.listeners ++ [s] := by
  cases overload with
  | flowSink => exact absurd rfl subscribes
  | _ => rfl

/-- What can happen to a source: it emits a message, or is the left operand of `operator>>`. -/
inductive SourceEvent (Listener Message : Type)
  | emit (t : Message)
  | shift (overload : Overload) (s : Listener)

/-- The messages that a source emits. -/
def emissions : List (SourceEvent Listener Message) → List Message
  | [] => []
  | .emit t :: events => t :: emissions events
  | .shift _ _ :: events => emissions events

/-- The messages that a sink receives from a source. -/
def received [DecidableEq Listener] (sink : Listener) :
    Source Listener Message → List (SourceEvent Listener Message) → List Message
  | _, [] => []
  | source, .emit t :: events =>
      ((source.emit t).2.filter (·.1 = sink)).map Prod.snd ++ received sink (source.emit t).1 events
  | source, .shift overload s :: events => received sink (overload.shift source s) events

variable [DecidableEq Listener]

/-- The sink is added to the listeners of the source, and if it was none of them, it receives the
messages that the source emits from then on, while other sinks may come. -/
structure Wired (overload : Overload) (f : Source Listener Message) (sink : Listener) : Prop where
  added : (overload.shift f sink).listeners = f.listeners ++ [sink]
  receives : sink ∉ f.listeners → ∀ events : List (SourceEvent Listener Message),
    (∀ other s, .shift other s ∈ events → s ≠ sink) →
      received sink (overload.shift f sink) events = emissions events

/-- A listener is called once for each time that it was added. -/
theorem emit_calls (source : Source Listener Message) (t : Message) (sink : Listener) :
    ((source.emit t).2.filter (·.1 = sink)).map Prod.snd =
      List.replicate (source.listeners.count sink) t := by
  show ((source.listeners.map fun listener => (listener, t)).filter (·.1 = sink)).map Prod.snd = _
  induction source.listeners with
  | nil => rfl
  | cons listener others inductionHypothesis =>
    rw [List.map_cons]
    by_cases same : listener = sink
    · rw [List.filter_cons_of_pos (p := fun call : Listener × Message => decide (call.1 = sink))
        (decide_eq_true same), List.map_cons, inductionHypothesis, same, List.count_cons_self,
        List.replicate_succ]
    · rw [List.filter_cons_of_neg (p := fun call : Listener × Message => decide (call.1 = sink))
        (by rwa [decide_eq_true_iff]), inductionHypothesis, List.count_cons_of_ne same]

theorem count_shift {sink s : Listener} (other : s ≠ sink) (overload : Overload)
    (source : Source Listener Message) :
    (overload.shift source s).listeners.count sink = source.listeners.count sink := by
  by_cases copies : overload = .flowSink
  · rw [copies]
    rfl
  · rw [shift_listeners copies, List.count_append, List.count_singleton, beq_eq_false_iff_ne.mpr
      other, if_neg Bool.false_ne_true, Nat.add_zero]

/-- A sink that was added once receives each message once. -/
theorem received_of_once {sink : Listener} {source : Source Listener Message}
    (once : source.listeners.count sink = 1) (events : List (SourceEvent Listener Message))
    (others : ∀ overload s, .shift overload s ∈ events → s ≠ sink) :
    received sink source events = emissions events := by
  induction events generalizing source with
  | nil => rfl
  | cons event events inductionHypothesis =>
    have later : ∀ overload s, .shift overload s ∈ events → s ≠ sink :=
      fun overload s member => others overload s (List.mem_cons_of_mem _ member)
    cases event with
    | emit t =>
      rw [received, emissions, emit_calls, once, inductionHypothesis _ later]
      · rfl
      · exact once
    | shift overload s =>
      rw [received, emissions]
      refine inductionHypothesis ?_ later
      rw [count_shift (others overload s List.mem_cons_self), once]

/-- The sink is wired unless the template of a flow and a sink is selected. -/
theorem wired_iff (overload : Overload) (f : Source Listener Message) (sink : Listener) :
    Wired overload f sink ↔ overload ≠ .flowSink := by
  constructor
  · rintro wired rfl
    exact List.cons_ne_nil _ _ (List.self_eq_append_right.mp wired.added)
  · intro subscribes
    have added := shift_listeners subscribes f sink
    refine ⟨added, fun fresh events others => received_of_once ?_ events others⟩
    rw [added, List.count_append, List.count_eq_zero.mpr fresh, List.count_singleton_self]

/-- Whatever overload `f >> s` selects, the sink is wired unless `f` is a flow and `s` an object
that is a sink and no flow. -/
theorem shift_wired_iff {f : Class T} {s : Operand T} {candidate : Candidate T}
    (selected : select f s = some candidate) (source : Source Listener Message)
    (sink : Listener) :
    Wired candidate.overload source sink ↔
      ¬ (f.flows ≠ [] ∧ ∃ c, s = .object c ∧ c.OnlySink) := by
  rw [wired_iff, ← select_flowSink_iff selected]

/-! ### Expressions of the programs -/

/-- `LambdaSource`. -/
def lambdaSource (t : T) : Class T := .derived [.source t]

/-- `ValueFlow`, with its other base class `Invoker`. -/
def valueFlow (t : T) : Class T := .derived [.flow t t, .derived []]

/-- `Cache`, which is also the sink of its timer. -/
def cache (t timerMsg : T) : Class T := .derived [.flow t t, .sink timerMsg]

/-- The types of messages of these expressions. -/
inductive MessageType
  | string
  | timerMsg
deriving DecidableEq

-- A flow behind a flow, also one that is a sink of two types.
example : (select (valueFlow MessageType.string) (.object (valueFlow .string))).map
    Candidate.overload = some .flowFlow := by decide

example : (select (valueFlow MessageType.string) (.object (cache .string .timerMsg))).map
    Candidate.overload = some .flowFlow := by decide

/-- `systemHostname >> brkr.publisher<std::string>("system/hostname")`: a source and a sink. -/
theorem shift_wired_hostname :
    ∃ candidate, select (lambdaSource MessageType.string) (.object (.sink .string)) =
        some candidate ∧
      Wired candidate.overload (Source.mk [] (none : Option Nat)) () := by
  have selected : select (lambdaSource MessageType.string) (.object (.sink .string)) =
      some { overload := .memberSink, left := .source .string,
             right := .reference (.sink .string) } := by decide
  refine ⟨_, selected, (shift_wired_iff selected _ ()).mpr ?_⟩
  rintro ⟨isFlow, -⟩
  exact isFlow rfl

/-- `systemBuild >> brkr.publisher<std::string>("system/build")`: a flow and a sink. The sink is
not added to the listeners of the flow, and receives nothing. -/
theorem shift_drops_build :
    ∃ candidate, select (valueFlow MessageType.string) (.object (.sink .string)) =
        some candidate ∧
      received () (candidate.overload.shift (Source.mk [] (none : Option Nat)) ()) [.emit 1] = [] ∧
      ¬ Wired candidate.overload (Source.mk [] (none : Option Nat)) () := by
  refine ⟨{ overload := .flowSink, left := .flow .string .string,
            right := .reference (.sink .string) }, by decide, rfl, fun wired => ?_⟩
  cases wired.added

end BrokerProxy.Limero.Wiring
