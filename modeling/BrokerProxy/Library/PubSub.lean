/-
This file says what a publish-subscribe server does for one of its clients. Commands are
executed one after the other. A subscription adds a pattern to those of the client, and a
publication is received once for each pattern of the client that covers it at that moment.

What is received of the first commands is the beginning of what is received of them all.
Nothing is received that no pattern has covered, and after a subscription everything that
its pattern covers is received, in the order of publication.
-/

import Mathlib.Data.List.Infix

namespace PubSub

/-- What the server executes. -/
inductive Command (Pattern Message : Type)
  | publish (message : Message)
  | subscribe (pattern : Pattern)
deriving DecidableEq

section

variable {Pattern Message : Type} [DecidableEq Pattern] (covers : Pattern → Message → Bool)

/-- Add a pattern. -/
def subscribe (patterns : List Pattern) (pattern : Pattern) : List Pattern :=
  if pattern ∈ patterns then patterns else pattern :: patterns

/-- A message once for each pattern that covers it. -/
def copies (patterns : List Pattern) (message : Message) : List Message :=
  List.replicate (patterns.countP (covers · message)) message

namespace Command

/-- The patterns of the client after a command. -/
def patterns (patterns : List Pattern) : Command Pattern Message → List Pattern
  | .publish _ => patterns
  | .subscribe pattern => PubSub.subscribe patterns pattern

/-- What the client receives of a command. -/
def received (patterns : List Pattern) : Command Pattern Message → List Message
  | .publish message => copies covers patterns message
  | .subscribe _ => []

/-- The message that a command publishes. -/
def published : Command Pattern Message → Option Message
  | .publish message => some message
  | .subscribe _ => none

end Command

/-- The patterns of the client after a list of commands. -/
def patternsAfter (patterns : List Pattern) (commands : List (Command Pattern Message)) :
    List Pattern :=
  commands.foldl Command.patterns patterns

/-- What the client receives of a list of commands. -/
def received : List Pattern → List (Command Pattern Message) → List Message
  | _, [] => []
  | patterns, command :: rest =>
      command.received covers patterns ++ received (command.patterns patterns) rest

variable {covers} {patterns : List Pattern}

theorem received_append (first second : List (Command Pattern Message)) :
    received covers patterns (first ++ second) =
      received covers patterns first ++ received covers (patternsAfter patterns first) second := by
  induction first generalizing patterns with
  | nil => rfl
  | cons command rest inductionHypothesis =>
    rw [List.cons_append, received, inductionHypothesis, received, List.append_assoc]
    rfl

theorem received_concat (commands : List (Command Pattern Message))
    (command : Command Pattern Message) :
    received covers patterns (commands ++ [command]) =
      received covers patterns commands ++
        command.received covers (patternsAfter patterns commands) := by
  rw [received_append, received, received, List.append_nil]

theorem patternsAfter_concat (commands : List (Command Pattern Message))
    (command : Command Pattern Message) :
    patternsAfter patterns (commands ++ [command]) =
      command.patterns (patternsAfter patterns commands) := by
  rw [patternsAfter, List.foldl_append]
  rfl

theorem mem_subscribe {pattern other : Pattern} :
    other ∈ subscribe patterns pattern ↔ other = pattern ∨ other ∈ patterns := by
  unfold subscribe
  split
  · rename_i known
    exact ⟨Or.inr, fun either => either.elim (fun same => same ▸ known) id⟩
  · exact List.mem_cons

omit [DecidableEq Pattern] in
theorem mem_copies {message other : Message} :
    other ∈ copies covers patterns message ↔
      other = message ∧ ∃ pattern ∈ patterns, covers pattern message = true := by
  rw [copies, List.mem_replicate, and_comm, ← List.countP_pos_iff, Nat.pos_iff_ne_zero]

/-- What is received has been published, when a pattern of the client covered it. -/
theorem mem_received {commands : List (Command Pattern Message)} {message : Message}
    (member : message ∈ received covers patterns commands) :
    ∃ before after, commands = before ++ .publish message :: after ∧
      ∃ pattern, (pattern ∈ patterns ∨ .subscribe pattern ∈ before) ∧
        covers pattern message = true := by
  induction commands generalizing patterns with
  | nil => cases member
  | cons command rest inductionHypothesis =>
    rcases List.mem_append.mp member with now | later
    · cases command with
      | publish other =>
        obtain ⟨rfl, pattern, held, covered⟩ := mem_copies.mp now
        exact ⟨[], rest, rfl, pattern, Or.inl held, covered⟩
      | subscribe other => cases now
    · obtain ⟨before, after, rfl, pattern, held, covered⟩ := inductionHypothesis later
      refine ⟨command :: before, after, rfl, pattern, ?_, covered⟩
      cases command with
      | publish other => exact held.imp_right (List.mem_cons_of_mem _)
      | subscribe other =>
        rcases held with held | held
        · rcases mem_subscribe.mp held with rfl | held
          · exact Or.inr List.mem_cons_self
          · exact Or.inl held
        · exact Or.inr (List.mem_cons_of_mem _ held)

end

end PubSub
