/-
This file models the subscriptions of `BrokerZenoh`: the calls `connect`, `disconnect`,
`subscribe` and `unSubscribe`, with any outcome of opening the session and of declaring a
subscriber, beside what the session knows of the declarations.

The registry of patterns and the declarations agree until `unSubscribe` is called for a
registered pattern: it undeclares the subscriber and keeps the pattern, so a later
`subscribe` of the pattern declares nothing, and a later `unSubscribe` or `disconnect`
undeclares the subscriber again. The flag that `connect` sets is the opposite of what it
is called.

The publishers of the broker are left out: nothing in the repository adds one.
-/

import BrokerProxy.Library.Serving
import Mathlib.Data.List.Nodup

namespace BrokerProxy.Broker

open Serving

/-! ### The session -/

/-- What a session knows of its subscribers, which are numbered in the order of their declaration:
the next number, the subscribers declared and not yet undeclared with their patterns, and the
number of every subscriber that was undeclared, latest first. -/
structure Declarations where
  fresh : Nat
  declared : List (String × Nat)
  undeclared : List Nat
deriving DecidableEq

/-- `zn_declare_subscriber`, where it succeeds. -/
def Declarations.declare (session : Declarations) (pattern : String) : Declarations :=
  { session with
    fresh := session.fresh + 1
    declared := session.declared ++ [(pattern, session.fresh)] }

/-- `zn_undeclare_subscriber`. -/
def Declarations.undeclare (session : Declarations) (subscriber : Nat) : Declarations :=
  { session with
    declared := session.declared.filter fun entry => entry.2 ≠ subscriber
    undeclared := subscriber :: session.undeclared }

/-! ### The broker -/

/-- A `BrokerZenoh` and its session: whether `_zenoh_session` is set, the registry `_subscribers`
with the subscriber of each pattern, the value of `_connected`, the declarations, and whether
`connect` was the last call. -/
structure BrokerZenoh where
  zenohSession : Bool
  subscribers : List (String × Nat)
  connected : Bool
  session : Declarations
  justConnected : Bool
deriving DecidableEq

namespace BrokerZenoh

/-- The constructor. It leaves `_connected` as it is. -/
def constructed (connected : Bool) : BrokerZenoh where
  zenohSession := false
  subscribers := []
  connected := connected
  session := { fresh := 0, declared := [], undeclared := [] }
  justConnected := false

/-- `connect`, given whether `zn_open` succeeds. -/
def connect (broker : BrokerZenoh) (opened : Bool) : Int × BrokerZenoh :=
  let zenohSession := if broker.zenohSession = false then opened else broker.zenohSession
  (if zenohSession = false then -1 else 0,
    { broker with
      zenohSession := zenohSession
      connected := if zenohSession = false then true else false
      justConnected := true })

/-- `disconnect`. -/
def disconnect (broker : BrokerZenoh) : Int × BrokerZenoh :=
  (0,
    { broker with
      session := broker.subscribers.foldl (fun session entry => session.undeclare entry.2)
        broker.session
      subscribers := []
      connected := false
      justConnected := false })

/-- `_subscribers.find`. -/
def find (broker : BrokerZenoh) (pattern : String) : Option (String × Nat) :=
  broker.subscribers.find? fun entry => entry.1 = pattern

/-- `subscribe`, given whether `zn_declare_subscriber` succeeds. -/
def subscribe (broker : BrokerZenoh) (pattern : String) (declared : Bool) : Int × BrokerZenoh :=
  let broker := { broker with justConnected := false }
  if broker.find pattern = none then
    if declared = false then (-1, broker)
    else
      (0,
        { broker with
          session := broker.session.declare pattern
          subscribers := broker.subscribers ++ [(pattern, broker.session.fresh)] })
  else (0, broker)

/-- `unSubscribe`. -/
def unSubscribe (broker : BrokerZenoh) (pattern : String) : Int × BrokerZenoh :=
  let broker := { broker with justConnected := false }
  match broker.find pattern with
  | none => (0, broker)
  | some entry => (0, { broker with session := broker.session.undeclare entry.2 })

/-- A call of the broker, with the outcome of what it calls. -/
inductive Call
  | connect (opened : Bool)
  | disconnect
  | subscribe (pattern : String) (declared : Bool)
  | unSubscribe (pattern : String)

/-- A call: what it returns, and the broker afterwards. -/
def serve (broker : BrokerZenoh) : Call → Int × BrokerZenoh
  | .connect opened => broker.connect opened
  | .disconnect => broker.disconnect
  | .subscribe pattern declared => broker.subscribe pattern declared
  | .unSubscribe pattern => broker.unSubscribe pattern

/-! ### What is to hold -/

/-- The registry has a pattern exactly when a subscriber for it is declared, and no subscriber has
been undeclared twice. -/
structure Registered (broker : BrokerZenoh) : Prop where
  pattern_iff : ∀ pattern, pattern ∈ broker.subscribers.map Prod.fst ↔
    pattern ∈ broker.session.declared.map Prod.fst
  once : broker.session.undeclared.Nodup

/-- The registry is right, and after `connect` the flag tells whether the session is open. -/
structure Consistent (broker : BrokerZenoh) : Prop where
  registered : broker.Registered
  flag : broker.justConnected = true → (broker.connected = true ↔ broker.zenohSession = true)

/-- The calls that keep the registry right: all but `unSubscribe` for a registered pattern. -/
def KeepsRegistered (broker : BrokerZenoh) : Call → Prop
  | .unSubscribe pattern => pattern ∉ broker.subscribers.map Prod.fst
  | _ => True

/-- The calls that keep everything right: of these, all but `connect`. -/
def KeepsConsistent (broker : BrokerZenoh) : Call → Prop
  | .connect _ => False
  | call => broker.KeepsRegistered call

/-- The registry is the list of declarations, its patterns and subscribers are different, and no
subscriber in it has been undeclared. -/
structure Tracked (broker : BrokerZenoh) : Prop where
  same : broker.session.declared = broker.subscribers
  patterns : (broker.subscribers.map Prod.fst).Nodup
  numbers : (broker.subscribers.map Prod.snd).Nodup
  below : ∀ entry ∈ broker.subscribers, entry.2 < broker.session.fresh
  undeclaredBelow : ∀ subscriber ∈ broker.session.undeclared, subscriber < broker.session.fresh
  apart : ∀ entry ∈ broker.subscribers, entry.2 ∉ broker.session.undeclared
  once : broker.session.undeclared.Nodup

theorem Tracked.registered {broker : BrokerZenoh} (tracked : broker.Tracked) :
    broker.Registered where
  pattern_iff pattern := by rw [tracked.same]
  once := tracked.once

theorem tracked_constructed (connected : Bool) : (constructed connected).Tracked where
  same := rfl
  patterns := List.nodup_nil
  numbers := List.nodup_nil
  below _ member := absurd member List.not_mem_nil
  undeclaredBelow _ member := absurd member List.not_mem_nil
  apart _ member := absurd member List.not_mem_nil
  once := List.nodup_nil

/-! ### The calls -/

/-- Only the registry and the declarations matter to the registry. -/
theorem Tracked.congr {broker other : BrokerZenoh} (tracked : broker.Tracked)
    (subscribers : other.subscribers = broker.subscribers)
    (session : other.session = broker.session) : other.Tracked where
  same := by rw [subscribers, session, tracked.same]
  patterns := by rw [subscribers]; exact tracked.patterns
  numbers := by rw [subscribers]; exact tracked.numbers
  below := by rw [subscribers, session]; exact tracked.below
  undeclaredBelow := by rw [session]; exact tracked.undeclaredBelow
  apart := by rw [subscribers, session]; exact tracked.apart
  once := by rw [session]; exact tracked.once

theorem find_none_iff (broker : BrokerZenoh) (pattern : String) :
    broker.find pattern = none ↔ pattern ∉ broker.subscribers.map Prod.fst := by
  rw [find, List.find?_eq_none, List.mem_map, not_exists]
  refine forall_congr' fun entry => ?_
  rw [not_and, decide_eq_true_eq]

theorem mem_of_find {broker : BrokerZenoh} {pattern : String} {entry : String × Nat}
    (found : broker.find pattern = some entry) :
    entry ∈ broker.subscribers ∧ entry.1 = pattern := by
  rw [find] at found
  have named := List.find?_some found
  exact ⟨List.mem_of_find?_eq_some found, of_decide_eq_true named⟩

theorem unSubscribe_unknown {broker : BrokerZenoh} {pattern : String}
    (unknown : broker.find pattern = none) :
    broker.unSubscribe pattern = (0, { broker with justConnected := false }) := by
  have quiet : ({ broker with justConnected := false } : BrokerZenoh).find pattern = none :=
    unknown
  rw [unSubscribe]
  dsimp only
  rw [quiet]

/-- The subscriber of a known pattern is undeclared; the registry keeps the pattern. -/
theorem unSubscribe_known {broker : BrokerZenoh} {pattern : String} {entry : String × Nat}
    (known : broker.find pattern = some entry) :
    broker.unSubscribe pattern =
      (0, { broker with
        justConnected := false
        session := broker.session.undeclare entry.2 }) := by
  have quiet : ({ broker with justConnected := false } : BrokerZenoh).find pattern = some entry :=
    known
  rw [unSubscribe]
  dsimp only
  rw [quiet]

/-- Undeclaring subscribers one after the other removes them and records each. -/
theorem foldl_undeclare (entries : List (String × Nat)) : ∀ session : Declarations,
    entries.foldl (fun session entry => session.undeclare entry.2) session =
      { fresh := session.fresh
        declared := session.declared.filter fun entry => entry.2 ∉ entries.map Prod.snd
        undeclared := (entries.map Prod.snd).reverse ++ session.undeclared } := by
  induction entries with
  | nil =>
    intro session
    simp only [List.foldl_nil, List.map_nil, List.not_mem_nil, not_false_eq_true, decide_true,
      List.filter_true, List.reverse_nil, List.nil_append]
  | cons entry rest inductionHypothesis =>
    intro session
    rw [List.foldl_cons, inductionHypothesis, Declarations.undeclare]
    congr 1
    · rw [List.filter_filter]
      refine List.filter_congr fun other _ => ?_
      simp only [List.map_cons, List.mem_cons, not_or, ne_eq, Bool.decide_and, Bool.and_comm]
    · rw [List.map_cons, List.reverse_cons, List.append_assoc, List.singleton_append]

theorem Tracked.disconnect {broker : BrokerZenoh} (tracked : broker.Tracked) :
    broker.disconnect.2.Tracked where
  same := by
    show (broker.subscribers.foldl _ broker.session).declared = []
    rw [foldl_undeclare, tracked.same]
    refine List.filter_eq_nil_iff.mpr fun entry member => ?_
    rw [decide_eq_true_eq, not_not]
    exact List.mem_map_of_mem member
  patterns := List.nodup_nil
  numbers := List.nodup_nil
  below _ member := absurd member List.not_mem_nil
  undeclaredBelow subscriber member := by
    have recorded : subscriber ∈
        (broker.subscribers.foldl (fun session entry => session.undeclare entry.2)
          broker.session).undeclared := member
    show subscriber < (broker.subscribers.foldl _ broker.session).fresh
    rw [foldl_undeclare] at recorded ⊢
    rcases List.mem_append.mp recorded with now | before
    · obtain ⟨entry, inRegistry, rfl⟩ := List.mem_map.mp (List.mem_reverse.mp now)
      exact tracked.below entry inRegistry
    · exact tracked.undeclaredBelow subscriber before
  apart _ member := absurd member List.not_mem_nil
  once := by
    show (broker.subscribers.foldl _ broker.session).undeclared.Nodup
    rw [foldl_undeclare]
    refine List.nodup_append.mpr ⟨List.nodup_reverse.mpr tracked.numbers, tracked.once, ?_⟩
    intro now memberNow before memberBefore same
    obtain ⟨entry, inRegistry, rfl⟩ := List.mem_map.mp (List.mem_reverse.mp memberNow)
    exact tracked.apart entry inRegistry (same ▸ memberBefore)

/-- A declaration for a pattern that the registry does not have. -/
theorem Tracked.declare {broker other : BrokerZenoh} (tracked : broker.Tracked) {pattern : String}
    (new : pattern ∉ broker.subscribers.map Prod.fst)
    (subscribers : other.subscribers = broker.subscribers ++ [(pattern, broker.session.fresh)])
    (session : other.session = broker.session.declare pattern) : other.Tracked where
  same := by rw [subscribers, session, Declarations.declare, tracked.same]
  patterns := by
    rw [subscribers, List.map_append, List.map_singleton]
    refine List.nodup_append.mpr ⟨tracked.patterns, List.nodup_singleton _, ?_⟩
    rintro first member second isNew rfl
    rw [List.mem_singleton.mp isNew] at member
    exact new member
  numbers := by
    rw [subscribers, List.map_append, List.map_singleton]
    refine List.nodup_append.mpr ⟨tracked.numbers, List.nodup_singleton _, ?_⟩
    rintro first member second isNew rfl
    obtain ⟨entry, inRegistry, rfl⟩ := List.mem_map.mp member
    have bound := tracked.below entry inRegistry
    rw [List.mem_singleton.mp isNew] at bound
    exact Nat.lt_irrefl _ bound
  below := by
    rw [subscribers, session]
    intro entry member
    rcases List.mem_append.mp member with old | isNew
    · exact Nat.lt_succ_of_lt (tracked.below entry old)
    · rw [List.mem_singleton.mp isNew]
      exact Nat.lt_succ_self _
  undeclaredBelow := by
    rw [session]
    exact fun subscriber member => Nat.lt_succ_of_lt (tracked.undeclaredBelow subscriber member)
  apart := by
    rw [subscribers, session]
    intro entry member
    rcases List.mem_append.mp member with old | isNew
    · exact tracked.apart entry old
    · rw [List.mem_singleton.mp isNew]
      exact fun recorded => Nat.lt_irrefl _ (tracked.undeclaredBelow _ recorded)
  once := by
    rw [session]
    exact tracked.once

theorem Tracked.subscribe {broker : BrokerZenoh} (tracked : broker.Tracked) (pattern : String)
    (declared : Bool) : (broker.subscribe pattern declared).2.Tracked := by
  rw [BrokerZenoh.subscribe]
  dsimp only
  split
  · rename_i unknown
    have new := (find_none_iff _ pattern).mp unknown
    split
    · exact tracked.congr rfl rfl
    · exact tracked.declare new rfl rfl
  · exact tracked.congr rfl rfl

theorem Tracked.serve {broker : BrokerZenoh} (tracked : broker.Tracked) (call : Call)
    (keeps : broker.KeepsRegistered call) : (broker.serve call).2.Tracked := by
  cases call with
  | connect opened => exact tracked.congr rfl rfl
  | disconnect => exact tracked.disconnect
  | subscribe pattern declared => exact tracked.subscribe pattern declared
  | unSubscribe pattern =>
    rw [BrokerZenoh.serve, unSubscribe_unknown ((find_none_iff broker pattern).mpr keeps)]
    exact tracked.congr rfl rfl

/-- `unSubscribe` for a registered pattern leaves the pattern without a subscriber. -/
theorem keepsRegistered_of_registered {broker : BrokerZenoh} (tracked : broker.Tracked)
    (call : Call) (after : (broker.serve call).2.Registered) : broker.KeepsRegistered call := by
  cases call with
  | connect opened => trivial
  | disconnect => trivial
  | subscribe pattern declared => trivial
  | unSubscribe pattern =>
    intro known
    cases found : broker.find pattern with
    | none => exact (find_none_iff broker pattern).mp found known
    | some entry =>
      obtain ⟨member, named⟩ := mem_of_find found
      rw [serve, unSubscribe_known found] at after
      obtain ⟨other, declared, sameName⟩ := List.mem_map.mp ((after.pattern_iff pattern).mp known)
      obtain ⟨inSession, different⟩ := List.mem_filter.mp declared
      rw [tracked.same] at inSession
      have single := List.inj_on_of_nodup_map tracked.patterns inSession member
        (sameName.trans named.symm)
      exact of_decide_eq_true different (congrArg Prod.snd single)

theorem Tracked.consistent {broker : BrokerZenoh} (tracked : broker.Tracked)
    (quiet : broker.justConnected = false) : broker.Consistent where
  registered := tracked.registered
  flag wrong := absurd (quiet.symm.trans wrong) Bool.false_ne_true

/-- `connect` sets the flag to the opposite. -/
theorem connect_flag (broker : BrokerZenoh) (opened : Bool) :
    (broker.connect opened).2.connected = !(broker.connect opened).2.zenohSession := by
  rw [connect]
  dsimp only
  cases broker.zenohSession <;> cases opened <;> rfl

theorem serve_justConnected (broker : BrokerZenoh) (call : Call)
    (keeps : broker.KeepsConsistent call) : (broker.serve call).2.justConnected = false := by
  cases call with
  | connect opened => exact keeps.elim
  | disconnect => rfl
  | subscribe pattern declared =>
    rw [serve, subscribe]
    dsimp only
    split
    · split <;> rfl
    · rfl
  | unSubscribe pattern =>
    rw [serve, unSubscribe]
    dsimp only
    split <;> rfl

theorem keepsConsistent_of_consistent {broker : BrokerZenoh} (tracked : broker.Tracked)
    (call : Call) (after : (broker.serve call).2.Consistent) : broker.KeepsConsistent call := by
  have registry := keepsRegistered_of_registered tracked call after.registered
  cases call with
  | connect opened =>
    have flag := after.flag rfl
    rw [serve, connect_flag] at flag
    cases state : (broker.connect opened).2.zenohSession with
    | true =>
      rw [state] at flag
      exact absurd (flag.mpr rfl) Bool.false_ne_true
    | false =>
      rw [state] at flag
      exact absurd (flag.mp rfl) Bool.false_ne_true
  | disconnect => exact registry
  | subscribe pattern declared => exact registry
  | unSubscribe pattern => exact registry

theorem keepsRegistered_of_keepsConsistent {broker : BrokerZenoh} (call : Call)
    (keeps : broker.KeepsConsistent call) : broker.KeepsRegistered call := by
  cases call with
  | connect opened => exact keeps.elim
  | disconnect => exact keeps
  | subscribe pattern declared => exact keeps
  | unSubscribe pattern => exact keeps

/-! ### Runs -/

/-- A run of calls from the constructor on keeps the registry right throughout exactly if it never
unsubscribes a registered pattern, and keeps the flag right too exactly if it never connects
either: every `connect` sets the flag to the opposite. -/
theorem zenoh_consistent_iff (connected : Bool) (calls : List Call) :
    ((∀ made, made <+: calls → (after serve (constructed connected) made).Registered) ↔
        Along serve KeepsRegistered (constructed connected) calls) ∧
      ((∀ made, made <+: calls → (after serve (constructed connected) made).Consistent) ↔
        Along serve KeepsConsistent (constructed connected) calls) ∧
      ∀ (broker : BrokerZenoh) (opened : Bool),
        (broker.connect opened).2.connected = !(broker.connect opened).2.zenohSession := by
  refine ⟨?_, ?_, connect_flag⟩
  · exact prefixes_iff_along Tracked (fun _ tracked => tracked.registered)
      (fun _ call tracked keeps => tracked.serve call keeps)
      (fun _ call tracked registered => keepsRegistered_of_registered tracked call registered)
      calls _ (tracked_constructed connected)
  · exact prefixes_iff_along (fun broker => broker.Tracked ∧ broker.justConnected = false)
      (fun _ quiet => quiet.1.consistent quiet.2)
      (fun broker call quiet keeps =>
        ⟨quiet.1.serve call (keepsRegistered_of_keepsConsistent call keeps),
          serve_justConnected broker call keeps⟩)
      (fun _ call quiet consistent => keepsConsistent_of_consistent quiet.1 call consistent)
      calls _ ⟨tracked_constructed connected, rfl⟩

/-- A pattern that is subscribed and unsubscribed stays in the registry, `disconnect` undeclares
its subscriber again, and the flag is wrong as soon as the session is open. -/
theorem zenoh_not_consistent :
    ¬ (after serve (constructed false) [.connect true]).Consistent ∧
      ¬ (after serve (constructed false)
        [.connect true, .subscribe "src/*" true, .unSubscribe "src/*"]).Registered ∧
      ¬ (after serve (constructed false) [.connect true, .subscribe "src/*" true,
        .unSubscribe "src/*", .disconnect]).session.undeclared.Nodup := by
  refine ⟨fun consistent => ?_, fun registered => ?_, by decide⟩
  · exact absurd ((consistent.flag (by decide)).mpr (by decide)) (by decide)
  · exact absurd ((registered.pattern_iff "src/*").mp (by decide)) (by decide)

end BrokerZenoh

end BrokerProxy.Broker
