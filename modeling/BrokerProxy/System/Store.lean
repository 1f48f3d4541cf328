/-
This file adds `brain` to the proxy and the server: it has subscribed to `src/*`, takes the
messages off its own connection and sets the keys of the server.

What a key shows is what the last message handled on the topic leaves. Once nothing is
under way, that is the last one published there by anyone. So for a topic that no other
client publishes on, the store shows the last value that the device has published: an
integer as its decimal notation, and a string without spaces in quotes.
-/

import BrokerProxy.Redis.Mirror
import BrokerProxy.System.Relay

namespace BrokerProxy.System

open Codec LastWrite Protocol PubSub Runs
open Redis (Invocation KeyServer Mirror ServerReply Word ascii percent stored)

/-- The pattern that `brain` subscribes to. -/
def srcPattern : Bytes := ascii "src/*"

/-- What has been published. -/
def publications (traffic : List Traffic) : List PubMsg :=
  (traffic.map Traffic.command).filterMap Command.published

/-- The server executes publications. -/
def Connection.serveAll (globMatches : Bytes → Bytes → Bool) (connection : Connection)
    (msgs : List PubMsg) : Connection :=
  msgs.foldl (Connection.serve globMatches) connection

/-- The bridge, the connection of `brain` and what it mirrors, and the messages it has handled. -/
structure StoreSystem (Value State : Type) where
  bridge : Bridge Value
  brain : Connection
  mirror : Mirror Value State
  handled : List PubMsg

/-- What happens next: a step of the bridge, or the read invoker of `brain`. -/
inductive StoreLabel (Double : Type)
  | bridge (label : BridgeLabel)
  | readable (invocation : Invocation Double)

section

variable {Value State Double : Type} (vector : Bytes → Option (List Bytes))
  (globMatches : Bytes → Bytes → Bool) (tiny : Tiny Value) (server : KeyServer State)
  (doubles : DoubleDecoder tiny.decoder Double) (printDouble : Double → Bytes)

namespace StoreSystem

/-- The bridge has moved, and the server has executed what was published. -/
def follow (system : StoreSystem Value State) (bridge : Bridge Value) : StoreSystem Value State :=
  { system with
    bridge := bridge
    brain := system.brain.serveAll globMatches
      (publications (bridge.traffic.drop system.bridge.traffic.length)) }

/-- The message of the oldest reply on the connection of `brain`. -/
def next? (system : StoreSystem Value State) : Option PubMsg :=
  system.brain.replies.head?.bind fun reply => Redis.readInvoker reply.reply

/-- The read invoker of `brain`: a message goes to the callback. -/
def readable (system : StoreSystem Value State) (invocation : Invocation Double) :
    Option (StoreSystem Value State) :=
  match system.brain.replies with
  | [] => none
  | reply :: rest =>
      let taken := { system with brain := { system.brain with replies := rest } }
      match Redis.readInvoker reply.reply with
      | none => some taken
      | some msg =>
          (system.mirror.incoming vector server doubles printDouble msg invocation).map
            fun mirror => { taken with mirror := mirror, handled := system.handled ++ [msg] }

end StoreSystem

/-- One step. -/
def storeStep (system : StoreSystem Value State) :
    StoreLabel Double → Option (StoreSystem Value State)
  | .bridge label =>
      (bridgeStep vector globMatches tiny system.bridge label).map (system.follow globMatches)
  | .readable invocation => system.readable vector tiny server doubles printDouble invocation

/-- `brain` has subscribed, and the server has some keys already. -/
structure StoreSystem.Constructed (origin : State) (system : StoreSystem Value State) : Prop where
  bridge : system.bridge.Constructed
  brain : Connection.subscribe vector { subscribers := [], patterns := [], replies := [] }
    srcPattern = some system.brain
  capacity : system.mirror.cborDeserializer.capacity = 1024
  store : system.mirror.store = origin
  handled : system.handled = []

/-- The device, the proxy, the server and `brain`. -/
def storeMachine (origin : State) : Machine (StoreSystem Value State) (StoreLabel Double) where
  initial := StoreSystem.Constructed vector origin
  step := storeStep vector globMatches tiny server doubles printDouble

/-- The topic is a word, and so is a string but for its spaces. -/
def wellNamed (msg : PubMsg) : Bool :=
  decide (Word msg.topic) &&
    match scalar doubles (msg.payload.take 1024) with
    | some (.text s) => percent ∉ s
    | _ => true

/-- The steps that lose nothing: those of the bridge are attentive, and what `brain` handles is well
named. -/
def faithful (system : StoreSystem Value State) : StoreLabel Double → Bool
  | .bridge label => attentive vector globMatches tiny system.bridge label
  | .readable _ => system.next?.all (wellNamed tiny doubles)

end

/-! ### What is published -/

section

variable {vector : Bytes → Option (List Bytes)} {globMatches : Bytes → Bytes → Bool}

theorem publications_append (first second : List Traffic) :
    publications (first ++ second) = publications first ++ publications second := by
  unfold publications
  rw [List.map_append, List.filterMap_append]

theorem covers_of_topic {pattern topic : Bytes} {msg : PubMsg} (same : msg.topic = topic)
    (covered : globMatches pattern topic = true) : covers globMatches pattern msg = true := by
  rw [covers, same, covered]

theorem noNul_request {msg : PubMsg} {asked : ProxyMsg}
    (published : (request asked).published = some msg) : 0 ∉ msg.topic := by
  cases asked with
  | publish original =>
    cases published
    exact List.count_eq_zero.mp (Redis.no_nul_of_cString original.topic)
  | subscribe _ | node _ => cases published

namespace Bridge

variable {Value : Type} {bridge next : Bridge Value}

theorem react_traffic {msg : ProxyMsg} (done : bridge.react vector globMatches msg = some next) :
    next.traffic = bridge.traffic ++ [.proxy (request msg)] := by
  cases msg with
  | publish msg =>
    cases done
    rfl
  | subscribe msg =>
    obtain ⟨broker, -, rfl⟩ := Option.map_eq_some_iff.mp done
    rfl
  | node msg =>
    obtain ⟨broker, -, rest⟩ := Option.bind_eq_some_iff.mp done
    obtain ⟨other, -, rfl⟩ := Option.map_eq_some_iff.mp rest
    rfl

theorem reactAll_traffic (msgs : List ProxyMsg) : ∀ {bridge : Bridge Value},
    bridge.reactAll vector globMatches msgs = some next →
      next.traffic = bridge.traffic ++ msgs.map fun msg => .proxy (request msg) := by
  induction msgs with
  | nil =>
    intro bridge done
    cases done
    exact (List.append_nil _).symm
  | cons msg rest inductionHypothesis =>
    intro bridge done
    obtain ⟨middle, reacted, remaining⟩ := Option.bind_eq_some_iff.mp done
    rw [inductionHypothesis remaining, react_traffic reacted, List.append_assoc]
    rfl

/-- A step adds to the traffic, and no topic has a NUL byte. -/
theorem traffic_of_step {tiny : Tiny Value} {label : BridgeLabel}
    (met : attentive vector globMatches tiny bridge label = true)
    (taken : bridgeStep vector globMatches tiny bridge label = some next) :
    ∃ added, next.traffic = bridge.traffic ++ added ∧
      ∀ msg ∈ publications added, 0 ∉ msg.topic := by
  have nothing (same : next.traffic = bridge.traffic) :
      ∃ added, next.traffic = bridge.traffic ++ added ∧
        ∀ msg ∈ publications added, 0 ∉ msg.topic :=
    ⟨[], same.trans (List.append_nil _).symm, nofun⟩
  cases label with
  | link step =>
    have inner : ((systemStep tiny bridge.link step).bind fun link =>
        ({ bridge with link := link } : Bridge Value).reactAll vector globMatches
          (bridge.fresh link)) = some next := by
      cases step with
      | publish msg => cases taken
      | _ => exact taken
    obtain ⟨link, -, reacted⟩ := Option.bind_eq_some_iff.mp inner
    have grown := reactAll_traffic (bridge.fresh link) reacted
    refine ⟨_, grown, fun msg member => ?_⟩
    obtain ⟨command, inside, published⟩ := List.mem_filterMap.mp member
    obtain ⟨event, among, rfl⟩ := List.mem_map.mp inside
    obtain ⟨asked, -, rfl⟩ := List.mem_map.mp among
    exact noNul_request published
  | readable =>
    have taken : bridge.readable tiny = some next := taken
    unfold Bridge.readable at taken
    split at taken
    · cases taken
    · dsimp only at taken
      split at taken
      · cases taken
        exact nothing rfl
      · obtain ⟨link, -, rfl⟩ := Option.map_eq_some_iff.mp taken
        exact nothing rfl
  | readableProxy =>
    have taken : bridge.readableProxy = some next := taken
    unfold Bridge.readableProxy at taken
    split at taken
    · cases taken
    · split at taken
      · cases taken
        exact nothing rfl
      · cases taken
  | client msg =>
    cases taken
    refine ⟨[.client msg], rfl, fun other member => ?_⟩
    obtain rfl := List.mem_singleton.mp member
    exact of_decide_eq_true met

end Bridge

/-- A connection with one pattern gets the messages that it covers. -/
theorem Connection.serveAll_messages {pattern : Bytes} (msgs : List PubMsg) :
    ∀ {connection : Connection}, connection.patterns = [pattern] →
      (connection.serveAll globMatches msgs).patterns = [pattern] ∧
        (connection.serveAll globMatches msgs).messages =
          connection.messages ++ msgs.filter (covers globMatches pattern) := by
  induction msgs with
  | nil => exact fun single => ⟨single, (List.append_nil _).symm⟩
  | cons msg rest inductionHypothesis =>
    intro connection single
    have served : (connection.serve globMatches msg).patterns = [pattern] := single
    obtain ⟨patterns, messages⟩ := inductionHypothesis served
    refine ⟨patterns, messages.trans ?_⟩
    rw [connection.messages_serve, single, copies, List.countP_singleton, List.append_assoc,
      List.filter_cons]
    by_cases covered : covers globMatches pattern msg = true
    · rw [if_pos covered, if_pos covered]
      rfl
    · rw [if_neg covered, if_neg covered]
      rfl

end

/-! ### What the store shows -/

section

variable {Value State Double : Type} {vector : Bytes → Option (List Bytes)}
  {globMatches : Bytes → Bytes → Bool} {tiny : Tiny Value} {server : KeyServer State}
  {doubles : DoubleDecoder tiny.decoder Double} {printDouble : Double → Bytes}

/-- What has been handled and what waits on the connection are together what the pattern covers, and
each key shows what the messages handled leave. -/
structure Followed (globMatches : Bytes → Bytes → Bool) (server : KeyServer State)
    (doubles : DoubleDecoder tiny.decoder Double) (printDouble : Double → Bytes) (origin : State)
    (system : StoreSystem Value State) : Prop where
  patterns : system.brain.patterns = [srcPattern]
  capacity : system.mirror.cborDeserializer.capacity = 1024
  received : system.handled ++ system.brain.messages =
    (publications system.bridge.traffic).filter (covers globMatches srcPattern)
  topics : ∀ msg ∈ publications system.bridge.traffic, 0 ∉ msg.topic
  shows : ∀ place, server.get system.mirror.store place =
    shown PubMsg.topic (stored doubles printDouble) (server.get origin) system.handled place

variable {origin : State} {system after : StoreSystem Value State}

/-- The bridge moves. -/
theorem Followed.bridge (followed : Followed globMatches server doubles printDouble origin system)
    {label : BridgeLabel} {next : Bridge Value}
    (met : attentive vector globMatches tiny system.bridge label = true)
    (taken : bridgeStep vector globMatches tiny system.bridge label = some next) :
    Followed globMatches server doubles printDouble origin (system.follow globMatches next) := by
  obtain ⟨added, grown, noNul⟩ := Bridge.traffic_of_step met taken
  have new : next.traffic.drop system.bridge.traffic.length = added := by
    rw [grown, List.drop_left]
  obtain ⟨patterns, messages⟩ : _ ∧
      (system.brain.serveAll globMatches (publications added)).messages = _ :=
    Connection.serveAll_messages (publications added) followed.patterns
  have all : publications next.traffic =
      publications system.bridge.traffic ++ publications added := by
    rw [grown, publications_append]
  have served : (system.follow globMatches next).brain =
      system.brain.serveAll globMatches (publications added) := by
    rw [StoreSystem.follow, new]
  exact
    { patterns := by rw [served]; exact patterns
      capacity := followed.capacity
      received := by
        show system.handled ++ _ = (publications next.traffic).filter _
        rw [served, messages, ← List.append_assoc, followed.received, all, List.filter_append]
      topics := fun msg member => by
        have member : msg ∈ publications next.traffic := member
        rw [all] at member
        exact (List.mem_append.mp member).elim (followed.topics msg) (noNul msg)
      shows := followed.shows }

section Documented

variable (documented : ∀ format, vector format = (Redis.unescape format).map Redis.words)
  (isNumber : ∀ d, Word (printDouble d))
include documented isNumber

/-- `brain` takes a reply. -/
theorem Followed.readable
    (followed : Followed globMatches server doubles printDouble origin system)
    {invocation : Invocation Double} (met : system.next?.all (wellNamed tiny doubles) = true)
    (taken : system.readable vector tiny server doubles printDouble invocation = some after) :
    Followed globMatches server doubles printDouble origin after := by
  unfold StoreSystem.readable at taken
  split at taken
  · cases taken
  · rename_i reply rest unread
    have messages : system.brain.messages =
        reply.message.toList ++ rest.filterMap ServerReply.message := by
      rw [Connection.messages, unread]
      cases read : reply.message with
      | none => exact List.filterMap_cons_none read
      | some msg => exact List.filterMap_cons_some read
    have read := Redis.readInvoker_reply reply
    have received := followed.received
    rw [messages] at received
    rw [StoreSystem.next?, unread, List.head?_cons, Option.bind_some] at met
    dsimp only at taken
    split at taken
    · rename_i none
      cases taken
      rw [none] at read
      rw [Option.map_eq_none_iff.mp read.symm] at received
      exact { followed with received := received }
    · rename_i msg some
      obtain ⟨mirror, called, rfl⟩ := Option.map_eq_some_iff.mp taken
      rw [some] at read met
      obtain ⟨sent, message, cut⟩ := Option.map_eq_some_iff.mp read.symm
      rw [message] at received
      have published : sent ∈ publications system.bridge.traffic :=
        (List.mem_filter.mp (received ▸ List.mem_append_right _ List.mem_cons_self)).1
      have noNul : 0 ∉ sent.topic := followed.topics sent published
      rw [cString_of_no_nul noNul] at cut
      subst cut
      obtain ⟨isWord, strings⟩ := (Bool.and_eq_true _ _).mp met
      obtain ⟨capacity, written⟩ := Redis.incoming_get documented isNumber followed.capacity
        (of_decide_eq_true isWord) noNul (fun s found => by
          rw [found] at strings
          exact of_decide_eq_true strings) called
      exact
        { patterns := followed.patterns
          capacity := capacity
          received := by
            rw [List.append_assoc]
            exact received
          topics := followed.topics
          shows := fun place => by
            rw [shown_concat, ← followed.shows]
            exact written place }

theorem followed_of_reachable
    (reachable : ((storeMachine vector globMatches tiny server doubles printDouble origin).restrict
      (faithful vector globMatches tiny doubles)).Reachable system) :
    Followed globMatches server doubles printDouble origin system := by
  induction reachable with
  | initial constructed =>
    have accepted : Connection.accepts vector { subscribers := [], patterns := [], replies := [] }
        srcPattern = true := by
      have sent := (Redis.subscribe_vector_iff documented srcPattern).mpr (by decide +kernel)
      rw [Connection.accepts, sent, decide_eq_true rfl]
      rfl
    obtain ⟨patterns, replies, -⟩ := Connection.subscribe_of_accepts
      (fun _ member => absurd member List.not_mem_nil) accepted constructed.brain
    have nothing := congrArg publications constructed.bridge.traffic
    exact
      { patterns := patterns
        capacity := constructed.capacity
        received := by
          rw [nothing, constructed.handled, Connection.messages, replies]
          rfl
        topics := by
          rw [nothing]
          exact fun _ member => absurd member List.not_mem_nil
        shows := fun place => by
          rw [constructed.handled, shown_nil, constructed.store] }
  | step label _ taken inductionHypothesis =>
    obtain ⟨met, stepped⟩ := Machine.restrict_step taken
    cases label with
    | bridge label =>
      obtain ⟨next, moved, rfl⟩ := Option.map_eq_some_iff.mp stepped
      exact inductionHypothesis.bridge met moved
    | readable invocation => exact inductionHypothesis.readable documented isNumber met stepped

end Documented

end

variable {Value State Double : Type}

/-- `brain` before anything happens. -/
def freshStore : StoreSystem ReferenceValue (List (Bytes × Bytes)) where
  bridge := freshBridge
  brain := { subscribers := [srcPattern], patterns := [srcPattern], replies := [] }
  mirror := { cborDeserializer := constructed 1024, store := [] }
  handled := []

theorem freshStore_constructed :
    (storeMachine documentedVector (Glob.matchesText true) referenceTiny Redis.referenceServer
      referenceDoubles (fun _ => [0x30]) []).initial freshStore where
  bridge := freshBridge_constructed
  brain := by
    have accepted : Connection.subscribe documentedVector
        { subscribers := [], patterns := [], replies := [] } srcPattern =
          some { subscribers := [srcPattern], patterns := [srcPattern], replies := [] } := by
      decide +kernel
    exact accepted
  capacity := rfl
  store := rfl
  handled := rfl

/-- A topic of a node. -/
def valueTopic : Bytes := ascii "src/a/x"

/-- A device publishes 42, and `brain` handles it. -/
def valuePublished : List (StoreLabel Unit) :=
  [.bridge (.link (.call (.publish valueTopic (arrayEncoding [.int 42])))),
    .bridge (.link (.invoke 20)),
    .bridge (.link (pass 100)),
    .bridge (.link (pass 100)),
    .readable ⟨0, (), fun _ => 0⟩]

theorem valuePublished_reachable :
    ∃ system, ((storeMachine documentedVector (Glob.matchesText true) referenceTiny
        Redis.referenceServer referenceDoubles (fun _ => [0x30]) []).restrict
        (faithful documentedVector (Glob.matchesText true) referenceTiny
          referenceDoubles)).Reachable system ∧
      system.bridge.Idle ∧ system.brain.replies = [] ∧
      system.bridge.link.called = [.publish valueTopic (arrayEncoding [.int 42])] ∧
      publications system.bridge.traffic =
        [{ topic := valueTopic, payload := arrayEncoding [.int 42] }] ∧
      ∀ msg, .client msg ∉ system.bridge.traffic := by
  obtain ⟨system, reachable, passed⟩ := Machine.exists_reachable_of_run
    ((storeMachine documentedVector (Glob.matchesText true) referenceTiny Redis.referenceServer
      referenceDoubles (fun _ => [0x30]) []).restrict
      (faithful documentedVector (Glob.matchesText true) referenceTiny referenceDoubles))
    (show (storeMachine documentedVector (Glob.matchesText true) referenceTiny
      Redis.referenceServer referenceDoubles (fun _ => [0x30]) []).initial freshStore from
        freshStore_constructed) valuePublished
    (fun system => decide ((system.bridge.link.up = [] ∧ system.bridge.link.down = [] ∧
      system.bridge.link.proxy.session.pipe = [] ∧ system.bridge.broker.replies = []) ∧
      system.brain.replies = [] ∧
      system.bridge.link.called = [.publish valueTopic (arrayEncoding [.int 42])] ∧
      publications system.bridge.traffic =
        [{ topic := valueTopic, payload := arrayEncoding [.int 42] }] ∧
      ∀ event ∈ system.bridge.traffic, event.ofProxy.isSome = true)) (by decide +kernel)
  obtain ⟨⟨up, down, pipe, replies⟩, read, called, published, own⟩ := of_decide_eq_true passed
  exact ⟨system, reachable, ⟨up, down, pipe, replies⟩, read, called, published,
    fun msg member => Bool.false_ne_true (own _ member)⟩

/-- The store follows the messages: in every faithful run those that `brain` has handled are the
first of the publications that its pattern covers, in order; every key shows what the last of them
on its topic leaves that leaves something, and is otherwise as it was; and once `brain` has no
reply to read, a key that the pattern covers shows what the last publication by anyone leaves. -/
theorem store_follows (vector : Bytes → Option (List Bytes)) (globMatches : Bytes → Bytes → Bool)
    (tiny : Tiny Value) (server : KeyServer State) (doubles : DoubleDecoder tiny.decoder Double)
    (printDouble : Double → Bytes)
    (documented : ∀ format, vector format = (Redis.unescape format).map Redis.words)
    (isNumber : ∀ d, Word (printDouble d)) {origin : State} {system : StoreSystem Value State}
    (reachable : ((storeMachine vector globMatches tiny server doubles printDouble origin).restrict
      (faithful vector globMatches tiny doubles)).Reachable system) :
    system.handled <+:
        (publications system.bridge.traffic).filter (covers globMatches srcPattern) ∧
      (∀ place, server.get system.mirror.store place =
        shown PubMsg.topic (stored doubles printDouble) (server.get origin) system.handled place) ∧
      (system.brain.replies = [] → ∀ place, server.get system.mirror.store place =
        if globMatches srcPattern place then
          shown PubMsg.topic (stored doubles printDouble) (server.get origin)
            (publications system.bridge.traffic) place
        else server.get origin place) := by
  have followed := followed_of_reachable documented isNumber reachable
  refine ⟨⟨_, followed.received⟩, followed.shows, fun read place => ?_⟩
  have all := followed.received
  rw [Connection.messages, read, List.filterMap_nil, List.append_nil] at all
  rw [followed.shows, all]
  split
  · rename_i covered
    exact shown_filter (fun msg same => covers_of_topic same covered) _
  · rename_i other
    refine shown_of_absent fun msg member same => other ?_
    exact same ▸ (List.mem_filter.mp member).2

theorem store_follows_valuePublished :
    ∃ system : StoreSystem ReferenceValue (List (Bytes × Bytes)),
      publications system.bridge.traffic =
        [{ topic := valueTopic, payload := arrayEncoding [.int 42] }] ∧
      Redis.referenceServer.get system.mirror.store valueTopic = some (ascii "42") := by
  obtain ⟨system, reachable, -, read, -, published, -⟩ := valuePublished_reachable
  have follows := (store_follows documentedVector (Glob.matchesText true) referenceTiny
    Redis.referenceServer referenceDoubles (fun _ => [0x30]) (fun _ => rfl) (fun _ => by decide)
    reachable).2.2 read valueTopic
  rw [published, if_pos (by decide +kernel)] at follows
  have leaves : _ = Redis.textOf (.int 42) := Redis.stored_arrayEncoding referenceDoubles
    (fun _ => [0x30]) valueTopic (by decide +kernel)
  have text : Redis.textOf (.int 42) = some (ascii "42") := by decide +kernel
  exact ⟨system, published, follows.trans (shown_of_last (List.nil_append _).symm
    (leaves.trans text) nofun)⟩

end BrokerProxy.System
