/-
This file models one pass of `Thread::waitInvoker` over the callbacks of a thread to which
brokers and sessions are attached, and says when the traversal of the two maps is valid:
when no callback inserts into the map that is being traversed or erases from it.

A callback can do so. The read invoker of `BrokerRedis` disconnects and connects again when
there is no reply, `SessionSerial::onError` closes the port, and the listeners of a message,
which run inside the callback where the flow is not asynchronous, can do any of this too.
-/

import BrokerProxy.Session.Attached

namespace BrokerProxy.Session

open Runs Limero Redis

variable {Broker Port Socket : Type}

/-! ### One pass -/

/-- The two maps that a pass traverses. -/
inductive Side
  | read
  | error
deriving DecidableEq

/-- The map of a side. -/
def Side.map {Callback : Type} (invokers : Invokers Callback) : Side → InvokerMap Callback
  | .read => invokers.read
  | .error => invokers.error

/-- What happens inside one callback: whether reading fails, how connections that are then made
end, how the port is closed, and what the listeners of a message call in turn. -/
structure Behaviour (Broker Port Socket : Type) where
  failed : Bool
  first : ConnectOutcome
  second : ConnectOutcome
  closeErrno : Option Int
  listeners : List (Call Broker Port Socket)

/-- The calls of the listeners, which hear of a message that is read. -/
def Behaviour.heard (behaviour : Behaviour Broker Port Socket) : List (Call Broker Port Socket) :=
  if behaviour.failed then [] else behaviour.listeners

/-- The calls that a callback makes. What a serial session reads goes to a queue of the thread. -/
def Callback.calls (fd : Int) (behaviour : Behaviour Broker Port Socket) :
    Callback Broker Port Socket → List (Call Broker Port Socket)
  | .broker name =>
      .broker name (.readable fd (!behaviour.failed) behaviour.first behaviour.second) ::
        behaviour.heard
  | .serialRead _ => []
  | .serialError name => [.serialDisconnect name behaviour.closeErrno]
  | .udp _ => behaviour.heard

/-- What happens in one pass: the calls of the invoker that is read from the pipe, the descriptors
that `select` has reported, what happens inside each callback, and the order in which a map is
traversed. -/
structure Pass (Broker Port Socket : Type) where
  pipe : List (Call Broker Port Socket)
  ready : Side → Int → Bool
  behaviour : Side → Int → Behaviour Broker Port Socket
  order : InvokerMap (Callback Broker Port Socket) → List (Int × Callback Broker Port Socket)
  ordered : ∀ map, (order map).Perm map.entries

/-- A traversal so far: the system, and the entries whose callback has been invoked. -/
structure Visit (Broker Port Socket : Type) where
  system : System Broker Port Socket
  invoked : List (Int × Callback Broker Port Socket)

namespace Pass

variable (pass : Pass Broker Port Socket)

/-- What the callback of an entry calls in this pass. -/
def calls (side : Side) (entry : Int × Callback Broker Port Socket) :
    List (Call Broker Port Socket) :=
  entry.2.calls entry.1 (pass.behaviour side entry.1)

end Pass

section Traversal

variable [DecidableEq Broker] [DecidableEq Port] [DecidableEq Socket]

namespace Pass

variable (pass : Pass Broker Port Socket)

/-- The loop over a map, one entry at a time. -/
def visitMachine (side : Side) :
    Machine (Visit Broker Port Socket) (Int × Callback Broker Port Socket) where
  initial visit := visit.invoked = []
  step visit entry :=
    if pass.ready side entry.1 then
      (callMachine.run visit.system (pass.calls side entry)).map fun after =>
        ⟨after, visit.invoked ++ [entry]⟩
    else some visit

/-- The traversal of one map. -/
def traverse (side : Side) (system : System Broker Port Socket) :
    Option (Visit Broker Port Socket) :=
  (pass.visitMachine side).run ⟨system, []⟩ (pass.order (side.map system.invokers))

end Pass

/-- What a pass leaves: the system when the traversals start, and the two traversals. -/
structure PassResult (Broker Port Socket : Type) where
  started : System Broker Port Socket
  reading : Visit Broker Port Socket
  errors : Visit Broker Port Socket

/-- `waitInvoker`, after `select`. -/
def waitInvoker (system : System Broker Port Socket) (pass : Pass Broker Port Socket) :
    Option (PassResult Broker Port Socket) :=
  (callMachine.run system pass.pipe).bind fun started =>
    (pass.traverse .read started).bind fun reading =>
      (pass.traverse .error reading.system).map fun errors => ⟨started, reading, errors⟩

/-- The traversal of a map is valid: no callback inserts into the map or erases from it, and every
callback whose descriptor is ready is invoked once. -/
structure Visit.Valid (after : Visit Broker Port Socket) (pass : Pass Broker Port Socket)
    (side : Side) (before : System Broker Port Socket) : Prop where
  unchanged : (side.map after.system.invokers).changes = (side.map before.invokers).changes
  once : ∀ entry ∈ (side.map before.invokers).entries,
    after.invoked.count entry = if pass.ready side entry.1 then 1 else 0

/-- Both traversals are valid. -/
structure PassResult.Valid (result : PassResult Broker Port Socket)
    (pass : Pass Broker Port Socket) : Prop where
  reading : result.reading.Valid pass .read result.started
  errors : result.errors.Valid pass .error result.reading.system

end Traversal

/-! ### What leaves a map alone -/

/-- A change leaves the map of a side alone: what it deletes has no callback there, and what it adds
has one already. -/
def Registration.calm {Callback : Type} (side : Side) (invokers : Invokers Callback) :
    Registration Callback → Bool
  | .deleteInvoker fd => fd ∉ (side.map invokers).fds
  | .addReadInvoker fd _ => side = .error ∨ fd ∈ invokers.read.fds
  | .addErrorInvoker fd _ => side = .read ∨ fd ∈ invokers.error.fds

/-- A call leaves the map of a side alone, by what is called. A broker changes the read map where it
is connected and disconnects, or is not and opens a connection; a serial session changes both maps
where its port opens, fails to open while -1 has no callback, or is closed while its descriptor has
one; a UDP session, where it connects and has no callback or disconnects and has one. -/
def Call.steady (side : Side) (system : System Broker Port Socket) :
    Call Broker Port Socket → Bool
  | .broker name label => side = .error || label.steady (system.brokers name).connected
  | .serialConnect _ outcome => !outcome.isOpen && -1 ∈ (side.map system.invokers).fds
  | .serialDisconnect name _ => (system.ports name).fd ∉ (side.map system.invokers).fds
  | .udpConnect name => system.sockets name ∈ (side.map system.invokers).fds
  | .udpDisconnect name => system.sockets name ∉ (side.map system.invokers).fds

/-- A callback leaves the map of a side alone, by whose it is: the read of a broker gets a reply, or
the broker is not connected and opens nothing; the port of an error callback has no callback any
more; and each call of a listener leaves the map alone. -/
def Callback.steady (side : Side) (system : System Broker Port Socket)
    (behaviour : Behaviour Broker Port Socket) : Callback Broker Port Socket → Bool
  | .broker name =>
      (side = .error ||
          if (system.brokers name).connected then !behaviour.failed
          else !(behaviour.failed && behaviour.first.isOpen)) &&
        behaviour.heard.all (·.steady side system)
  | .serialRead _ => true
  | .serialError name => (system.ports name).fd ∉ (side.map system.invokers).fds
  | .udp _ => behaviour.heard.all (·.steady side system)

/-- In the state in which the traversals start, every callback whose descriptor is ready is
steady. -/
def Pass.Steady (pass : Pass Broker Port Socket) (started : System Broker Port Socket) : Prop :=
  ∀ side, ∀ entry ∈ (side.map started.invokers).entries, pass.ready side entry.1 = true →
    entry.2.steady side started (pass.behaviour side entry.1) = true

namespace Registration

variable {Callback : Type} (side : Side)

/-- A change either leaves a map alone and counts nothing, or counts. -/
theorem apply_cases (invokers : Invokers Callback) (registration : Registration Callback) :
    (registration.calm side invokers = true ∧
        side.map (registration.apply invokers) = side.map invokers) ∨
      (registration.calm side invokers = false ∧
        (side.map invokers).changes < (side.map (registration.apply invokers)).changes) := by
  have added : ∀ (map : InvokerMap Callback) (fd : Int) (callback : Callback),
      (decide (fd ∈ map.fds) = true ∧ map.emplace fd callback = map) ∨
        (decide (fd ∈ map.fds) = false ∧ map.changes < (map.emplace fd callback).changes) := by
    intro map fd callback
    obtain ⟨grows, keeps⟩ := map.changes_emplace fd callback
    by_cases present : fd ∈ map.fds
    · exact Or.inl ⟨decide_eq_true present, InvokerMap.emplace_of_mem present callback⟩
    · exact Or.inr ⟨decide_eq_false present,
        Nat.lt_of_le_of_ne grows fun same => present (keeps.mp same.symm)⟩
  cases registration with
  | deleteInvoker fd =>
    have erased : side.map (apply invokers (.deleteInvoker fd)) = (side.map invokers).erase fd := by
      cases side <;> rfl
    rw [erased]
    obtain ⟨grows, keeps⟩ := (side.map invokers).changes_erase fd
    by_cases present : fd ∈ (side.map invokers).fds
    · exact Or.inr ⟨decide_eq_false (not_not.mpr present),
        Nat.lt_of_le_of_ne grows fun same => keeps.mp same.symm present⟩
    · exact Or.inl ⟨decide_eq_true present, InvokerMap.erase_of_not_mem present⟩
  | addReadInvoker fd callback =>
    cases side with
    | read =>
      have calm : (addReadInvoker fd callback).calm .read invokers =
          decide (fd ∈ invokers.read.fds) := decide_eq_decide.mpr (or_iff_right nofun)
      rw [calm]
      exact added invokers.read fd callback
    | error =>
      have other : Side.error = .error ∨ fd ∈ invokers.read.fds := Or.inl rfl
      exact Or.inl ⟨decide_eq_true other, rfl⟩
  | addErrorInvoker fd callback =>
    cases side with
    | read =>
      have other : Side.read = .read ∨ fd ∈ invokers.error.fds := Or.inl rfl
      exact Or.inl ⟨decide_eq_true other, rfl⟩
    | error =>
      have calm : (addErrorInvoker fd callback).calm .error invokers =
          decide (fd ∈ invokers.error.fds) := decide_eq_decide.mpr (or_iff_right nofun)
      rw [calm]
      exact added invokers.error fd callback

/-- Whether a change leaves a map alone depends on that map only. -/
theorem calm_congr {invokers others : Invokers Callback}
    (same : side.map others = side.map invokers) (registration : Registration Callback) :
    registration.calm side others = registration.calm side invokers := by
  cases registration with
  | deleteInvoker fd =>
    show decide (fd ∉ (side.map others).fds) = decide (fd ∉ (side.map invokers).fds)
    rw [same]
  | addReadInvoker fd callback =>
    refine decide_eq_decide.mpr (or_congr_right' fun read => ?_)
    cases side with
    | read => exact iff_of_eq (congrArg (fd ∈ InvokerMap.fds ·) same)
    | error => exact absurd rfl read
  | addErrorInvoker fd callback =>
    refine decide_eq_decide.mpr (or_congr_right' fun error => ?_)
    cases side with
    | read => exact absurd rfl error
    | error => exact iff_of_eq (congrArg (fd ∈ InvokerMap.fds ·) same)

/-- The changes that a call asks for count nothing exactly when each of them leaves the map
alone. -/
theorem applyAll_changes (registrations : List (Registration Callback)) :
    ∀ invokers : Invokers Callback,
      (side.map invokers).changes ≤ (side.map (registrations.foldl apply invokers)).changes ∧
        (registrations.all (·.calm side invokers) = true ↔
          (side.map (registrations.foldl apply invokers)).changes =
            (side.map invokers).changes) := by
  induction registrations with
  | nil => exact fun invokers => ⟨Nat.le_refl _, fun _ => rfl, fun _ => rfl⟩
  | cons registration rest inductionHypothesis =>
    intro invokers
    obtain ⟨grows, keeps⟩ := inductionHypothesis (registration.apply invokers)
    rw [List.foldl_cons, List.all_cons]
    rcases apply_cases side invokers registration with ⟨calm, same⟩ | ⟨moved, less⟩
    · have others : (fun other : Registration Callback =>
          other.calm side (registration.apply invokers)) = (·.calm side invokers) :=
        funext (calm_congr side same)
      rw [same] at grows keeps
      rw [others] at keeps
      rw [calm, Bool.true_and]
      exact ⟨grows, keeps⟩
    · rw [moved, Bool.false_and]
      exact ⟨less.le.trans grows, nofun, fun same => absurd same (less.trans_le grows).ne'⟩

/-- Changes that each leave the map alone leave it alone together. -/
theorem applyAll_calm (registrations : List (Registration Callback)) :
    ∀ invokers : Invokers Callback, registrations.all (·.calm side invokers) = true →
      side.map (registrations.foldl apply invokers) = side.map invokers := by
  induction registrations with
  | nil => exact fun invokers _ => rfl
  | cons registration rest inductionHypothesis =>
    intro invokers calm
    obtain ⟨first, others⟩ := (Bool.and_eq_true _ _).mp (List.all_cons.symm.trans calm)
    rcases apply_cases side invokers registration with ⟨-, same⟩ | ⟨moved, -⟩
    · rw [← funext (calm_congr side same)] at others
      exact (inductionHypothesis _ others).trans same
    · exact absurd (first.symm.trans moved) (by decide)

/-- A session that registers a descriptor in both maps leaves a map alone where the map has it. -/
theorem calm_both (invokers : Invokers Callback) (fd : Int) (reading failing : Callback) :
    [addReadInvoker fd reading, addErrorInvoker fd failing].all (·.calm side invokers) = true ↔
      fd ∈ (side.map invokers).fds := by
  cases side with
  | read => simp [calm, Side.map]
  | error => simp [calm, Side.map]

end Registration

/-- A callback is steady exactly if every call that it makes is. -/
theorem callback_steady (side : Side) (system : System Broker Port Socket) (fd : Int)
    (behaviour : Behaviour Broker Port Socket) (callback : Callback Broker Port Socket) :
    (callback.calls fd behaviour).all (·.steady side system) =
      callback.steady side system behaviour := by
  cases callback with
  | broker name =>
    have read : Call.steady side system (.broker name
        (.readable fd (!behaviour.failed) behaviour.first behaviour.second)) =
        (side = .error ||
          if (system.brokers name).connected then !behaviour.failed
          else !(behaviour.failed && behaviour.first.isOpen)) := by
      show (side = .error ||
        if (system.brokers name).connected then !!!behaviour.failed
        else !(!!behaviour.failed && behaviour.first.isOpen)) = _
      simp only [Bool.not_not]
    unfold Callback.calls Callback.steady
    dsimp only
    rw [List.all_cons, read]
  | serialRead name => rfl
  | serialError name => exact Bool.and_true _
  | udp name => rfl

namespace Pass

variable (pass : Pass Broker Port Socket) (side : Side)

/-- The calls of the callbacks whose descriptor is ready, in the order of the traversal. -/
def called (entries : List (Int × Callback Broker Port Socket)) :
    List (Call Broker Port Socket) :=
  (entries.filter (pass.ready side ·.1)).flatMap (pass.calls side)

/-- Every call of a traversal is steady exactly if every callback is whose descriptor is ready. -/
theorem called_steady_iff (system : System Broker Port Socket)
    (map : InvokerMap (Callback Broker Port Socket)) :
    (∀ call ∈ pass.called side (pass.order map), call.steady side system = true) ↔
      ∀ entry ∈ map.entries, pass.ready side entry.1 = true →
        entry.2.steady side system (pass.behaviour side entry.1) = true := by
  unfold called
  simp only [List.forall_mem_flatMap, List.mem_filter, and_imp, (pass.ordered map).mem_iff]
  refine forall_congr' fun entry => forall_congr' fun _ => forall_congr' fun _ => ?_
  rw [← callback_steady side system entry.1]
  exact List.all_eq_true.symm

end Pass

/-- Two systems in which the same calls are steady: they have the same map, the same brokers are
connected, and the same ports have a callback in the map. -/
structure Alike (side : Side) (before after : System Broker Port Socket) : Prop where
  map : side.map after.invokers = side.map before.invokers
  connected : side = .read →
    ∀ name, (after.brokers name).connected = (before.brokers name).connected
  ports : ∀ name, (after.ports name).fd ∈ (side.map before.invokers).fds ↔
    (before.ports name).fd ∈ (side.map before.invokers).fds
  sockets : after.sockets = before.sockets

namespace Alike

variable {side : Side} {before middle after : System Broker Port Socket}

theorem trans (first : Alike side before middle) (second : Alike side middle after) :
    Alike side before after where
  map := second.map.trans first.map
  connected read name := (second.connected read name).trans (first.connected read name)
  ports name := by
    have later := second.ports name
    rw [first.map] at later
    exact later.trans (first.ports name)
  sockets := second.sockets.trans first.sockets

theorem steady (alike : Alike side before after) (call : Call Broker Port Socket) :
    call.steady side after = call.steady side before := by
  cases call with
  | broker name label =>
    cases side with
    | read =>
      exact congrArg label.steady (alike.connected rfl name)
    | error => rfl
  | serialConnect name outcome =>
    unfold Call.steady
    dsimp only
    rw [alike.map]
  | serialDisconnect name closeErrno =>
    unfold Call.steady
    dsimp only
    rw [alike.map]
    exact decide_eq_decide.mpr (not_congr (alike.ports name))
  | udpConnect name | udpDisconnect name =>
    unfold Call.steady
    dsimp only
    rw [alike.map, alike.sockets]

theorem steady_callback (alike : Alike side before after)
    (behaviour : Behaviour Broker Port Socket) (callback : Callback Broker Port Socket) :
    callback.steady side after behaviour = callback.steady side before behaviour := by
  have same : (fun call : Call Broker Port Socket => call.steady side after) =
      (·.steady side before) := funext alike.steady
  cases callback with
  | broker name =>
    unfold Callback.steady
    dsimp only
    rw [same]
    cases side with
    | read => rw [alike.connected rfl name]
    | error => rfl
  | serialRead name => rfl
  | serialError name =>
    unfold Callback.steady
    dsimp only
    rw [alike.map]
    exact decide_eq_decide.mpr (not_congr (alike.ports name))
  | udp name =>
    unfold Callback.steady
    dsimp only
    rw [same]

end Alike

variable [DecidableEq Broker] [DecidableEq Port] [DecidableEq Socket]

/-! ### Single calls -/

/-- A call asks for no change of the map of a side. -/
def Call.calm (side : Side) (system : System Broker Port Socket)
    (call : Call Broker Port Socket) : Bool :=
  (call.registrations system).all (·.calm side system.invokers)

/-- A call does not lower the count of changes of a map, and keeps it exactly when it is calm. -/
theorem runCall_changes (side : Side) {system next : System Broker Port Socket}
    {call : Call Broker Port Socket} (taken : callMachine.step system call = some next) :
    (side.map system.invokers).changes ≤ (side.map next.invokers).changes ∧
      (call.calm side system = true ↔
        (side.map next.invokers).changes = (side.map system.invokers).changes) := by
  obtain ⟨-, moved, -, rfl⟩ := callMachine_step taken
  exact Registration.applyAll_changes side (call.registrations system) system.invokers

namespace System.Owned

variable {system next : System Broker Port Socket} (owned : system.Owned)

include owned

theorem read_of_error {fd : Int} (present : fd ∈ system.invokers.error.fds) :
    fd ∈ system.invokers.read.fds := by
  obtain ⟨callback, member, -⟩ := (owned.paired.error fd).mp present
  exact List.mem_map_of_mem member

/-- The descriptor of an open port has a callback in both maps. -/
theorem port_mem (side : Side) (name : Port) :
    (system.ports name).fd = -1 ∨ (system.ports name).fd ∈ (side.map system.invokers).fds := by
  refine (owned.ports name).imp_right fun own => ?_
  cases side with
  | read => exact List.mem_map_of_mem own
  | error => exact (owned.paired.error _).mpr ⟨_, own, rfl⟩

/-- When a call of a broker leaves a map alone. -/
theorem broker_calm_iff (side : Side) {name : Broker} {label : SessionLabel}
    (distinct : Call.distinct system (.broker name label) = true) :
    Call.calm side system (.broker name label) = true ↔
      Call.steady side system (.broker name label) = true := by
  unfold Call.distinct at distinct
  unfold Call.calm Call.registrations
  dsimp only at distinct ⊢
  rw [List.all_append, Bool.and_eq_true]
  cases side with
  | read =>
    have steady := @steady_iff ⟨system.broker name, []⟩ label (owned.brokers name)
    show _ ↔ label.steady (system.broker name).connected = true
    rw [← steady]
    cases deleted : deletedBy ⟨system.broker name, []⟩ label with
    | some fd =>
      refine iff_of_false (fun both => ?_) nofun
      have absent := List.all_eq_true.mp both.1 _ (List.mem_singleton_self _)
      exact of_decide_eq_true absent (List.mem_map_of_mem (owned.deleted_own deleted))
    | none =>
      cases added : addedBy ⟨system.broker name, []⟩ label with
      | some fd =>
        rw [deleted, added, Option.all_some] at distinct
        refine iff_of_false (fun both => ?_) nofun
        have present := List.all_eq_true.mp both.2 _ (List.mem_singleton_self _)
        rcases of_decide_eq_true present with error | present
        · cases error
        · exact of_decide_eq_true ((Bool.and_eq_true _ _).mp distinct).2 present
      | none => exact iff_of_true ⟨rfl, rfl⟩ ⟨rfl, rfl⟩
  | error =>
    refine iff_of_true ⟨List.all_eq_true.mpr ?_, List.all_eq_true.mpr ?_⟩ rfl
    · intro registration member
      obtain ⟨fd, deleted, rfl⟩ := List.mem_map.mp member
      have own := owned.deleted_own (Option.mem_toList.mp deleted)
      refine decide_eq_true fun present => ?_
      obtain ⟨callback, other, kind⟩ := (owned.paired.error fd).mp present
      cases system.invokers.read.callback_unique own other
      cases kind
    · intro registration member
      obtain ⟨fd, -, rfl⟩ := List.mem_map.mp member
      exact decide_eq_true (p := Side.error = .error ∨ fd ∈ system.invokers.read.fds) (Or.inl rfl)

/-- When a call leaves a map alone, by what is called. -/
theorem calm_iff_steady (side : Side) {call : Call Broker Port Socket}
    (distinct : call.distinct system = true) :
    call.calm side system = true ↔ call.steady side system = true := by
  cases call with
  | broker name label => exact owned.broker_calm_iff side distinct
  | serialConnect name outcome =>
    refine (Registration.calm_both side system.invokers _ _ _).trans ?_
    cases outcome with
    | opens fd =>
      have absent : (fd : Int) ∉ system.invokers.read.fds := of_decide_eq_true distinct
      refine iff_of_false (fun present => absent ?_) nofun
      cases side with
      | read => exact present
      | error => exact owned.read_of_error present
    | fails step errno => exact decide_eq_true_iff.symm
  | serialDisconnect name closeErrno =>
    exact Bool.eq_iff_iff.mp (Bool.and_true _)
  | udpConnect name =>
    exact (Registration.calm_both side system.invokers _ _ _).trans decide_eq_true_iff.symm
  | udpDisconnect name => exact Bool.eq_iff_iff.mp (Bool.and_true _)

end System.Owned

namespace System.Owned

variable {system next : System Broker Port Socket} (owned : system.Owned)

include owned

/-- A steady call leaves a system in which the same calls are steady. -/
theorem alike {side : Side} {call : Call Broker Port Socket}
    (steady : call.steady side system = true)
    (taken : callMachine.step system call = some next) : Alike side system next := by
  obtain ⟨distinct, moved, component, rfl⟩ := callMachine_step taken
  have calm := (owned.calm_iff_steady side distinct).mpr steady
  have map := Registration.applyAll_calm side (call.registrations system) system.invokers calm
  cases call with
  | broker name label =>
    obtain ⟨after, stepped, rfl⟩ := Option.map_eq_some_iff.mp component
    refine { map := map, connected := ?_, ports := fun _ => Iff.rfl, sockets := rfl }
    rintro rfl other
    show (Function.update system.brokers name after.broker other).connected = _
    by_cases same : other = name
    · subst same
      rw [Function.update_self]
      have steady : label.steady (system.broker other).connected = true := steady
      exact sessionStep_connected (owned.brokers other) steady stepped
    · rw [Function.update_of_ne same]
  | serialConnect name outcome =>
    cases component
    obtain ⟨closed, present⟩ := (Bool.and_eq_true _ _).mp steady
    refine { map := map, connected := fun _ _ => rfl, ports := fun port => ?_, sockets := rfl }
    show (Function.update system.ports name _ port).fd ∈ _ ↔ _
    by_cases same : port = name
    · subst same
      rw [Function.update_self]
      cases outcome with
      | opens fd => cases closed
      | fails step errno =>
        refine iff_of_true (of_decide_eq_true present) ?_
        refine (owned.port_mem side port).elim (fun unopened => ?_) id
        rw [unopened]
        exact of_decide_eq_true present
    · rw [Function.update_of_ne same]
  | serialDisconnect name closeErrno =>
    cases component
    refine { map := map, connected := fun _ _ => rfl, ports := fun port => ?_, sockets := rfl }
    show (Function.update system.ports name _ port).fd ∈ _ ↔ _
    by_cases same : port = name
    · subst same
      rw [Function.update_self]
      have absent : (system.ports port).fd ∉ (side.map system.invokers).fds :=
        of_decide_eq_true steady
      have unopened := (owned.port_mem side port).resolve_right absent
      rw [unopened]
      rfl
    · rw [Function.update_of_ne same]
  | udpConnect name | udpDisconnect name =>
    cases component
    exact { map := map, connected := fun _ _ => rfl, ports := fun _ => Iff.rfl, sockets := rfl }

/-- A call that is steady for the read map is so for the error map. -/
theorem steady_error {call : Call Broker Port Socket} (distinct : call.distinct system = true)
    (steady : call.steady .read system = true) : call.steady .error system = true := by
  cases call with
  | broker name label => rfl
  | serialConnect name outcome =>
    obtain ⟨closed, present⟩ := (Bool.and_eq_true _ _).mp steady
    refine (Bool.and_eq_true _ _).mpr ⟨closed, decide_eq_true ((owned.paired.error _).mpr ?_)⟩
    obtain ⟨⟨fd, callback⟩, member, same⟩ := List.mem_map.mp (of_decide_eq_true present)
    have same : fd = -1 := same
    subst same
    refine ⟨callback, member, ?_⟩
    cases callback with
    | broker name =>
      have nonneg := owned.paired.opened _ name member
      omega
    | serialRead other | serialError other | udp socket => rfl
  | serialDisconnect name closeErrno | udpDisconnect name =>
    exact decide_eq_true fun present => of_decide_eq_true steady (owned.read_of_error present)
  | udpConnect name =>
    refine decide_eq_true ((owned.paired.error _).mpr ?_)
    obtain ⟨⟨fd, callback⟩, member, same⟩ := List.mem_map.mp (of_decide_eq_true steady)
    have same : fd = system.sockets name := same
    subst same
    refine ⟨callback, member, ?_⟩
    rw [socket_callback distinct (Or.inl rfl) member]
    rfl

end System.Owned

/-! ### Lists of calls -/

/-- Steady calls leave a system in which the same calls are steady. -/
theorem calls_alike (side : Side) {calls : List (Call Broker Port Socket)} :
    ∀ {system after : System Broker Port Socket}, callMachine.Reachable system →
      callMachine.run system calls = some after →
        (∀ call ∈ calls, call.steady side system = true) → Alike side system after := by
  induction calls with
  | nil =>
    intro system after _ ran _
    cases ran
    exact ⟨rfl, fun _ _ => rfl, fun _ => Iff.rfl, rfl⟩
  | cons call rest inductionHypothesis =>
    intro system after reachable ran steady
    obtain ⟨next, taken, remaining⟩ := Option.bind_eq_some_iff.mp ran
    obtain ⟨first, others⟩ := List.forall_mem_cons.mp steady
    have alike := (owned_of_reachable reachable).alike first taken
    refine alike.trans (inductionHypothesis (.step call reachable taken) remaining ?_)
    exact fun other member => (alike.steady other).trans (others other member)

/-- The calls of a run leave a map alone exactly if each of them is steady at its start. -/
theorem calls_unchanged_iff (side : Side) {calls : List (Call Broker Port Socket)} :
    ∀ {system after : System Broker Port Socket}, callMachine.Reachable system →
      callMachine.run system calls = some after →
        ((side.map after.invokers).changes = (side.map system.invokers).changes ↔
          ∀ call ∈ calls, call.steady side system = true) := by
  induction calls with
  | nil =>
    intro system after _ ran
    cases ran
    exact iff_of_true rfl nofun
  | cons call rest inductionHypothesis =>
    intro system after reachable ran
    obtain ⟨next, taken, remaining⟩ := Option.bind_eq_some_iff.mp ran
    have owned := owned_of_reachable reachable
    obtain ⟨grows, keeps⟩ := runCall_changes side taken
    have later := Machine.run_grows (fun system : System Broker Port Socket =>
      (side.map system.invokers).changes) (fun _ _ _ taken => (runCall_changes side taken).1)
      rest next after remaining
    have onward := inductionHypothesis (.step call reachable taken) remaining
    have calm := owned.calm_iff_steady side (callMachine_step taken).1
    rw [List.forall_mem_cons]
    constructor
    · intro same
      have unmoved : (side.map next.invokers).changes = (side.map system.invokers).changes := by
        omega
      have first := calm.mp (keeps.mpr unmoved)
      refine ⟨first, fun other member => ?_⟩
      rw [← (owned.alike first taken).steady]
      exact onward.mp (by omega) other member
    · rintro ⟨first, others⟩
      have alike := owned.alike first taken
      refine (onward.mpr fun other member => ?_).trans (keeps.mp (calm.mpr first))
      exact (alike.steady other).trans (others other member)

/-- Where the calls of a run leave the read map alone, the same calls are steady for the error map
before and after. -/
theorem calls_alike_error {calls : List (Call Broker Port Socket)} :
    ∀ {system after : System Broker Port Socket}, callMachine.Reachable system →
      callMachine.run system calls = some after →
        (∀ call ∈ calls, call.steady .read system = true) → Alike .error system after := by
  induction calls with
  | nil => exact fun reachable ran _ => calls_alike .error reachable ran nofun
  | cons call rest inductionHypothesis =>
    intro system after reachable ran steady
    obtain ⟨next, taken, remaining⟩ := Option.bind_eq_some_iff.mp ran
    obtain ⟨first, others⟩ := List.forall_mem_cons.mp steady
    have owned := owned_of_reachable reachable
    have alike := owned.alike first taken
    have distinct := (callMachine_step taken).1
    refine (owned.alike (owned.steady_error distinct first) taken).trans
      (inductionHypothesis (.step call reachable taken) remaining ?_)
    exact fun other member => (alike.steady other).trans (others other member)

/-! ### Traversals -/

namespace Pass

variable (pass : Pass Broker Port Socket) (side : Side)

/-- The traversal of a map runs the calls of the callbacks whose descriptor is ready, and invokes
each of these in turn. -/
theorem visits_run (entries : List (Int × Callback Broker Port Socket)) :
    ∀ visit after : Visit Broker Port Socket,
      (pass.visitMachine side).run visit entries = some after →
        callMachine.run visit.system (pass.called side entries) = some after.system ∧
          after.invoked = visit.invoked ++ entries.filter (pass.ready side ·.1) := by
  induction entries with
  | nil =>
    intro visit after ended
    cases ended
    exact ⟨rfl, (List.append_nil _).symm⟩
  | cons entry rest inductionHypothesis =>
    intro visit after ended
    obtain ⟨next, taken, remaining⟩ := Option.bind_eq_some_iff.mp ended
    obtain ⟨ran, invoked⟩ := inductionHypothesis next after remaining
    unfold visitMachine at taken
    unfold called
    dsimp only at taken
    by_cases ready : pass.ready side entry.1 = true
    · rw [if_pos ready] at taken
      obtain ⟨middle, first, rfl⟩ := Option.map_eq_some_iff.mp taken
      rw [List.filter_cons, if_pos ready, List.flatMap_cons, Machine.run_append, first]
      exact ⟨ran, invoked.trans (List.append_assoc _ _ _)⟩
    · rw [if_neg ready] at taken
      cases taken
      rw [List.filter_cons, if_neg ready]
      exact ⟨ran, invoked⟩

/-- The traversal of a map is valid exactly if the callbacks whose descriptor is ready are steady
when it starts. -/
theorem traverse_valid_iff {system : System Broker Port Socket}
    {after : Visit Broker Port Socket} (reachable : callMachine.Reachable system)
    (traversed : pass.traverse side system = some after) :
    after.Valid pass side system ↔
      ∀ entry ∈ (side.map system.invokers).entries, pass.ready side entry.1 = true →
        entry.2.steady side system (pass.behaviour side entry.1) = true := by
  obtain ⟨ran, invoked⟩ := pass.visits_run side _ _ _ traversed
  rw [← called_steady_iff, ← calls_unchanged_iff side reachable ran]
  refine ⟨Visit.Valid.unchanged, fun same => ⟨same, fun entry member => ?_⟩⟩
  rw [invoked, List.nil_append]
  split
  · rename_i ready
    have counted := List.count_filter (l := pass.order (side.map system.invokers))
      (p := fun other : Int × Callback Broker Port Socket => pass.ready side other.1) ready
    rw [counted, (pass.ordered _).count_eq]
    exact InvokerMap.count_entry _ member
  · rename_i notReady
    refine List.count_eq_zero.mpr fun present => ?_
    exact notReady (List.mem_filter.mp present).2

end Pass

/-- A pass traverses both maps validly exactly if, in the state in which the traversals start, every
callback whose descriptor is ready is steady. -/
theorem dispatch_valid_iff {system started : System Broker Port Socket}
    (reachable : callMachine.Reachable system) {pass : Pass Broker Port Socket}
    (piped : callMachine.run system pass.pipe = some started)
    {result : PassResult Broker Port Socket} (passed : waitInvoker system pass = some result) :
    result.Valid pass ↔ pass.Steady started := by
  obtain ⟨begun, called, passed⟩ := Option.bind_eq_some_iff.mp passed
  cases piped.symm.trans called
  obtain ⟨reading, read, passed⟩ := Option.bind_eq_some_iff.mp passed
  obtain ⟨errors, failed, rfl⟩ := Option.map_eq_some_iff.mp passed
  have before : callMachine.Reachable started := Machine.Reachable.run reachable piped
  have ran := (pass.visits_run .read _ _ _ read).1
  have between : callMachine.Reachable reading.system := Machine.Reachable.run before ran
  have readValid := pass.traverse_valid_iff .read before read
  have errorValid := pass.traverse_valid_iff .error between failed
  have unchanged : reading.Valid pass .read started → Alike .error started reading.system :=
    fun valid => calls_alike_error before ran
      ((pass.called_steady_iff .read started _).mpr (readValid.mp valid))
  constructor
  · rintro ⟨readFirst, errorsThen⟩ side entry member ready
    have alike := unchanged readFirst
    cases side with
    | read => exact readValid.mp readFirst entry member ready
    | error =>
      rw [← alike.steady_callback]
      have member : entry ∈ (Side.map reading.system.invokers .error).entries := by
        rw [alike.map]
        exact member
      exact errorValid.mp errorsThen entry member ready
  · intro steady
    have readFirst := readValid.mpr (steady .read)
    have alike := unchanged readFirst
    refine ⟨readFirst, errorValid.mpr fun entry member ready => ?_⟩
    rw [alike.steady_callback]
    rw [alike.map] at member
    exact steady .error entry member ready

/-- A pass in which a connected broker reads a reply, and its listener publishes. -/
def answered : Pass Unit Unit Unit where
  pipe := []
  ready side fd := side = .read && fd = 5
  behaviour _ _ :=
    { failed := false, first := .null, second := .null, closeErrno := none
      listeners := [.broker () (.publish .accepted .null .null)] }
  order map := map.entries
  ordered _ := .refl _

/-- The read of a broker that gets a reply, and whose listener is answered, leaves the map alone. -/
theorem dispatch_valid_answered :
    ∃ (system : System Unit Unit Unit) (result : PassResult Unit Unit Unit),
      callMachine.Reachable system ∧ waitInvoker system answered = some result ∧
        (5, .broker ()) ∈ result.reading.invoked ∧ result.Valid answered := by
  let attached : System Unit Unit Unit :=
    ⟨.empty, fun _ => .constructed, fun _ => .constructed, fun _ => 4⟩
  have start : callMachine.initial attached := ⟨rfl, fun _ => rfl, fun _ => rfl⟩
  obtain ⟨system, reachable, tested⟩ := Machine.exists_reachable_of_run callMachine start
    [.broker () (.connect "brain" (.ok 5) (.ok 6))]
    (fun system => system.invokers.error.entries = [] &&
      system.invokers.read.entries.all (fun entry =>
        entry.2.steady .read system (answered.behaviour .read entry.1)) &&
      (waitInvoker system answered).any fun result =>
        (5, Callback.broker ()) ∈ result.reading.invoked)
    (by decide +kernel)
  obtain ⟨steady, answers⟩ := (Bool.and_eq_true _ _).mp tested
  obtain ⟨none, steady⟩ := (Bool.and_eq_true _ _).mp steady
  obtain ⟨result, passed, invoked⟩ := (Option.any_eq_true _ _).mp answers
  refine ⟨system, result, reachable, passed, of_decide_eq_true invoked, ?_⟩
  refine (dispatch_valid_iff reachable rfl passed).mpr fun side entry member _ => ?_
  cases side with
  | read => exact List.all_eq_true.mp steady entry member
  | error =>
    have member : entry ∈ system.invokers.error.entries := member
    rw [of_decide_eq_true none] at member
    cases member

/-- A pass in which a connected broker gets no reply, and cannot connect again. -/
def lostReply : Pass Unit Unit Unit where
  pipe := []
  ready side fd := side = .read && fd = 5
  behaviour _ _ :=
    { failed := true, first := .null, second := .null, closeErrno := none, listeners := [] }
  order map := map.entries
  ordered _ := .refl _

/-- When the read of a connected broker fails, its read invoker erases itself from the map that is
being traversed. -/
theorem dispatch_invalid :
    ∃ system : System Unit Unit Unit, callMachine.Reachable system ∧
      (∀ side fd, lostReply.ready side fd = true → fd ∈ (side.map system.invokers).fds) ∧
      ¬ ∃ result, waitInvoker system lostReply = some result ∧ result.Valid lostReply := by
  let attached : System Unit Unit Unit :=
    ⟨.empty, fun _ => .constructed, fun _ => .constructed, fun _ => 4⟩
  have start : callMachine.initial attached := ⟨rfl, fun _ => rfl, fun _ => rfl⟩
  obtain ⟨system, reachable, passed⟩ := Machine.exists_reachable_of_run callMachine start
    [.broker () (.connect "brain" (.ok 5) (.ok 6))]
    (fun system => system.invokers.read.fds = [5] &&
      (waitInvoker system lostReply).all fun result =>
        result.reading.system.invokers.read.changes ≠ result.started.invokers.read.changes)
    (by decide +kernel)
  obtain ⟨one, changed⟩ := (Bool.and_eq_true _ _).mp passed
  refine ⟨system, reachable, fun side fd ready => ?_, ?_⟩
  · obtain ⟨read, same⟩ := (Bool.and_eq_true _ _).mp ready
    rw [of_decide_eq_true read, of_decide_eq_true same]
    show 5 ∈ system.invokers.read.fds
    rw [of_decide_eq_true one]
    exact List.mem_singleton_self 5
  · rintro ⟨result, ran, valid⟩
    rw [ran] at changed
    exact of_decide_eq_true changed valid.reading.unchanged

end BrokerProxy.Session
