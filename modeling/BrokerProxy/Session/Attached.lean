/-
This file models a thread to which brokers and sessions are attached: what each of their
calls asks of the two maps of callbacks, and what the call does to the component it is
made on.

The components share the descriptors of the process. A descriptor that the operating
system opens is in use nowhere, and a UDP session names one that no other session has; then
every callback belongs to whoever has registered it, and each broker behaves as it does
alone.
-/

import BrokerProxy.Redis.ReadInvokers
import BrokerProxy.Session.SessionSerial
import Mathlib.Logic.Function.Basic

namespace BrokerProxy.Session

open Runs Limero Redis

/-! ### What is attached to a thread -/

/-- The callbacks of a thread: the read invoker of a broker, the two of a serial session, and the
one that a UDP session registers twice. -/
inductive Callback (Broker Port Socket : Type)
  | broker (name : Broker)
  | serialRead (name : Port)
  | serialError (name : Port)
  | udp (name : Socket)
deriving DecidableEq

/-- A thread with its brokers, serial ports and UDP sockets. The read invokers of a broker are those
in the map of the thread; the field of the broker is not used. -/
structure System (Broker Port Socket : Type) where
  invokers : Invokers (Callback Broker Port Socket)
  brokers : Broker → BrokerRedis
  ports : Port → Serial
  sockets : Socket → Int

/-- A call of a method of a broker or a session. -/
inductive Call (Broker Port Socket : Type)
  | broker (name : Broker) (label : SessionLabel)
  | serialConnect (name : Port) (outcome : PortOutcome)
  | serialDisconnect (name : Port) (closeErrno : Option Int)
  | udpConnect (name : Socket)
  | udpDisconnect (name : Socket)

variable {Broker Port Socket : Type}

/-! ### The two maps -/

/-- The callback is the read invoker of a broker. -/
def Callback.isBroker : Callback Broker Port Socket → Bool
  | .broker _ => true
  | .serialRead _ | .serialError _ | .udp _ => false

/-- The error map has the descriptors of the read map whose callback is not that of a broker, and
those of the brokers are possible ones. -/
structure Paired (invokers : Invokers (Callback Broker Port Socket)) : Prop where
  error : ∀ fd, fd ∈ invokers.error.fds ↔
    ∃ callback, (fd, callback) ∈ invokers.read.entries ∧ callback.isBroker = false
  opened : ∀ fd name, (fd, .broker name) ∈ invokers.read.entries → 0 ≤ fd

namespace Paired

variable {invokers : Invokers (Callback Broker Port Socket)} (paired : Paired invokers)

include paired

theorem deleteInvoker (fd : Int) : Paired (invokers.deleteInvoker fd) where
  error other := by
    show other ∈ (invokers.error.erase fd).fds ↔
      ∃ callback, (other, callback) ∈ (invokers.read.erase fd).entries ∧ callback.isBroker = false
    rw [InvokerMap.fds_erase, List.mem_filter, decide_eq_true_iff, paired.error]
    constructor
    · rintro ⟨⟨callback, present, kind⟩, apart⟩
      exact ⟨callback, InvokerMap.mem_erase.mpr ⟨present, apart⟩, kind⟩
    · rintro ⟨callback, kept, kind⟩
      obtain ⟨present, apart⟩ := InvokerMap.mem_erase.mp kept
      exact ⟨⟨callback, present, kind⟩, apart⟩
  opened other name kept := paired.opened other name (InvokerMap.mem_erase.mp kept).1

/-- A broker registers a descriptor that it has opened. -/
theorem addBroker {fd : Int} (nonneg : 0 ≤ fd) (name : Broker) :
    Paired (invokers.addReadInvoker fd (.broker name)) where
  error other := by
    show other ∈ invokers.error.fds ↔ ∃ callback,
      (other, callback) ∈ (invokers.read.emplace fd (.broker name)).entries ∧
        callback.isBroker = false
    rw [paired.error]
    refine exists_congr fun callback => and_congr_left fun kind => ?_
    rw [InvokerMap.mem_emplace]
    refine (or_iff_left ?_).symm
    rintro ⟨-, same⟩
    cases same
    cases kind
  opened other owner kept := by
    rcases InvokerMap.mem_emplace.mp kept with present | ⟨-, same⟩
    · exact paired.opened other owner present
    · cases same
      exact nonneg

/-- A session registers a descriptor in both maps, which has no callback of a broker. -/
theorem addBoth {fd : Int} {reading : Callback Broker Port Socket}
    (own : reading.isBroker = false)
    (free : ∀ callback, (fd, callback) ∈ invokers.read.entries → callback.isBroker = false)
    (failing : Callback Broker Port Socket) :
    Paired ((invokers.addReadInvoker fd reading).addErrorInvoker fd failing) where
  error other := by
    show other ∈ (invokers.error.emplace fd failing).fds ↔ ∃ callback,
      (other, callback) ∈ (invokers.read.emplace fd reading).entries ∧ callback.isBroker = false
    rw [InvokerMap.fds_emplace]
    by_cases same : other = fd
    · subst same
      refine iff_of_true ?_ ?_
      · split
        · assumption
        · exact List.mem_cons_self
      · by_cases present : other ∈ invokers.read.fds
        · obtain ⟨⟨fd, callback⟩, member, rfl⟩ := List.mem_map.mp present
          exact ⟨callback, InvokerMap.mem_emplace.mpr (Or.inl member), free callback member⟩
        · exact ⟨reading, InvokerMap.mem_emplace.mpr (Or.inr ⟨present, rfl⟩), own⟩
    · have kept : other ∈ (if fd ∈ invokers.error.fds then invokers.error.fds
          else fd :: invokers.error.fds) ↔ other ∈ invokers.error.fds := by
        split
        · rfl
        · exact List.mem_cons.trans (or_iff_right same)
      rw [kept, paired.error]
      refine exists_congr fun callback => and_congr_left fun _ => ?_
      rw [InvokerMap.mem_emplace]
      exact (or_iff_left fun both => same (congrArg Prod.fst both.2)).symm
  opened other name kept := by
    rcases InvokerMap.mem_emplace.mp kept with present | ⟨-, same⟩
    · exact paired.opened other name present
    · cases same
      cases own

end Paired

variable [DecidableEq Broker] [DecidableEq Port] [DecidableEq Socket]

/-- The broker with the read invokers that the thread has for it. -/
def System.broker (system : System Broker Port Socket) (name : Broker) : BrokerRedis :=
  { system.brokers name with
    readInvokers := system.invokers.read.fdsOf (.broker name) }

theorem System.broker_eq {system : System Broker Port Socket} {name : Broker}
    {broker : BrokerRedis} {fds : List Int} (same : system.brokers name = broker)
    (invokers : system.invokers.read.fdsOf (.broker name) = fds) :
    system.broker name = { broker with readInvokers := fds } := by
  subst same invokers
  rfl

/-! ### What a call does to the maps -/

/-- A change that is asked of the maps of a thread. -/
inductive Registration (Callback : Type)
  | deleteInvoker (fd : Int)
  | addReadInvoker (fd : Int) (callback : Callback)
  | addErrorInvoker (fd : Int) (callback : Callback)

/-- The maps after a change. -/
def Registration.apply {Callback : Type} (invokers : Invokers Callback) :
    Registration Callback → Invokers Callback
  | .deleteInvoker fd => invokers.deleteInvoker fd
  | .addReadInvoker fd callback => invokers.addReadInvoker fd callback
  | .addErrorInvoker fd callback => invokers.addErrorInvoker fd callback

/-- What a call asks of the maps of the thread, in order. -/
def Call.registrations (system : System Broker Port Socket) :
    Call Broker Port Socket → List (Registration (Callback Broker Port Socket))
  | .broker name label =>
      let session : Redis.Session := ⟨system.broker name, []⟩
      (deletedBy session label).toList.map .deleteInvoker ++
        (addedBy session label).toList.map (.addReadInvoker · (.broker name))
  | .serialConnect name outcome =>
      let fd := ((system.ports name).connect outcome).2.fd
      [.addReadInvoker fd (.serialRead name), .addErrorInvoker fd (.serialError name)]
  | .serialDisconnect name _ => [.deleteInvoker (system.ports name).fd]
  | .udpConnect name =>
      [.addReadInvoker (system.sockets name) (.udp name),
        .addErrorInvoker (system.sockets name) (.udp name)]
  | .udpDisconnect name => [.deleteInvoker (system.sockets name)]

/-- What a call does to the component it is made on. -/
def Call.component (system : System Broker Port Socket) :
    Call Broker Port Socket → Option (System Broker Port Socket)
  | .broker name label =>
      (sessionStep ⟨system.broker name, []⟩ label).map fun next =>
        { system with brokers := Function.update system.brokers name next.broker }
  | .serialConnect name outcome =>
      some
        { system with
          ports := Function.update system.ports name ((system.ports name).connect outcome).2 }
  | .serialDisconnect name closeErrno =>
      some
        { system with
          ports :=
            Function.update system.ports name ((system.ports name).disconnect closeErrno).2 }
  | .udpConnect _ | .udpDisconnect _ => some system

/-- One call. -/
def runCall (system : System Broker Port Socket) (call : Call Broker Port Socket) :
    Option (System Broker Port Socket) :=
  (call.component system).map fun moved =>
    { moved with invokers := (call.registrations system).foldl Registration.apply system.invokers }

/-- The descriptors that a call opens or names are its own: what a broker or a port opens has no
read callback, once the broker has closed what it had, and the read callback for the descriptor of a
UDP session is that session's. -/
def Call.distinct (system : System Broker Port Socket) : Call Broker Port Socket → Bool
  | .broker name label =>
      let session : Redis.Session := ⟨system.broker name, []⟩
      let closed := deletedBy session label
      (addedBy session label).all fun fd =>
        0 ≤ fd && fd ∉ withoutDescriptor system.invokers.read.fds closed
  | .serialConnect _ outcome =>
      match outcome with
      | .opens fd => (fd : Int) ∉ system.invokers.read.fds
      | .fails _ _ => true
  | .serialDisconnect _ _ => true
  | .udpConnect name | .udpDisconnect name =>
      system.invokers.read.entries.all fun entry =>
        entry.1 ≠ system.sockets name || entry.2 = .udp name

/-- A thread to which brokers and sessions are attached, and the calls made on these, as far as the
descriptors are distinct. -/
def callMachine : Machine (System Broker Port Socket) (Call Broker Port Socket) where
  initial system := system.invokers = .empty ∧ (∀ name, system.brokers name = .constructed) ∧
    ∀ name, system.ports name = .constructed
  step system call := if call.distinct system then runCall system call else none

/-! ### What a broker asks for -/

section Fold

variable {Callback : Type} [DecidableEq Callback] (invokers : Invokers Callback)

/-- The maps after a descriptor is deleted, if there is one. -/
def closing (deleted : Option Int) : Invokers Callback :=
  deleted.elim invokers invokers.deleteInvoker

omit [DecidableEq Callback] in
theorem foldl_registrations (deleted added : Option Int) (callback : Callback) :
    (deleted.toList.map Registration.deleteInvoker ++
        added.toList.map (Registration.addReadInvoker · callback)).foldl
          Registration.apply invokers =
      added.elim (closing invokers deleted)
        ((closing invokers deleted).addReadInvoker · callback) := by
  cases deleted <;> cases added <;> rfl

omit [DecidableEq Callback] in
theorem fds_closing (deleted : Option Int) :
    (closing invokers deleted).read.fds = withoutDescriptor invokers.read.fds deleted := by
  cases deleted with
  | none => rfl
  | some fd => exact InvokerMap.fds_erase _ _

theorem fdsOf_closing (deleted : Option Int) (callback : Callback) :
    (closing invokers deleted).read.fdsOf callback =
      withoutDescriptor (invokers.read.fdsOf callback) deleted := by
  cases deleted with
  | none => rfl
  | some fd => exact InvokerMap.fdsOf_erase _ _ _

/-- The descriptors of a broker after what its step asks for, where it opens a new one. -/
theorem fdsOf_own {deleted added : Option Int} {callback : Callback}
    (fresh : ∀ fd, added = some fd → fd ∉ withoutDescriptor invokers.read.fds deleted) :
    (added.elim (closing invokers deleted)
        ((closing invokers deleted).addReadInvoker · callback)).read.fdsOf callback =
      withDescriptor (withoutDescriptor (invokers.read.fdsOf callback) deleted) added := by
  cases added with
  | none => exact fdsOf_closing invokers deleted callback
  | some fd =>
    have absent := fresh fd rfl
    rw [← fds_closing] at absent
    have unowned : fd ∉ (closing invokers deleted).read.fdsOf callback := fun member =>
      absent (List.mem_map_of_mem (InvokerMap.mem_fdsOf.mp member))
    rw [← fdsOf_closing]
    show ((closing invokers deleted).read.emplace fd callback).fdsOf callback =
      if fd ∈ (closing invokers deleted).read.fdsOf callback then _ else _
    rw [InvokerMap.fdsOf_emplace, if_neg absent, if_neg unowned]

/-- The descriptors of another callback after what the step of a broker asks for, where it deletes
one of its own. -/
theorem fdsOf_other {deleted added : Option Int} {callback other : Callback}
    (apart : callback ≠ other)
    (own : ∀ fd, deleted = some fd → (fd, callback) ∈ invokers.read.entries) :
    (added.elim (closing invokers deleted)
        ((closing invokers deleted).addReadInvoker · callback)).read.fdsOf other =
      invokers.read.fdsOf other := by
  have closed : (closing invokers deleted).read.fdsOf other = invokers.read.fdsOf other := by
    cases deleted with
    | none => rfl
    | some fd =>
      exact InvokerMap.fdsOf_erase_of_not_mem fun present =>
        apart (invokers.read.callback_unique (own fd rfl) present)
  cases added with
  | none => exact closed
  | some fd => exact (InvokerMap.fdsOf_emplace_of_ne _ fd apart).trans closed

end Fold

/-! ### Who owns a descriptor -/

/-- What a call does: its descriptors are distinct, and both the component and the maps change. -/
theorem callMachine_step {system next : System Broker Port Socket}
    {call : Call Broker Port Socket} (taken : callMachine.step system call = some next) :
    call.distinct system = true ∧ ∃ moved, call.component system = some moved ∧
      next = { moved with
        invokers := (call.registrations system).foldl Registration.apply system.invokers } := by
  by_cases distinct : call.distinct system = true
  · have ran : runCall system call = some next := (if_pos distinct).symm.trans taken
    obtain ⟨moved, component, rfl⟩ := Option.map_eq_some_iff.mp ran
    exact ⟨distinct, moved, component, rfl⟩
  · cases (if_neg distinct).symm.trans taken

/-- The callbacks of a thread belong to who has registered them: a connected broker has one for its
subscribe context, and an open port one for its descriptor. -/
structure System.Owned (system : System Broker Port Socket) : Prop where
  brokers : ∀ name, (system.broker name).Registered
  ports : ∀ name, (system.ports name).fd = -1 ∨
    ((system.ports name).fd, .serialRead name) ∈ system.invokers.read.entries
  paired : Paired system.invokers

/-- The read callback for the descriptor of a UDP session is that session's. -/
theorem socket_callback {system : System Broker Port Socket} {call : Call Broker Port Socket}
    {socket : Socket} (distinct : call.distinct system = true)
    (named : call = .udpConnect socket ∨ call = .udpDisconnect socket)
    {callback : Callback Broker Port Socket}
    (present : (system.sockets socket, callback) ∈ system.invokers.read.entries) :
    callback = .udp socket := by
  have own : system.invokers.read.entries.all
      (fun entry => entry.1 ≠ system.sockets socket || entry.2 = .udp socket) = true := by
    rcases named with rfl | rfl <;> exact distinct
  rcases (Bool.or_eq_true _ _).mp (List.all_eq_true.mp own _ present) with apart | same
  · exact absurd rfl (of_decide_eq_true apart)
  · exact of_decide_eq_true same

namespace System.Owned

variable {system next : System Broker Port Socket} (owned : system.Owned)

include owned

/-- A descriptor that a broker deletes is its own. -/
theorem deleted_own {name : Broker} {label : SessionLabel} {fd : Int}
    (deleted : deletedBy ⟨system.broker name, []⟩ label = some fd) :
    (fd, .broker name) ∈ system.invokers.read.entries :=
  InvokerMap.mem_fdsOf.mp (mem_of_deletedBy (owned.brokers name) deleted)

/-- The descriptor of a port has no read callback of a broker. -/
theorem port_not_broker (port : Port) (name : Broker) :
    ((system.ports port).fd, .broker name) ∉ system.invokers.read.entries := by
  intro present
  rcases owned.ports port with closed | own
  · have nonneg := owned.paired.opened _ name present
    omega
  · cases system.invokers.read.callback_unique own present

/-- A call is a step of one broker, and leaves the others alone. -/
theorem broker_next {call : Call Broker Port Socket}
    (taken : callMachine.step system call = some next) (name : Broker) :
    next.broker name = system.broker name ∨
      ∃ label after, call = .broker name label ∧
        sessionStep ⟨system.broker name, []⟩ label = some after ∧
          next.broker name = after.broker := by
  obtain ⟨distinct, moved, component, rfl⟩ := callMachine_step taken
  cases call with
  | broker other label =>
    obtain ⟨after, stepped, rfl⟩ := Option.map_eq_some_iff.mp component
    unfold Call.registrations
    dsimp only
    rw [foldl_registrations]
    by_cases same : other = name
    · subst same
      refine Or.inr ⟨label, after, rfl, stepped, ?_⟩
      have fresh : ∀ fd, addedBy ⟨system.broker other, []⟩ label = some fd →
          fd ∉ withoutDescriptor system.invokers.read.fds
            (deletedBy ⟨system.broker other, []⟩ label) := by
        intro fd added
        unfold Call.distinct at distinct
        dsimp only at distinct
        rw [added, Option.all_some] at distinct
        exact of_decide_eq_true ((Bool.and_eq_true _ _).mp distinct).2
      exact System.broker_eq (Function.update_self _ _ _)
        ((fdsOf_own _ fresh).trans (sessionStep_readInvokers stepped).symm)
    · refine Or.inl (System.broker_eq (Function.update_of_ne (Ne.symm same) _ _) ?_)
      refine fdsOf_other _ (fun equal => same ?_) fun fd deleted => owned.deleted_own deleted
      cases equal
      rfl
  | serialConnect port outcome =>
    cases component
    exact Or.inl (System.broker_eq rfl (InvokerMap.fdsOf_emplace_of_ne _ _ nofun))
  | serialDisconnect port closeErrno =>
    cases component
    exact Or.inl (System.broker_eq rfl
      (InvokerMap.fdsOf_erase_of_not_mem (owned.port_not_broker port name)))
  | udpConnect socket =>
    cases component
    exact Or.inl (System.broker_eq rfl (InvokerMap.fdsOf_emplace_of_ne _ _ nofun))
  | udpDisconnect socket =>
    cases component
    refine Or.inl (System.broker_eq rfl (InvokerMap.fdsOf_erase_of_not_mem fun present => ?_))
    have own := List.all_eq_true.mp distinct _ present
    rcases (Bool.or_eq_true _ _).mp own with apart | same
    · exact of_decide_eq_true apart rfl
    · cases of_decide_eq_true same

/-- A port that is open keeps its read callback until it is closed. -/
theorem ports_next {call : Call Broker Port Socket}
    (taken : callMachine.step system call = some next) (port : Port) :
    (next.ports port).fd = -1 ∨
      ((next.ports port).fd, .serialRead port) ∈ next.invokers.read.entries := by
  obtain ⟨distinct, moved, component, rfl⟩ := callMachine_step taken
  cases call with
  | broker name label =>
    obtain ⟨after, -, rfl⟩ := Option.map_eq_some_iff.mp component
    refine (owned.ports port).imp_right fun own => ?_
    have closed : ((system.ports port).fd, Callback.serialRead port) ∈
        (closing system.invokers
          (deletedBy ⟨system.broker name, []⟩ label)).read.entries := by
      cases deleted : deletedBy ⟨system.broker name, []⟩ label with
      | none => exact own
      | some fd =>
        refine InvokerMap.mem_erase.mpr ⟨own, fun same => ?_⟩
        have same : (system.ports port).fd = fd := same
        exact owned.port_not_broker port name (same ▸ owned.deleted_own deleted)
    unfold Call.registrations
    dsimp only
    rw [foldl_registrations]
    cases addedBy ⟨system.broker name, []⟩ label with
    | none => exact closed
    | some fd => exact InvokerMap.mem_emplace.mpr (Or.inl closed)
  | serialConnect other outcome =>
    cases component
    by_cases same : port = other
    · subst same
      show (Function.update system.ports port _ port).fd = -1 ∨
        ((Function.update system.ports port _ port).fd, _) ∈
          (system.invokers.read.emplace _ _).entries
      rw [Function.update_self]
      cases outcome with
      | fails step errno => exact Or.inl rfl
      | opens fd =>
        exact Or.inr (InvokerMap.mem_emplace.mpr (Or.inr ⟨of_decide_eq_true distinct, rfl⟩))
    · show (Function.update system.ports other _ port).fd = -1 ∨
        ((Function.update system.ports other _ port).fd, _) ∈
          (system.invokers.read.emplace _ _).entries
      rw [Function.update_of_ne same]
      exact (owned.ports port).imp_right fun own => InvokerMap.mem_emplace.mpr (Or.inl own)
  | serialDisconnect other closeErrno =>
    cases component
    by_cases same : port = other
    · subst same
      refine Or.inl ?_
      show (Function.update system.ports port _ port).fd = -1
      rw [Function.update_self]
      rfl
    · show (Function.update system.ports other _ port).fd = -1 ∨
        ((Function.update system.ports other _ port).fd, _) ∈
          (system.invokers.read.erase _).entries
      rw [Function.update_of_ne same]
      rcases owned.ports port with closed | own
      · exact Or.inl closed
      by_cases equal : (system.ports port).fd = (system.ports other).fd
      · refine Or.inl ((owned.ports other).elim equal.trans fun others => ?_)
        rw [← equal] at others
        cases system.invokers.read.callback_unique own others
        exact absurd rfl same
      · exact Or.inr (InvokerMap.mem_erase.mpr ⟨own, equal⟩)
  | udpConnect socket =>
    cases component
    exact (owned.ports port).imp_right fun own => InvokerMap.mem_emplace.mpr (Or.inl own)
  | udpDisconnect socket =>
    cases component
    refine (owned.ports port).imp_right fun own => InvokerMap.mem_erase.mpr ⟨own, fun same => ?_⟩
    have same : (system.ports port).fd = system.sockets socket := same
    cases socket_callback distinct (Or.inr rfl) (same ▸ own)

/-- Every call keeps the two maps paired. -/
theorem paired_next {call : Call Broker Port Socket}
    (taken : callMachine.step system call = some next) : Paired next.invokers := by
  obtain ⟨distinct, moved, component, rfl⟩ := callMachine_step taken
  cases call with
  | broker name label =>
    have closed : Paired (closing system.invokers
        (deletedBy ⟨system.broker name, []⟩ label)) := by
      cases deletedBy ⟨system.broker name, []⟩ label with
      | none => exact owned.paired
      | some fd => exact owned.paired.deleteInvoker fd
    unfold Call.registrations
    dsimp only
    rw [foldl_registrations]
    cases added : addedBy ⟨system.broker name, []⟩ label with
    | none => exact closed
    | some fd =>
      unfold Call.distinct at distinct
      dsimp only at distinct
      rw [added, Option.all_some] at distinct
      exact closed.addBroker (of_decide_eq_true ((Bool.and_eq_true _ _).mp distinct).1) name
  | serialConnect port outcome =>
    refine owned.paired.addBoth rfl (fun callback present => ?_) _
    cases outcome with
    | opens fd => exact absurd (List.mem_map_of_mem present) (of_decide_eq_true distinct)
    | fails step errno =>
      cases callback with
      | broker name =>
        have nonneg : (0 : Int) ≤ -1 := owned.paired.opened _ name present
        omega
      | serialRead other | serialError other | udp socket => rfl
  | serialDisconnect port closeErrno => exact owned.paired.deleteInvoker _
  | udpConnect socket =>
    refine owned.paired.addBoth rfl (fun callback present => ?_) _
    rw [socket_callback distinct (Or.inl rfl) present]
    rfl
  | udpDisconnect socket => exact owned.paired.deleteInvoker _

/-- Every call leaves the callbacks with those who own them. -/
theorem step {call : Call Broker Port Socket}
    (taken : callMachine.step system call = some next) : next.Owned where
  brokers name := by
    rcases owned.broker_next taken name with same | ⟨label, after, -, stepped, same⟩
    · exact same ▸ owned.brokers name
    · exact same ▸ sessionStep_registered (owned.brokers name) stepped
  ports := owned.ports_next taken
  paired := owned.paired_next taken

end System.Owned

theorem owned_of_reachable {system : System Broker Port Socket}
    (reachable : callMachine.Reachable system) : system.Owned := by
  refine Machine.Reachable.invariant ?_ ?_ reachable
  · rintro system ⟨none, constructed, closed⟩
    refine { brokers := fun name connected => ?_, ports := fun port => ?_, paired := ?_ }
    · have connected : (system.brokers name).connected = true := connected
      rw [constructed] at connected
      cases connected
    · rw [closed]
      exact Or.inl rfl
    · rw [none]
      exact { error := fun fd => iff_of_false nofun (by rintro ⟨callback, ⟨⟩, -⟩), opened := nofun }
  · exact fun system call next _ owned taken => owned.step taken

/-- Each broker that is attached to a thread goes through the states of a broker alone. -/
theorem broker_reachable {system : System Broker Port Socket}
    (reachable : callMachine.Reachable system) (name : Broker) :
    ∃ accepted, sessionMachine.Reachable ⟨system.broker name, accepted⟩ := by
  refine @Machine.Reachable.invariant _ _ _ (fun system : System Broker Port Socket =>
    ∃ accepted, sessionMachine.Reachable ⟨system.broker name, accepted⟩) ?_ ?_ _ reachable
  · rintro system ⟨none, constructed, -⟩
    refine ⟨[], .initial ?_⟩
    rw [System.broker_eq (constructed name) (by rw [none])]
    rfl
  · rintro system call next before ⟨accepted, alone⟩ taken
    rcases (owned_of_reachable before).broker_next taken name with
      same | ⟨label, after, -, stepped, same⟩
    · exact ⟨accepted, same ▸ alone⟩
    · obtain ⟨later, again⟩ := sessionStep_accepted accepted stepped
      exact ⟨later, same ▸ .step label alone again⟩

end BrokerProxy.Session
