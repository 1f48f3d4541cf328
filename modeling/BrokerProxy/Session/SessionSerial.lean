/-
This file models `SessionSerial` as far as it opens and closes its port: `connect` opens the
port and registers two callbacks for whatever descriptor the port has then, `disconnect`
deletes the callbacks of the descriptor the port has and closes it, and an error on the
descriptor disconnects.

`connect` does not look at the result of opening the port. A failure at any of its steps
leaves the descriptor -1, which is registered and passed to `FD_SET`; and a second `connect`
registers a second descriptor beside the first.
-/

import BrokerProxy.Library.Runs
import BrokerProxy.Limero.Invokers

namespace BrokerProxy.Session

open Runs Limero

/-! ### The port -/

/-- The fields of `Serial` that opening and closing change. -/
structure Serial where
  fd : Int
  connected : Bool
deriving DecidableEq

/-- The steps of `Serial::connect` at which it can fail. -/
inductive PortStep
  | «open»
  | isatty
  | tcgetattr
  | cfsetspeed
  | tcsetattr
deriving DecidableEq

/-- How opening and configuring the port ends: with an error number at one of the steps, or with a
descriptor. -/
inductive PortOutcome
  | fails (step : PortStep) (errno : Int)
  | opens (fd : Nat)
deriving DecidableEq

/-- The port is open and configured. -/
def PortOutcome.isOpen : PortOutcome → Bool
  | .opens _ => true
  | .fails _ _ => false

namespace Serial

/-- The constructor. -/
def constructed : Serial where
  fd := -1
  connected := false

/-- `Serial::connect`. Each of the failing steps closes what is open and resets the descriptor; the
flag is left as it was. -/
def connect (serial : Serial) : PortOutcome → Int × Serial
  | .fails _ errno => (errno, { serial with fd := -1 })
  | .opens fd => (0, { fd := fd, connected := true })

/-- `Serial::disconnect`, with the error number of `close` if it fails. What it logs then is left
out. -/
def disconnect (serial : Serial) (closeErrno : Option Int) : Int × Serial :=
  (closeErrno.getD 0, { serial with fd := -1, connected := false })

end Serial

/-! ### The session -/

/-- The callbacks that the session registers. -/
inductive SerialCallback
  | invoke
  | onError
deriving DecidableEq

/-- One run of `buildFdSet`: the descriptors it passes to `FD_SET`, and the descriptor of the port
then. -/
structure Build where
  sets : FdSets
  port : Int
deriving DecidableEq

/-- The session with the maps of its thread, and the runs of `buildFdSet` so far. -/
structure SessionSerial where
  serialPort : Serial
  invokers : Invokers SerialCallback
  builds : List Build

namespace SessionSerial

/-- The session before it connects. -/
def constructed : SessionSerial where
  serialPort := .constructed
  invokers := .empty
  builds := []

/-- Change the maps of the thread, which ends with `buildFdSet`. -/
def register (session : SessionSerial) (invokers : Invokers SerialCallback) : SessionSerial :=
  { session with
    invokers := invokers
    builds := session.builds ++ [⟨invokers.buildFdSet, session.serialPort.fd⟩] }

/-- `connect`, which returns true in any case. -/
def connect (session : SessionSerial) (outcome : PortOutcome) : SessionSerial :=
  let opened := { session with serialPort := (session.serialPort.connect outcome).2 }
  let reading := opened.register (opened.invokers.addReadInvoker opened.serialPort.fd .invoke)
  reading.register (reading.invokers.addErrorInvoker reading.serialPort.fd .onError)

/-- `disconnect`, which returns true in any case. -/
def disconnect (session : SessionSerial) (closeErrno : Option Int) : SessionSerial :=
  let deleted := session.register (session.invokers.deleteInvoker session.serialPort.fd)
  { deleted with serialPort := (deleted.serialPort.disconnect closeErrno).2 }

/-- `onError`. -/
def onError (session : SessionSerial) (closeErrno : Option Int) : SessionSerial :=
  session.disconnect closeErrno

end SessionSerial

/-- A call of the application, or an error that the thread reports for a descriptor. -/
inductive SerialLabel
  | connect (outcome : PortOutcome)
  | disconnect (closeErrno : Option Int)
  | onError (fd : Int) (closeErrno : Option Int)

/-- The step closes the port. -/
def SerialLabel.closes : SerialLabel → Bool
  | .connect _ => false
  | .disconnect _ | .onError _ _ => true

/-- One step of a session. -/
def serialStep (session : SessionSerial) : SerialLabel → Option SessionSerial
  | .connect outcome => some (session.connect outcome)
  | .disconnect closeErrno => some (session.disconnect closeErrno)
  | .onError fd closeErrno =>
      if (fd, .onError) ∈ session.invokers.error.entries then some (session.onError closeErrno)
      else none

/-- A session and its thread. -/
def serialMachine : Machine SessionSerial SerialLabel where
  initial session := session = .constructed
  step := serialStep

/-- A port is opened while none is open, and opening it succeeds. -/
def opensClosedPort (session : SessionSerial) : SerialLabel → Bool
  | .connect outcome => session.serialPort.fd = -1 && outcome.isOpen
  | .disconnect _ | .onError _ _ => true

/-! ### What stays registered -/

/-- A descriptor that both maps have and no other. -/
theorem valid_of_mem_both {port : Int} (isOpen : 0 ≤ port) :
    ∀ fd ∈ [port] ++ [port], 0 ≤ fd ∧ fd = port := by
  intro fd member
  have same : fd = port := by
    rcases List.mem_append.mp member with first | second
    · exact List.mem_singleton.mp first
    · exact List.mem_singleton.mp second
  exact ⟨same ▸ isOpen, same⟩

/-- Every descriptor that a run of `buildFdSet` passes on is a possible one, and is that of the open
port. -/
def Build.Valid (build : Build) : Prop :=
  ∀ fd ∈ build.sets.read ++ build.sets.error, 0 ≤ fd ∧ fd = build.port

/-- The callbacks are those of the open port, or the port is closed and there are none. -/
structure SessionSerial.Attached (session : SessionSerial) : Prop where
  port : (session.serialPort.fd = -1 ∧ session.invokers.buildFdSet = ⟨[], []⟩) ∨
    (0 ≤ session.serialPort.fd ∧
      session.invokers.buildFdSet = ⟨[session.serialPort.fd], [session.serialPort.fd]⟩)
  builds : ∀ build ∈ session.builds, build.Valid

namespace SessionSerial

/-- Opening a port while none is open registers its descriptor and no other one. -/
theorem Attached.connect {session : SessionSerial} (attached : session.Attached)
    (closed : session.serialPort.fd = -1) (fd : Nat) :
    (session.connect (.opens fd)).Attached := by
  rcases attached.port with ⟨-, none⟩ | ⟨isOpen, -⟩
  · obtain ⟨noRead, noError⟩ := FdSets.mk.inj none
    have reading : (session.invokers.read.emplace fd .invoke).fds = [(fd : Int)] := by
      rw [InvokerMap.fds_emplace, noRead, if_neg List.not_mem_nil]
    have errors : (session.invokers.error.emplace fd .onError).fds = [(fd : Int)] := by
      rw [InvokerMap.fds_emplace, noError, if_neg List.not_mem_nil]
    refine { port := Or.inr ⟨Int.natCast_nonneg fd, ?_⟩, builds := ?_ }
    · exact congrArg₂ FdSets.mk reading errors
    · have last : (session.connect (.opens fd)).builds = session.builds ++
          [⟨⟨(session.invokers.read.emplace fd .invoke).fds, session.invokers.error.fds⟩, fd⟩] ++
          [⟨⟨(session.invokers.read.emplace fd .invoke).fds,
            (session.invokers.error.emplace fd .onError).fds⟩, fd⟩] := rfl
      rw [last, reading, errors, noError, List.append_assoc]
      refine List.forall_mem_append.mpr ⟨attached.builds, ?_⟩
      refine List.forall_mem_cons.mpr ⟨?_, List.forall_mem_singleton.mpr ?_⟩
      · intro other member
        exact ⟨List.mem_singleton.mp member ▸ Int.natCast_nonneg fd, List.mem_singleton.mp member⟩
      · exact valid_of_mem_both (Int.natCast_nonneg fd)
  · omega

/-- Closing the port leaves no descriptor registered. -/
theorem Attached.disconnect {session : SessionSerial} (attached : session.Attached)
    (closeErrno : Option Int) :
    (session.disconnect closeErrno).Attached ∧
      (session.disconnect closeErrno).invokers.buildFdSet = ⟨[], []⟩ := by
  have nothing : (session.invokers.deleteInvoker session.serialPort.fd).buildFdSet = ⟨[], []⟩ := by
    show FdSets.mk (session.invokers.read.erase _).fds (session.invokers.error.erase _).fds = _
    rw [InvokerMap.fds_erase, InvokerMap.fds_erase]
    rcases attached.port with ⟨-, none⟩ | ⟨-, one⟩
    · obtain ⟨noRead, noError⟩ := FdSets.mk.inj none
      rw [noRead, noError]
      rfl
    · obtain ⟨oneRead, oneError⟩ := FdSets.mk.inj one
      have removed : [session.serialPort.fd].filter (· ≠ session.serialPort.fd) = [] := by
        refine List.filter_eq_nil_iff.mpr fun fd member => ?_
        exact fun kept => of_decide_eq_true kept (List.mem_singleton.mp member)
      rw [oneRead, oneError, removed]
  refine ⟨{ port := Or.inl ⟨rfl, nothing⟩, builds := ?_ }, nothing⟩
  refine List.forall_mem_append.mpr ⟨attached.builds, List.forall_mem_singleton.mpr ?_⟩
  intro fd member
  have member : fd ∈ (session.invokers.deleteInvoker session.serialPort.fd).buildFdSet.read ++
      (session.invokers.deleteInvoker session.serialPort.fd).buildFdSet.error := member
  rw [nothing] at member
  cases member

end SessionSerial

/-- A step that meets the condition keeps the session attached, and one that closes the port leaves
no callback. -/
theorem serialStep_attached {session next : SessionSerial} (attached : session.Attached)
    {label : SerialLabel} (opens : opensClosedPort session label = true)
    (taken : serialStep session label = some next) :
    next.Attached ∧ (label.closes = true → next.invokers.buildFdSet = ⟨[], []⟩) := by
  cases label with
  | connect outcome =>
    cases taken
    obtain ⟨closed, isOpen⟩ := (Bool.and_eq_true _ _).mp opens
    cases outcome with
    | fails step errno => cases isOpen
    | opens fd => exact ⟨attached.connect (of_decide_eq_true closed) fd, nofun⟩
  | disconnect closeErrno =>
    cases taken
    obtain ⟨kept, none⟩ := attached.disconnect closeErrno
    exact ⟨kept, fun _ => none⟩
  | onError fd closeErrno =>
    unfold serialStep at taken
    dsimp only at taken
    split at taken
    · cases taken
      obtain ⟨kept, none⟩ := attached.disconnect closeErrno
      exact ⟨kept, fun _ => none⟩
    · cases taken

theorem attached_of_reachable {session : SessionSerial}
    (reachable : (serialMachine.restrict opensClosedPort).Reachable session) :
    session.Attached := by
  refine Machine.Reachable.invariant ?_ ?_ reachable
  · rintro session rfl
    exact { port := Or.inl ⟨rfl, rfl⟩, builds := nofun }
  · intro session label next _ attached taken
    obtain ⟨opens, stepped⟩ := Machine.restrict_step taken
    exact (serialStep_attached attached opens stepped).1

/-- As long as a port is opened only while none is open, and opening it succeeds, every descriptor
that is registered whenever `buildFdSet` runs is not negative and is that of the open port, and
nothing stays registered after the port is closed. -/
theorem descriptors_valid {session : SessionSerial}
    (reachable : (serialMachine.restrict opensClosedPort).Reachable session) :
    (∀ build ∈ session.builds, build.Valid) ∧
      (∀ fd ∈ session.invokers.read.fds ++ session.invokers.error.fds,
        0 ≤ fd ∧ fd = session.serialPort.fd) ∧
      ∀ label next, label.closes = true →
        (serialMachine.restrict opensClosedPort).step session label = some next →
          next.invokers.read.fds = [] ∧ next.invokers.error.fds = [] := by
  have attached := attached_of_reachable reachable
  refine ⟨attached.builds, fun fd member => ?_, fun label next closes taken => ?_⟩
  · rcases attached.port with ⟨-, none⟩ | ⟨isOpen, one⟩
    · obtain ⟨noRead, noError⟩ := FdSets.mk.inj none
      rw [noRead, noError] at member
      cases member
    · obtain ⟨oneRead, oneError⟩ := FdSets.mk.inj one
      rw [oneRead, oneError] at member
      exact valid_of_mem_both isOpen fd member
  · obtain ⟨opens, stepped⟩ := Machine.restrict_step taken
    exact FdSets.mk.inj ((serialStep_attached attached opens stepped).2 closes)

/-- A session that reconnects after an error. -/
theorem descriptors_valid_reconnected :
    ∃ session, (serialMachine.restrict opensClosedPort).Reachable session ∧
      session.builds.length = 5 ∧ ∀ build ∈ session.builds, build.Valid := by
  obtain ⟨session, reachable, passed⟩ := Machine.exists_reachable_of_run
    (serialMachine.restrict opensClosedPort)
    (show serialMachine.initial .constructed from rfl)
    [.connect (.opens 5), .onError 5 none, .connect (.opens 5)]
    (fun session => session.builds.length = 5) (by decide +kernel)
  exact ⟨session, reachable, of_decide_eq_true passed, (descriptors_valid reachable).1⟩

/-- When the port is gone at the second attempt, `connect` registers the descriptor -1. -/
theorem descriptors_negative :
    ∃ session, serialMachine.Reachable session ∧
      ⟨⟨[-1], [-1]⟩, -1⟩ ∈ session.builds := by
  obtain ⟨session, reachable, passed⟩ := Machine.exists_reachable_of_run serialMachine
    (show serialMachine.initial .constructed from rfl)
    [.connect (.opens 5), .disconnect none, .connect (.fails .open 2)]
    (fun session => decide (⟨⟨[-1], [-1]⟩, -1⟩ ∈ session.builds)) (by decide +kernel)
  exact ⟨session, reachable, of_decide_eq_true passed⟩

end BrokerProxy.Session
