import DistributedCompilation.Coordinator.Lifecycle
import DistributedCompilation.Coordinator.Report
import DistributedCompilation.Coordinator.Schedule
import DistributedCompilation.Coordinator.Submit
import DistributedCompilation.Coordinator.Worker

/-!
# Distributed Compilation — the coordinator as a system

Every operation of the coordinator as one step, the three phases of a report
as three. A report between two phases is part of the state; which one moves
next, and what the disk and the clock answer, is up to the environment.
-/

namespace DistributedCompilation

variable [HashFunction]

/-- What the environment answers during one step. -/
structure Environment where
  io : List Bool := []
  readings : List UnixMillis := []

inductive Op
  | openWith (config : CoordinatorConfig)
  | close
  | snapshot
  | submit (bundle : SubmissionBundle)
  | pump
  | drainControls
  | registerWorker (registration : WorkerRegistration)
  | advertiseCapabilities (session : SessionId) (capabilities : WorkerCapabilities)
  | markReady (session : SessionId)
  | heartbeat (session : SessionId)
  | beginCompile (claim : AuthorityClaim)
  | validateResponse (session : SessionId) (mode : UInt32) (evidence : EvidenceClass)
      (digest : Digest256) (detail : Bytes)
  | shutdownSessions
  | failAttempt (session : SessionId) (report : AttemptFailure)
  | disconnect (session : SessionId) (reason : Bytes)
  | cancel (compilation : CompilationId) (reason : Bytes)
  /-- phase 1 of a report -/
  | reserve (session : SessionId) (output : ReportOutput)
  /-- phase 2 of the `n`-th report that passed phase 1 -/
  | validate (n : Nat) (smoke : SmokeTest)
  /-- phase 3 of the `n`-th report that passed phase 2 -/
  | commit (n : Nat)

/-- The coordinator and the reports in flight. -/
structure System where
  impl : Impl := {}
  reserved : List Reservation := []
  validated : List (Reservation × ValidationReport) := []

namespace System

/-- The coordinator after a section that other sections cannot observe. -/
def after {α : Type} (m : M α) (i : Impl) : Impl := (m.run i).2

/-- The coordinator with the answers of the environment at hand. -/
def given (environment : Environment) (i : Impl) : Impl :=
  { i with io := environment.io, readings := environment.readings }

/-- An operation that is a single section. -/
def exclusive {α : Type} (m : M α) (sys : System) : System := { sys with impl := after m sys.impl }

def reserveStep (session : SessionId) (output : ReportOutput) (sys : System) : System :=
  match (reserveOutput session output).run sys.impl with
  | (.ok reservation, impl) => { sys with impl, reserved := sys.reserved ++ [reservation] }
  | (.error _, impl) => { sys with impl }

def validateStep (n : Nat) (smoke : SmokeTest) (sys : System) : System :=
  match sys.reserved[n]? with
  | none => sys
  | some reservation =>
    let sys := { sys with reserved := sys.reserved.eraseIdx n }
    match (storeOutput reservation).run sys.impl with
    | (.ok (), impl) => { sys with impl, validated := sys.validated ++
        [(reservation, reservation.validate smoke)] }
    | (.error _, impl) => { sys with impl }

def commitStep (n : Nat) (sys : System) : System :=
  match sys.validated[n]? with
  | none => sys
  | some (reservation, report) =>
    exclusive (commitOutput reservation.session reservation.output report)
      { sys with validated := sys.validated.eraseIdx n }

/-- One step of the system. -/
def step (environment : Environment) (op : Op) (sys : System) : System :=
  let sys := { sys with impl := given environment sys.impl }
  match op with
  | .openWith config => exclusive (openCoordinator config) sys
  | .close => exclusive closeCoordinator sys
  | .snapshot => exclusive snapshotCoordinator sys
  | .submit bundle => exclusive (submit bundle) sys
  | .pump => exclusive pump sys
  | .drainControls => exclusive drainControls sys
  | .registerWorker registration => exclusive (registerWorker registration) sys
  | .advertiseCapabilities session capabilities =>
    exclusive (advertiseCapabilities session capabilities) sys
  | .markReady session => exclusive (markReady session) sys
  | .heartbeat session => exclusive (heartbeat session) sys
  | .beginCompile claim => exclusive (beginCompile claim) sys
  | .validateResponse session mode evidence digest detail =>
    exclusive (handleValidateResponse session mode evidence digest detail) sys
  | .shutdownSessions => exclusive shutdownSessions sys
  | .failAttempt session report => exclusive (failAttempt session report) sys
  | .disconnect session reason => exclusive (disconnectSession session reason) sys
  | .cancel compilation reason => exclusive (cancel compilation reason) sys
  | .reserve session output => reserveStep session output sys
  | .validate n smoke => validateStep n smoke sys
  | .commit n => commitStep n sys

/-- The system after a crash: a new process over the same state directory, of
whose journal the first `n` records survived. -/
def crash (n : Nat) (sys : System) : System :=
  { impl := { store :=
      { snapshot := sys.impl.store.snapshot
        journal := sys.impl.store.journal.take n
        blobs := sys.impl.store.blobs } } }

end System

end DistributedCompilation
