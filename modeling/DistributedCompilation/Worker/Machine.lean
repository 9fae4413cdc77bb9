import DistributedCompilation.Runtime.Eligibility
import DistributedCompilation.Server.Loop

/-!
# Distributed Compilation — the worker

The process of `dc_worker` once it is connected: its main loop, the thread of its
heartbeat and one thread for each assignment, which take their steps in any order.
What a compiler makes of a unit, what a discovery finds and how much the socket
takes of a frame is up to the environment. A compile thread has no handler for the
`std::length_error` of an encoder: it ends the process, as it does in the main loop.
-/

namespace DistributedCompilation

/-- `to_string(CompilerFamily)`. -/
def CompilerFamily.text : CompilerFamily → String
  | unknown => "UNKNOWN"
  | msvc => "MSVC"
  | clang => "CLANG"
  | gnu => "GNU"
  | nvidiaNvcc => "NVIDIA_NVCC"
  | syntheticRocm => "SYNTHETIC_ROCM"
  | syntheticLevelZero => "SYNTHETIC_LEVEL_ZERO"
  | syntheticGeneric => "SYNTHETIC_GENERIC"
  | msvcLinker => "MSVC_LINKER"

/-- `struct CompileRunResult`, without the output that is only logged. -/
structure CompileRunResult where
  ok : Bool := false
  code : ErrorCode := .ok
  detail : Bytes := []
  artifact : Bytes := []
  invocation : Bytes := []
  compilerVersion : Bytes := []
  wallMillis : UInt64 := 0
  exitCode : Int32 := -1

/-- `select_adapter`, the adapter named by its family. -/
def selectAdapter : CompilerFamily → Option CompilerFamily
  | .msvc => some .msvc
  | .nvidiaNvcc => some .nvidiaNvcc
  | .syntheticRocm | .syntheticLevelZero | .syntheticGeneric => some .syntheticGeneric
  | .unknown | .clang | .gnu | .msvcLinker => none

/-- `run_compile_unit`, with what `CompilerAdapter::run` returns. Without an adapter the
result that is not `ok` is returned as it is. -/
def runCompileUnit (toolchain : ToolchainIdentity) (run : Result CompileRunResult) : Result CompileRunResult :=
  match selectAdapter toolchain.family with
  | none => .ok {
      code := .unsupported
      detail := txt "no compiler adapter for family " ++ txt toolchain.family.text }
  | some adapter =>
    if adapter ≠ toolchain.family ∧ toolchain.family ≠ .syntheticRocm ∧
        toolchain.family ≠ .syntheticLevelZero then
      .error ⟨.invalidArgument, txt "adapter/toolchain family mismatch"⟩
    else match run with
      | .error status => .error status
      | .ok result =>
        if !result.ok then
          .error ⟨if result.code = .ok then .internal else result.code, result.detail⟩
        else if result.artifact.isEmpty then
          .error ⟨.artifactMissing, txt "adapter reported success but produced no artifact bytes"⟩
        else .ok result

-- ---------------------------------------------------------------------------
-- Threads
-- ---------------------------------------------------------------------------

/-- Where the thread of an assignment stands. -/
inductive Phase
  | starting
  | compiling (toolchain : ToolchainIdentity)
  /-- about to send what became of the assignment -/
  | answering (op : Wire.Op) (payload : Payload)
  /-- about to leave the table of active compiles -/
  | leaving
  | gone

/-- The thread of an assignment and the flag of its `ActiveCompile`. -/
structure CompileThread where
  assignment : Assignment
  cancel : Bool := false
  phase : Phase := .starting

/-- The failure a thread reports under the claim of its assignment. -/
def Assignment.failure (assignment : Assignment) (status : Status) : Wire.FailAttemptMessage where
  claim := assignment.claim
  code := status.code
  detail := status.detail

def Assignment.fails (assignment : Assignment) (status : Status) : Phase :=
  .answering .failAttempt (Wire.encodeFailAttempt (assignment.failure status))

/-- The report of a compile. -/
def Assignment.report [HashFunction] (assignment : Assignment) (result : CompileRunResult) :
    Wire.ReportOutputMessage where
  claim := assignment.claim
  kind := assignment.outputKind
  logicalName := assignment.logicalName
  bytes := result.artifact
  declaredDigest := sha256 result.artifact
  compilerInvocation := result.invocation
  compilerVersionString := result.compilerVersion
  compilerWallMillis := result.wallMillis
  exitCode := result.exitCode

/-- What a thread answers when the compile returns; the flag is read once more. -/
def CompileThread.compiled [HashFunction] (thread : CompileThread) (compiled : Result CompileRunResult) : Phase :=
  match compiled with
  | .error status => thread.assignment.fails status
  | .ok result =>
    if thread.cancel then
      thread.assignment.fails ⟨.cancelled, txt "compile cancelled by the coordinator"⟩
    else .answering .reportOutput (Wire.encodeReportOutput (thread.assignment.report result))

-- ---------------------------------------------------------------------------
-- The process
-- ---------------------------------------------------------------------------

/-- `DiscoveryResult`, without its notes. -/
structure Discovery where
  toolchains : List ToolchainIdentity := []
  targets : List TargetIdentity := []

/-- `dc_worker` from its connection on. -/
structure WorkerProcess where
  capabilities : WorkerCapabilities
  session : SessionId := {}
  ready : Bool := false
  /-- every compile thread that was started, in the order of the assignments -/
  threads : List CompileThread := []
  /-- the thread whose `ActiveCompile` the map `active` holds -/
  active : Table CompilationAttemptId Nat := ∅
  reader : Wire.FrameReader := { maxFrameBytes := Wire.kMaxFrameBytes }
  /-- what the last feed left to be handled -/
  frames : List Bytes := []
  socket : Socket := {}
  /-- a send failed, or the socket is closed: nothing more goes out -/
  broken : Bool := false
  running : Bool := true
  died : Bool := false

/-- A step of one of the threads. `took` is how much of a frame the socket takes. -/
inductive WorkerEvent
  | receive (received : Received)
  | handle (discovered : Discovery) (took : Nat)
  | proceed (thread : Nat) (run : Result CompileRunResult) (took : Nat)
  | heartbeat (took : Nat)
  | exit

namespace WorkerProcess

/-- `Socket::send_all`. -/
def write (w : WorkerProcess) (bytes : Bytes) (took : Nat) : WorkerProcess :=
  if w.broken then w
  else { w with
    socket := { w.socket with sent := w.socket.sent ++ bytes.take took }
    broken := took < bytes.length }

/-- An encoder and `send_frame`: a frame that cannot be encoded is dropped. -/
def sendFrame (w : WorkerProcess) (op : Wire.Op) (requestId : UInt64) (payload : Payload) (took : Nat) :
    WorkerProcess :=
  if payload.fits then
    match Wire.encodeFrame { op, requestId, payload := payload.bytes } with
    | .ok encoded => w.write encoded took
    | .error _ => w
  else { w with died := true }

/-- The main loop ends: every active compile is cancelled. -/
def stop (w : WorkerProcess) : WorkerProcess := { w with
  running := false
  frames := []
  threads := w.threads.mapIdx fun k thread =>
    { thread with cancel := thread.cancel || w.active[thread.assignment.attempt]? == some k } }

section Steps

variable [HashFunction]

/-- What `recv_some` delivers. A reader that refuses its input drops the frames before. -/
def receive (w : WorkerProcess) : Received → WorkerProcess
  | .unready => w
  | .lost => w.stop
  | .data bytes =>
    let fed := w.reader.feed bytes
    let socket := { w.socket with received := w.socket.received ++ bytes }
    match fed.status with
    | .error _ => { w with socket, reader := fed.reader }.stop
    | .ok () => { w with socket, reader := fed.reader, frames := fed.out }

/-- The answer to a registration; all other answers are only logged. -/
def respond (w : WorkerProcess) (payload : Bytes) (took : Nat) : WorkerProcess :=
  match Wire.decodeResponse payload with
  | none => w
  | some response =>
    if response.op = .registerWorker ∧ response.code = .ok then
      match Wire.decodeReady response.payload with
      | none => w
      | some message =>
        let w := { w with session := message.session }.sendFrame .workerReady 3 [] took
        { w with ready := true }
    else w

/-- `start_compile`. -/
def startCompile (w : WorkerProcess) (assignment : Assignment) : WorkerProcess := { w with
  threads := w.threads ++ [{ assignment }]
  active := w.active.insert assignment.attempt w.threads.length }

/-- `case Op::CancelAttempt`. -/
def cancelAttempt (w : WorkerProcess) (control : ControlMessage) : WorkerProcess :=
  match w.active[control.attempt]? with
  | none => w
  | some k => { w with threads := w.threads.modify k fun thread => { thread with cancel := true } }

/-- `case Op::ValidateOutput`: what a new discovery finds is compared with what was
advertised. -/
def revalidate (w : WorkerProcess) (message : Wire.ValidateMessage) (discovered : Discovery) :
    Wire.ValidateResponseMessage :=
  let refreshed := canonicalizeCapabilities { w.capabilities with
    toolchains := discovered.toolchains, targets := discovered.targets }
  { mode := message.mode
    evidence := refreshed.evidence
    capabilitiesDigest := refreshed.digest
    subject := message.subject
    detail := if refreshed.digest = w.capabilities.digest then txt "capabilities unchanged"
      else txt "capabilities changed since registration" }

/-- One frame in the main loop. -/
def handleFrame (w : WorkerProcess) (frame : Wire.Frame) (discovered : Discovery) (took : Nat) :
    WorkerProcess :=
  match frame.op with
  | .response => w.respond frame.payload took
  | .assign =>
    match Wire.decodeAssignment frame.payload with
    | none => w
    | some assignment => w.startCompile assignment
  | .cancelAttempt =>
    match Wire.decodeControl frame.payload with
    | none => w
    | some control => w.cancelAttempt control
  | .validateOutput =>
    match Wire.decodeValidate frame.payload with
    | none => w
    | some message =>
      w.sendFrame .validateResponse 0 (Wire.encodeValidateResponse (w.revalidate message discovered)) took
  | .shutdown => w.stop
  | _ => w

/-- The next frame of the main loop. -/
def handle (w : WorkerProcess) (discovered : Discovery) (took : Nat) : WorkerProcess :=
  match w.frames with
  | [] => w
  | raw :: frames =>
    match Wire.decodeFrame raw with
    | .error _ => { w with frames }
    | .ok frame => { w with frames }.handleFrame frame discovered took

/-- A thread is somewhere else. -/
def advance (w : WorkerProcess) (k : Nat) (phase : Phase) : WorkerProcess :=
  { w with threads := w.threads.modify k fun thread => { thread with phase } }

/-- The next step of a compile thread. -/
def proceed (w : WorkerProcess) (k : Nat) (thread : CompileThread) (run : Result CompileRunResult) (took : Nat) :
    WorkerProcess :=
  match thread.phase with
  | .starting =>
    match findToolchain w.capabilities thread.assignment.toolchain.identityDigest with
    | none => w.advance k (thread.assignment.fails
        ⟨.staleToolchain, txt "assigned toolchain is no longer advertised by this worker"⟩)
    | some toolchain =>
      (w.sendFrame .beginCompile 0 (Wire.encodeAuthorityClaim thread.assignment.claim) took).advance k
        (.compiling toolchain)
  | .compiling toolchain => w.advance k (thread.compiled (runCompileUnit toolchain run))
  | .answering op payload => (w.sendFrame op 0 payload took).advance k .leaving
  | .leaving => { w with active := w.active.erase thread.assignment.attempt }.advance k .gone
  | .gone => w

/-- A step of the process; a thread that cannot take its step waits. -/
def step (w : WorkerProcess) (event : WorkerEvent) : WorkerProcess :=
  if w.died then w
  else match event with
    | .receive received => if w.running ∧ w.frames = [] then w.receive received else w
    | .handle discovered took => if w.running then w.handle discovered took else w
    | .proceed k run took =>
      match w.threads[k]? with
      | none => w
      | some thread => w.proceed k thread run took
    | .heartbeat took => w.sendFrame .heartbeat 0 [] took
    | .exit => if w.running then w else { w with broken := true }

/-- What the process sends before its main loop; where it is not sent there is no loop. -/
def boot (name : Bytes) (registration : Wire.RegisterWorkerMessage) (tookHello tookRegistration : Nat) :
    WorkerProcess :=
  let greeting := Wire.encodeHello { role := .worker, name }
  let enrolment := Wire.encodeRegisterWorker registration
  let w : WorkerProcess := { capabilities := registration.capabilities }
  let w := w.sendFrame .hello 1 greeting tookHello
  let w := w.sendFrame .registerWorker 2 enrolment tookRegistration
  if w.broken ∨ Wire.kMaxFrameBytes < greeting.bytes.length ∨ Wire.kMaxFrameBytes < enrolment.bytes.length then
    { w with running := false, broken := true }
  else w

/-- A worker after the steps its environment chose. -/
def runs (w : WorkerProcess) (events : List WorkerEvent) : WorkerProcess := events.foldl step w

end Steps

end WorkerProcess

end DistributedCompilation
