import DistributedCompilation.Safety.Once
import DistributedCompilation.Server.Loop

/-!
# Distributed Compilation — whatever the peers send

A frame is handled by sections of the coordinator, so what lasts there lasts over
every pass of the server, whatever bytes arrive on which connection, however they
are cut, and whichever connections are lost.
-/

namespace DistributedCompilation

open Program (Keeps)

namespace Lasting

variable [HashFunction] {I : Impl → Prop} [Lasting I]

-- ---------------------------------------------------------------------------
-- Handlers
-- ---------------------------------------------------------------------------

omit [HashFunction] in
theorem finish (payload : Payload) : Keeps I (Server.finish payload) :=
  Keeps.ite (fun _ => Keeps.pure _) fun _ => Keeps.leave _

omit [HashFunction] in
theorem decoded {α : Type} (subject : String) (message : Option α) :
    Keeps I (Server.decoded subject message) := by
  cases message with
  | none => exact Still.refused _ _
  | some message => exact Keeps.pure _

omit [HashFunction] in
theorem lookUp {α : Type} (found : Option α) (detail : String) : Keeps I (Server.lookUp found detail) := by
  cases found with
  | none => exact Still.refused _ _
  | some value => exact Keeps.pure _

omit [HashFunction] in
theorem discard {call : M Unit} (h : Keeps I call) : Keeps I (Server.discard call) := by
  refine Keeps.bind h.caught fun outcome => ?_
  rcases outcome with (_ | _) | _
  · exact Keeps.pure _
  · exact Keeps.leave _
  · exact Keeps.pure _

omit [HashFunction] in
theorem sendResponse (connection : Connection) (requestId : UInt64) (op : Wire.Op) (reply : Reply) :
    Keeps I (Server.sendResponse connection requestId op reply) :=
  Keeps.bind (finish _) fun _ => Keeps.pure _

theorem registerWorker (registration : WorkerRegistration) :
    Keeps I (DistributedCompilation.registerWorker registration) :=
  Noted.registerWorker registration fun hi _ _ admission => Lasting.admission hi admission

theorem markReady (session : SessionId) : Keeps I (DistributedCompilation.markReady session) :=
  Noted.markReady session fun hi _ admission => Lasting.admission hi admission

theorem reportOutput (session : SessionId) (output : ReportOutput) (smoke : SmokeTest) :
    Keeps I (Server.reportOutput session output smoke) := by
  refine Keeps.bind (Touched.reserveOutput session output) fun reservation => ?_
  refine Keeps.bind (Still.storeOutput reservation) fun _ => ?_
  exact Tracked.commitOutput _ _ _

theorem artifactBytes (id : CompilationId) : Keeps I (Server.artifactBytes id) := by
  refine Keeps.bind Still.getState fun s => ?_
  cases s.authoritative[id]? with
  | none => exact Still.refused _ _
  | some key =>
    cases hcommit : s.commits[key]? with
    | none =>
      simp only [hcommit]
      exact Still.refused _ _
    | some commit =>
      simp only [hcommit]
      exact Keeps.bind (Still.loadBlob _) fun bytes => Still.orLeave bytes

theorem answer (texts : Texts) (message : Wire.QueryMessage) : Keeps I (Server.answer texts message) := by
  refine Keeps.bind Keeps.read fun i => ?_
  split
  case h_9 => exact artifactBytes _
  case h_11 => exact Still.refused _ _
  all_goals first
    | exact Keeps.pure _
    | exact Keeps.bind (lookUp _ _) fun _ => Keeps.pure _

theorem submission (payload : Bytes) : Keeps I (Server.submission payload) := by
  refine Keeps.bind (decoded _ _) fun message => Keeps.bind Keeps.read fun i => ?_
  refine Keeps.ite (fun _ => Still.refused _ _) fun _ => ?_
  refine Keeps.bind (Tracked.submit _) fun submitted => ?_
  exact Keeps.bind (finish _) fun _ => Keeps.pure _

theorem register (connection : Connection) (payload : Bytes) :
    Keeps I (Server.register connection payload) := by
  refine Keeps.bind (decoded _ _) fun message => ?_
  refine Keeps.bind (registerWorker _) fun registered => ?_
  exact Keeps.bind (finish _) fun _ => Keeps.pure _

theorem advertise (connection : Connection) (payload : Bytes) :
    Keeps I (Server.advertise connection payload) := by
  refine Keeps.ite (fun _ => Still.refused _ _) fun _ => ?_
  refine Keeps.bind (decoded _ _) fun capabilities => ?_
  exact Keeps.bind (Touched.advertiseCapabilities _ _) fun _ => Keeps.pure _

/-- Every handler keeps what lasts. -/
theorem dispatch (texts : Texts) (smoke : SmokeTest) (connection : Connection) (frame : Wire.Frame) :
    Keeps I (Server.dispatch texts smoke connection frame) := by
  have replying {m : M Reply} (h : Keeps I m) :
      Keeps I (do let reply ← m; pure (connection, some reply) : M (Connection × Option Reply)) :=
    Keeps.bind h fun _ => Keeps.pure _
  have changing {m : M (Connection × Reply)} (h : Keeps I m) :
      Keeps I (do let handled ← m; pure (handled.1, some handled.2) :
        M (Connection × Option Reply)) := Keeps.bind h fun _ => Keeps.pure _
  have done {m : M Unit} (h : Keeps I m) : Keeps I (do m; pure {} : M Reply) :=
    Keeps.bind h fun _ => Keeps.pure _
  unfold Server.dispatch
  cases frame.op with
  | hello => exact changing (Keeps.bind (decoded _ _) fun _ => Keeps.pure _)
  | registerWorker => exact changing (register _ _)
  | advertiseToolchain => exact replying (advertise _ _)
  | workerReady =>
    exact replying (Keeps.ite (fun _ => Still.refused _ _) fun _ => done (markReady _))
  | heartbeat =>
    exact replying (Keeps.ite (fun _ => Keeps.pure _) fun _ => done (discard (Touched.heartbeat _)))
  | beginCompile =>
    exact replying (Keeps.bind (decoded _ _) fun _ => done (Touched.beginCompile _))
  | reportOutput =>
    refine replying (Keeps.bind (decoded _ _) fun _ => Keeps.bind (reportOutput _ _ _) fun _ => ?_)
    exact Keeps.bind (finish _) fun _ => Keeps.pure _
  | failAttempt => exact replying (Keeps.bind (decoded _ _) fun _ => done (Touched.failAttempt _ _))
  | validateResponse =>
    exact replying (Keeps.bind (decoded _ _) fun _ => done (Touched.handleValidateResponse _ _ _ _ _))
  | submitCompilation => exact replying (submission _)
  | cacheQuery =>
    refine Keeps.bind (Keeps.bind (decoded _ _) fun _ => Keeps.bind Keeps.read fun _ => ?_) fun _ =>
      Keeps.pure _
    exact Keeps.bind (finish _) fun _ => Keeps.pure _
  | audit => exact replying (Keeps.bind Keeps.read fun _ => Keeps.pure _)
  | snapshot => exact replying (done Noted.snapshotCoordinator)
  | cancelAttempt => exact replying (Keeps.bind (decoded _ _) fun _ => done (Touched.cancel _ _))
  | shutdown => exact replying (done (discard Noted.shutdownSessions))
  | query =>
    refine replying (Keeps.bind (decoded _ _) fun _ => ?_)
    exact Keeps.bind (answer _ _) fun _ => Keeps.pure _
  | _ => exact Still.refused _ _

theorem handleFrame (texts : Texts) (smoke : SmokeTest) (connection : Connection) (frame : Wire.Frame) :
    Keeps I (Server.handleFrame texts smoke connection frame) := by
  refine Keeps.bind (dispatch texts smoke connection frame).caught fun outcome => ?_
  rcases outcome with (_ | _) | ⟨_, _ | _⟩
  · exact Keeps.bind (sendResponse _ _ _ _) fun _ => Keeps.pure _
  · exact Keeps.leave _
  · exact Keeps.pure _
  · exact Keeps.bind (sendResponse _ _ _ _) fun _ => Keeps.pure _

theorem handleFrames (texts : Texts) (smoke : List SmokeTest) (connection : Connection)
    (frames : List Bytes) : Keeps I (Server.handleFrames texts smoke connection frames) := by
  induction frames generalizing smoke connection with
  | nil => exact Keeps.pure _
  | cons raw frames ih =>
    unfold Server.handleFrames
    cases Wire.decodeFrame raw with
    | error status => exact Keeps.bind (sendResponse _ _ _ _) fun connection => ih _ _
    | ok frame =>
      refine Keeps.bind (handleFrame _ _ _ _) fun handled => ?_
      exact Keeps.ite (fun _ => Keeps.pure _) fun _ => ih _ _

-- ---------------------------------------------------------------------------
-- Passes
-- ---------------------------------------------------------------------------

theorem serve (texts : Texts) (traffic : Traffic) (connection : Connection) :
    Keeps I (Server.serve texts traffic connection) := by
  unfold Server.serve
  refine Keeps.ite (fun _ => Keeps.pure _) fun _ => ?_
  cases traffic.received with
  | unready => exact Keeps.pure _
  | lost => exact Keeps.pure _
  | data bytes =>
    unfold Server.receive
    simp only
    split
    next => exact Keeps.pure _
    next => exact handleFrames _ _ _ _

theorem serveAll (texts : Texts) (traffic : List Traffic) (connections : List Connection) :
    Keeps I (Server.serveAll texts traffic connections) := by
  induction connections generalizing traffic with
  | nil => exact Keeps.pure _
  | cons connection connections ih =>
    refine Keeps.bind (serve _ _ _) fun served => ?_
    exact Keeps.bind (ih _) fun others => Keeps.pure _

omit [HashFunction] in
theorem deliverAssignments (assignments : List Assignment) (connections : List Connection) :
    Keeps I (Server.deliverAssignments assignments connections) := by
  induction assignments generalizing connections with
  | nil => exact Keeps.pure _
  | cons assignment assignments ih =>
    refine Keeps.bind (Keeps.ite (fun _ => ?_) fun _ => Keeps.pure _) fun _ => ih _
    exact Keeps.bind (finish _) fun _ => Keeps.pure _

omit [HashFunction] in
theorem deliverControls (controls : List ControlMessage) (connections : List Connection) :
    Keeps I (Server.deliverControls controls connections) := by
  induction controls generalizing connections with
  | nil => exact Keeps.pure _
  | cons control controls ih =>
    exact Keeps.bind Still.getState fun _ => Keeps.bind (finish _) fun _ => ih _

theorem hangUp (reason : String) (connection : Connection) :
    Keeps I (Server.hangUp reason connection) :=
  Keeps.ite (fun _ => Keeps.pure _) fun _ => discard (Touched.disconnectSession _ _)

theorem reap (connections : List Connection) : Keeps I (Server.reap connections) := by
  induction connections with
  | nil => exact Keeps.pure _
  | cons connection connections ih =>
    refine Keeps.ite (fun _ => ?_) fun _ => ?_
    · exact Keeps.bind (hangUp _ _) fun _ => ih
    · exact Keeps.bind ih fun _ => Keeps.pure _

theorem body (texts : Texts) (pass : Pass) (connections : List Connection) :
    Keeps I (Server.body texts pass connections) := by
  refine Keeps.bind (serveAll _ _ _) fun served => ?_
  refine Keeps.bind Tracked.pump fun assignments => ?_
  refine Keeps.bind (deliverAssignments _ _) fun connections => ?_
  refine Keeps.bind Noted.drainControls fun controls => ?_
  refine Keeps.bind (deliverControls _ _) fun connections => ?_
  exact Keeps.bind (reap _) fun connections => Keeps.pure _

theorem windUp (connections : List Connection) : Keeps I (Server.windUp connections) := by
  refine Keeps.bind (Keeps.forEach _ fun connection _ => hangUp _ connection) fun _ => ?_
  exact Keeps.bind (discard Noted.snapshotCoordinator) fun _ => Noted.closeCoordinator

theorem given {i : Impl} (environment : Environment) (h : I i) : I (System.given environment i) :=
  Still.quiet h rfl (.inl rfl)

/-- A pass of the server keeps what lasts, also one in which its process ends. -/
theorem pass {server : Server} (texts : Texts) (pass : Pass) (h : I server.impl) :
    I (server.pass texts pass).impl := by
  have hbody := body texts pass server.connections _ (given pass.environment h)
  unfold Server.pass
  generalize hrun : (Server.body texts pass server.connections).run
    (System.given pass.environment server.impl) = run at hbody ⊢
  unfold Program.wp at hbody
  rw [hrun] at hbody
  rcases run with ⟨_ | _, impl⟩
  · exact hbody
  · exact hbody

/-- So does the end of `main`. -/
theorem exit {server : Server} (environment : Environment) (h : I server.impl) :
    I (server.exit environment).impl := by
  have hwound := windUp server.connections _ (given environment h)
  unfold Server.exit
  unfold Program.wp at hwound
  generalize (Server.windUp server.connections).run (System.given environment server.impl) = run at hwound ⊢
  rcases run with ⟨_ | _, impl⟩
  · exact hwound
  · exact hwound

end Lasting

section

variable [HashFunction]

/-- What lasts of the coordinator lasts of the server. -/
theorem Server.Serves.lasts {I : Impl → Prop} [Lasting I] {texts : Texts} {first : Impl} {server : Server}
    (serves : Server.Serves texts first server) (h : I first) : I server.impl := by
  induction serves with
  | start => exact h
  | pass _ _ pass ih => exact Lasting.pass texts pass ih

end

-- ---------------------------------------------------------------------------
-- A client
-- ---------------------------------------------------------------------------

def noTexts : Texts where
  compilation _ := []
  attempt _ := []
  worker _ := []
  cacheDecision _ := []
  provenance _ := []
  commit _ := []
  audit _ := []
  explain _ _ := []

def clientHello : Wire.Frame :=
  { op := .hello, requestId := 7, payload := (Wire.encodeHello { name := txt "cli" }).bytes }

/-- A client connects to a server without a state directory, -/
def joined : Server := Server.pass noTexts { accepts := true } { impl := volatileFirst.impl }

/-- and says hello. -/
def greeted : Server := Server.pass noTexts { traffic := [{ received := .data clientHello.bytes }] } joined

set_option maxRecDepth 100000 in
theorem joined_running : joined.running = true := by decide +kernel

theorem greeted_serves : Server.Serves noTexts volatileFirst.impl greeted :=
  .pass (.pass .start rfl _) joined_running _

end DistributedCompilation
