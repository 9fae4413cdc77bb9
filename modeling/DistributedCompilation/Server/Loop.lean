import DistributedCompilation.Server.Handler

/-!
# Distributed Compilation — the loop of the server

One pass of the loop of `dc_coordinator`: what each socket takes and delivers,
what the coordinator assigns and tells its workers, and the end of the
connections that are closing. What the sockets, the disk and the clock answer is
up to the environment; an exception ends the process where it is thrown.
-/

namespace DistributedCompilation

/-- How a socket that `select` found writable takes what is sent to it. -/
inductive Written
  | unready
  | failed
  | took (count : Nat)

/-- What a socket that `select` found readable delivers. -/
inductive Received
  | unready
  | lost
  | data (bytes : Bytes)

/-- What happens to one connection in a pass, with the outcomes of the smoke tests that
its reports ask for. -/
structure Traffic where
  written : Written := .unready
  received : Received := .unready
  smoke : List SmokeTest := []

/-- What happens in one pass; `stops` is a signal or an idle exit. -/
structure Pass where
  environment : Environment := {}
  traffic : List Traffic := []
  accepts : Bool := false
  stops : Bool := false

-- ---------------------------------------------------------------------------
-- Sockets
-- ---------------------------------------------------------------------------

namespace Connection

/-- After a send: a queue that is sent is cleared, one that grew too long ends the
connection. -/
def settle (connection : Connection) : Connection :=
  if connection.outgoing.length ≤ connection.outgoingSent then
    { connection with outgoing := [], outgoingSent := 0 }
  else if maxOutboundBytes < connection.outgoing.length then { connection with closing := true }
  else connection

/-- One attempt to send; a socket with nothing to send is not asked. -/
def transmit (connection : Connection) (written : Written) : Connection :=
  if connection.outgoing.length ≤ connection.outgoingSent then connection
  else match written with
    | .unready => connection
    | .failed => settle { connection with closing := true }
    | .took count =>
      let taken := connection.pending.take count
      settle { connection with
        socket := { connection.socket with sent := connection.socket.sent ++ taken }
        outgoingSent := connection.outgoingSent + taken.length }

end Connection

/-- `dc_coordinator` between two passes of its loop. -/
structure Server where
  impl : Impl
  connections : List Connection := []
  running : Bool := true
  died : Bool := false

namespace Server

section Pass

variable [HashFunction]

/-- What a connection delivers. A reader that refuses its input drops the frames before. -/
def receive (texts : Texts) (smoke : List SmokeTest) (connection : Connection) :
    Received → M (Connection × Bool)
  | .unready => pure (connection, false)
  | .lost => pure ({ connection with closing := true }, false)
  | .data bytes =>
    let fed := connection.reader.feed bytes
    let socket := { connection.socket with received := connection.socket.received ++ bytes }
    match fed.status with
    | .error _ => pure ({ connection with socket, reader := fed.reader, closing := true }, false)
    | .ok () => handleFrames texts smoke { connection with socket, reader := fed.reader } fed.out

/-- One connection in a pass. -/
def serve (texts : Texts) (traffic : Traffic) (connection : Connection) : M (Connection × Bool) :=
  let connection := connection.transmit traffic.written
  if connection.closing then pure (connection, false)
  else receive texts traffic.smoke connection traffic.received

/-- The connections one after the other, and whether one of them stops the server. -/
def serveAll (texts : Texts) : List Traffic → List Connection → M (List Connection × Bool)
  | _, [] => pure ([], false)
  | traffic, connection :: connections => do
    let (served, stops) ← serve texts (traffic.headD {}) connection
    let (others, stopsLater) ← serveAll texts traffic.tail connections
    pure (served :: others, stops || stopsLater)

-- ---------------------------------------------------------------------------
-- Deliveries
-- ---------------------------------------------------------------------------

/-- The first connection of the session gets the frame. -/
def post (session : SessionId) (op : Wire.Op) (payload : Bytes) : List Connection → List Connection
  | [] => []
  | connection :: connections =>
    if connection.session ≠ session then connection :: post session op payload connections
    else connection.queueFrame op 0 payload :: connections

/-- An assignment is only encoded for a connection that is there. -/
def deliverAssignment (assignment : Assignment) (connections : List Connection) :
    M (List Connection) :=
  if connections.any (·.session == assignment.session) then do
    let payload ← finish (Wire.encodeAssignment assignment)
    pure (post assignment.session .assign payload connections)
  else pure connections

def deliverAssignments : List Assignment → List Connection → M (List Connection)
  | [], connections => pure connections
  | assignment :: assignments, connections => do
    let connections ← deliverAssignment assignment connections
    deliverAssignments assignments connections

/-- The op a control message is sent under. -/
def controlOp : ControlKind → Wire.Op
  | .shutdown => .shutdown
  | .commitNotification => .commitArtifact
  | .cancelAttempt => .cancelAttempt

def deliverControls : List ControlMessage → List Connection → M (List Connection)
  | [], connections => pure connections
  | control :: controls, connections => do
    let s ← getState
    let payload ← finish [.record (Wire.outgoing s control).encode]
    deliverControls controls (post control.session (controlOp control.kind) payload connections)

-- ---------------------------------------------------------------------------
-- The end of a connection
-- ---------------------------------------------------------------------------

/-- A worker whose connection ends is disconnected. -/
def hangUp (reason : String) (connection : Connection) : M Unit :=
  if connection.session.isZero then pure ()
  else discard (disconnectSession connection.session (txt reason))

/-- Closed connections leave the table. -/
def reap : List Connection → M (List Connection)
  | [] => pure []
  | connection :: connections =>
    if connection.closing then do
      hangUp "connection closed" connection
      reap connections
    else do
      let others ← reap connections
      pure (connection :: others)

-- ---------------------------------------------------------------------------
-- The loop
-- ---------------------------------------------------------------------------

/-- The body of the loop: the connections it leaves, and whether one of them stops the
server. A connection accepted in this pass is in none of its `fd_set`s. -/
def body (texts : Texts) (pass : Pass) (connections : List Connection) :
    M (List Connection × Bool) := do
  let (served, stops) ← serveAll texts pass.traffic connections
  let connections := if pass.accepts then served ++ [{}] else served
  let assignments ← pump
  let connections ← deliverAssignments assignments connections
  let controls ← drainControls
  let connections ← deliverControls controls connections
  let connections ← reap connections
  pure (connections, stops)

/-- A pass over the loop. -/
def pass (texts : Texts) (pass : Pass) (server : Server) : Server :=
  match (body texts pass server.connections).run (System.given pass.environment server.impl) with
  | (.ok (connections, stops), impl) =>
    { server with impl, connections, running := !(stops || pass.stops) }
  | (.error _, impl) => { impl, running := false, died := true }

/-- What follows the loop. -/
def windUp (connections : List Connection) : M Unit := do
  Program.forEach connections (hangUp "coordinator shutdown")
  discard snapshotCoordinator
  closeCoordinator

/-- The end of `main`. -/
def exit (environment : Environment) (server : Server) : Server :=
  match (windUp server.connections).run (System.given environment server.impl) with
  | (.ok (), impl) => { impl, running := false }
  | (.error _, impl) => { impl, running := false, died := true }

/-- The states between the passes of a server whose loop begins with the coordinator it
opened. -/
inductive Serves (texts : Texts) (first : Impl) : Server → Prop
  | start : Serves texts first { impl := first }
  | pass {server : Server} (serves : Serves texts first server) (running : server.running = true)
      (pass : Pass) : Serves texts first (server.pass texts pass)

end Pass

end Server

end DistributedCompilation
