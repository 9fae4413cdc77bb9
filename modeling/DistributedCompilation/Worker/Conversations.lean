import DistributedCompilation.Lib.Interleaving
import DistributedCompilation.Server.Replies
import DistributedCompilation.Worker.Machine

/-!
# Distributed Compilation — what a worker says

The frames of a worker are an interleaving of what its compile threads send and of
what the process sends for itself. Whatever order the threads run in, each assignment
that was received is answered by one conversation: a begin and then a report or a
failure, or a failure at once, all under the claim of the assignment.
-/

namespace DistributedCompilation

open Interleaving

-- ---------------------------------------------------------------------------
-- Conversations
-- ---------------------------------------------------------------------------

/-- The frame that carries a payload, if there is one. -/
def Wire.framesOf (op : Op) (requestId : UInt64) (payload : Payload) : List Frame :=
  if payload.fits then [{ op, requestId, payload := payload.bytes }].filter Frame.sendable else []

/-- The assignment a worker finds in the bytes of a frame. -/
def Wire.assignmentOf [HashFunction] (raw : Bytes) : Option Assignment :=
  match decodeFrame raw with
  | .error _ => none
  | .ok frame => if frame.op = .assign then decodeAssignment frame.payload else none

/-- What a worker sends for none of its assignments. -/
def Wire.Op.isOwn (op : Op) : Prop :=
  op = .hello ∨ op = .registerWorker ∨ op = .workerReady ∨ op = .heartbeat ∨ op = .validateResponse

namespace Assignment

def begins (a : Assignment) : List Wire.Frame :=
  Wire.framesOf .beginCompile 0 (Wire.encodeAuthorityClaim a.claim)

def failed (a : Assignment) (status : Status) : List Wire.Frame :=
  Wire.framesOf .failAttempt 0 (Wire.encodeFailAttempt (a.failure status))

/-- The failure of an assignment whose toolchain the worker does not have. -/
def unknownToolchain : Status :=
  ⟨.staleToolchain, txt "assigned toolchain is no longer advertised by this worker"⟩

section

variable [HashFunction]

def reported (a : Assignment) (result : CompileRunResult) : List Wire.Frame :=
  Wire.framesOf .reportOutput 0 (Wire.encodeReportOutput (a.report result))

/-- A worker with these capabilities compiled the assignment with the toolchain it was
assigned. -/
def Compiles (capabilities : WorkerCapabilities) (a : Assignment) (result : CompileRunResult) : Prop :=
  ∃ (toolchain : ToolchainIdentity) (run : Result CompileRunResult),
    findToolchain capabilities a.toolchain.identityDigest = some toolchain ∧
      runCompileUnit toolchain run = .ok result

/-- What is sent for an assignment, at any time. -/
inductive Conversation (capabilities : WorkerCapabilities) (a : Assignment) : List Wire.Frame → Prop
  | silent : Conversation capabilities a []
  | declined (unknown : findToolchain capabilities a.toolchain.identityDigest = none) :
      Conversation capabilities a (a.failed unknownToolchain)
  | begun : Conversation capabilities a a.begins
  | failed (status : Status) : Conversation capabilities a (a.begins ++ a.failed status)
  | reported (result : CompileRunResult) (compiles : a.Compiles capabilities result) :
      Conversation capabilities a (a.begins ++ a.reported result)

/-- What a thread that has sent `before` is about to answer with. -/
inductive Due (capabilities : WorkerCapabilities) (a : Assignment) : List Wire.Frame → Wire.Op → Payload → Prop
  | declined (unknown : findToolchain capabilities a.toolchain.identityDigest = none) :
      Due capabilities a [] .failAttempt (Wire.encodeFailAttempt (a.failure unknownToolchain))
  | failed (status : Status) :
      Due capabilities a a.begins .failAttempt (Wire.encodeFailAttempt (a.failure status))
  | reported (result : CompileRunResult) (compiles : a.Compiles capabilities result) :
      Due capabilities a a.begins .reportOutput (Wire.encodeReportOutput (a.report result))

theorem Due.before {capabilities : WorkerCapabilities} {a : Assignment} {before : List Wire.Frame}
    {op : Wire.Op} {payload : Payload} (h : a.Due capabilities before op payload) :
    a.Conversation capabilities before := by
  cases h with
  | declined => exact .silent
  | failed => exact .begun
  | reported => exact .begun

theorem Due.answered {capabilities : WorkerCapabilities} {a : Assignment} {before : List Wire.Frame}
    {op : Wire.Op} {payload : Payload} (h : a.Due capabilities before op payload) :
    a.Conversation capabilities (before ++ Wire.framesOf op 0 payload) := by
  cases h with
  | declined unknown => exact .declined unknown
  | failed status => exact .failed status
  | reported result compiles => exact .reported result compiles

end

end Assignment

-- ---------------------------------------------------------------------------
-- Threads
-- ---------------------------------------------------------------------------

section

variable [HashFunction]

/-- What a thread has sent by the time it stands where it does. -/
def CompileThread.Said (capabilities : WorkerCapabilities) (thread : CompileThread) (frames : List Wire.Frame) :
    Prop :=
  match thread.phase with
  | .starting => frames = []
  | .compiling toolchain =>
    findToolchain capabilities thread.assignment.toolchain.identityDigest = some toolchain ∧
      frames = thread.assignment.begins
  | .answering op payload => thread.assignment.Due capabilities frames op payload
  | .leaving | .gone =>
    ∃ before op payload, thread.assignment.Due capabilities before op payload ∧
      frames = before ++ Wire.framesOf op 0 payload

theorem CompileThread.Said.conversation {capabilities : WorkerCapabilities} {thread : CompileThread}
    {frames : List Wire.Frame} (h : thread.Said capabilities frames) :
    thread.assignment.Conversation capabilities frames := by
  unfold Said at h
  split at h
  next => exact h ▸ .silent
  next =>
    obtain ⟨-, rfl⟩ := h
    exact .begun
  next => exact h.before
  all_goals
    obtain ⟨before, op, payload, hdue, rfl⟩ := h
    exact hdue.answered

/-- The answer of a compile that returned. -/
theorem CompileThread.said_compiled {capabilities : WorkerCapabilities} {thread : CompileThread}
    {toolchain : ToolchainIdentity} (run : Result CompileRunResult)
    (found : findToolchain capabilities thread.assignment.toolchain.identityDigest = some toolchain) :
    ({ thread with phase := thread.compiled (runCompileUnit toolchain run) } : CompileThread).Said capabilities
      thread.assignment.begins := by
  cases hrun : runCompileUnit toolchain run with
  | error status => exact .failed status
  | ok result =>
    cases hcancel : thread.cancel with
    | true =>
      rw [compiled, hcancel, if_pos rfl]
      exact .failed _
    | false =>
      rw [compiled, hcancel, if_neg Bool.false_ne_true]
      exact .reported result ⟨toolchain, run, found, hrun⟩

end

-- ---------------------------------------------------------------------------
-- Sending
-- ---------------------------------------------------------------------------

namespace WorkerProcess

/-- What went over the socket is the beginning of a stream of frames, all of it unless
the socket broke. -/
structure Spoken (w : WorkerProcess) (frames : List Wire.Frame) : Prop where
  sent : ∃ rest, w.socket.sent ++ rest = Wire.streamOf frames ∧ (w.broken = false → rest = [])
  sendable : ∀ frame ∈ frames, frame.sendable = true

/-- Only the socket is another. -/
structure Sends (w next : WorkerProcess) : Prop where
  capabilities : next.capabilities = w.capabilities
  threads : next.threads = w.threads
  active : next.active = w.active
  reader : next.reader = w.reader
  frames : next.frames = w.frames
  received : next.socket.received = w.socket.received
  running : next.running = w.running

variable (w : WorkerProcess)

theorem sends_self : w.Sends w := ⟨rfl, rfl, rfl, rfl, rfl, rfl, rfl⟩

theorem sends_write (bytes : Bytes) (took : Nat) : w.Sends (w.write bytes took) := by
  unfold write
  split <;> exact ⟨rfl, rfl, rfl, rfl, rfl, rfl, rfl⟩

theorem sends_sendFrame (op : Wire.Op) (requestId : UInt64) (payload : Payload) (took : Nat) :
    w.Sends (w.sendFrame op requestId payload took) := by
  unfold sendFrame
  split
  next =>
    cases Wire.encodeFrame { op, requestId, payload := payload.bytes } with
    | ok encoded => exact sends_write w encoded took
    | error status => exact ⟨rfl, rfl, rfl, rfl, rfl, rfl, rfl⟩
  next => exact ⟨rfl, rfl, rfl, rfl, rfl, rfl, rfl⟩

variable {w}

theorem Spoken.of_sent {next : WorkerProcess} {frames : List Wire.Frame} (h : w.Spoken frames)
    (sent : next.socket.sent = w.socket.sent) (broken : next.broken = false → w.broken = false) :
    next.Spoken frames where
  sent := by
    obtain ⟨rest, hrest, hwhole⟩ := h.sent
    rw [sent]
    exact ⟨rest, hrest, fun hbroken => hwhole (broken hbroken)⟩
  sendable := h.sendable

theorem Spoken.write {frames : List Wire.Frame} (h : w.Spoken frames) {frame : Wire.Frame}
    (sendable : frame.sendable = true) (took : Nat) : (w.write frame.bytes took).Spoken (frames ++ [frame]) := by
  obtain ⟨rest, hrest, hwhole⟩ := h.sent
  have hall : ∀ f ∈ frames ++ [frame], f.sendable = true := by
    intro f hf
    rcases List.mem_append.mp hf with hf | hf
    · exact h.sendable f hf
    · rw [List.mem_singleton.mp hf]
      exact sendable
  have hlast : Wire.streamOf [frame] = frame.bytes := List.flatMap_singleton _ _
  unfold WorkerProcess.write
  split
  next hbroken =>
    refine ⟨⟨rest ++ frame.bytes, ?_, fun hfalse => ?_⟩, hall⟩
    · rw [← List.append_assoc, hrest, Wire.streamOf_append, hlast]
    · rw [hbroken] at hfalse
      cases hfalse
  next hbroken =>
    have hnone := hwhole (Bool.eq_false_of_not_eq_true hbroken)
    rw [hnone, List.append_nil] at hrest
    refine ⟨⟨frame.bytes.drop took, ?_, fun htook => ?_⟩, hall⟩
    · show w.socket.sent ++ frame.bytes.take took ++ frame.bytes.drop took = _
      rw [List.append_assoc, List.take_append_drop, hrest, Wire.streamOf_append, hlast]
    · have hlong : ¬took < frame.bytes.length := of_decide_eq_false htook
      exact List.drop_eq_nil_of_le (Nat.not_lt.mp hlong)

theorem Spoken.sendFrame {frames : List Wire.Frame} (h : w.Spoken frames) (op : Wire.Op) (requestId : UInt64)
    (payload : Payload) (took : Nat) :
    (w.sendFrame op requestId payload took).Spoken (frames ++ Wire.framesOf op requestId payload) := by
  unfold WorkerProcess.sendFrame Wire.framesOf
  split
  next =>
    cases hencoded : Wire.encodeFrame { op, requestId, payload := payload.bytes } with
    | ok encoded =>
      obtain ⟨hshort, rfl⟩ := Wire.encodeFrame_eq_ok_iff.mp hencoded
      have hsendable : ({ op, requestId, payload := payload.bytes } : Wire.Frame).sendable = true :=
        decide_eq_true hshort
      rw [List.filter_cons_of_pos hsendable, List.filter_nil]
      exact h.write hsendable took
    | error status =>
      have hlong : ¬({ op, requestId, payload := payload.bytes } : Wire.Frame).sendable = true := by
        intro hsendable
        rw [Wire.encodeFrame_eq_ok_iff.mpr ⟨of_decide_eq_true hsendable, rfl⟩] at hencoded
        cases hencoded
      rw [List.filter_cons_of_neg hlong, List.filter_nil, List.append_nil]
      exact h
  next =>
    rw [List.append_nil]
    exact h.of_sent rfl id

end WorkerProcess

-- ---------------------------------------------------------------------------
-- The process
-- ---------------------------------------------------------------------------

namespace WorkerProcess

section

variable [HashFunction]

/-- What a worker said, entry by entry with the thread it comes from, and what became of
the frames it was sent: the main loop handled the first of them, and where its loop
ended the rest is dropped. -/
structure Accounts (w : WorkerProcess) (said : List (Option Nat × Wire.Frame)) (handled dropped : List Bytes) :
    Prop where
  spoken : w.Spoken (said.map (·.2))
  received : (Wire.FrameReader.feed { maxFrameBytes := Wire.kMaxFrameBytes } w.socket.received).out =
    handled ++ w.frames ++ dropped
  reading : w.running = true → dropped = [] ∧
    Wire.FrameReader.feed { maxFrameBytes := Wire.kMaxFrameBytes } w.socket.received =
      ⟨.ok (), handled ++ w.frames, w.reader⟩
  assigned : w.threads.map (·.assignment) = handled.filterMap Wire.assignmentOf
  own : ∀ frame ∈ partOf none said, frame.op.isOwn
  threads : ∀ (k : Nat) (thread : CompileThread), w.threads[k]? = some thread →
    thread.Said w.capabilities (partOf (some k) said)
  known : ∀ k : Nat, w.threads.length ≤ k → partOf (some k) said = []

variable {w next : WorkerProcess} {said : List (Option Nat × Wire.Frame)} {handled dropped : List Bytes}

namespace Accounts

/-- The process sends a frame for itself. -/
theorem send (h : w.Accounts said handled dropped) {op : Wire.Op} (own : op.isOwn) (requestId : UInt64)
    (payload : Payload) (took : Nat) :
    ∃ said, (w.sendFrame op requestId payload took).Accounts said handled dropped := by
  have hsends := w.sends_sendFrame op requestId payload took
  have hspoken := h.spoken.sendFrame op requestId payload took
  have hshare (k : Nat) : partOf (some k) (said ++ (Wire.framesOf op requestId payload).map (none, ·)) =
      partOf (some k) said := by
    rw [partOf_append, partOf_other (by simp), List.append_nil]
  refine ⟨said ++ (Wire.framesOf op requestId payload).map (none, ·), ?_, ?_, ?_, ?_, ?_, ?_, ?_⟩
  · rwa [List.map_append, List.map_map, List.map_id'']
    exact fun _ => rfl
  · rw [hsends.received, hsends.frames]
    exact h.received
  · rw [hsends.running, hsends.received, hsends.frames, hsends.reader]
    exact h.reading
  · rw [hsends.threads]
    exact h.assigned
  · rw [partOf_append, partOf_own]
    intro frame hframe
    rcases List.mem_append.mp hframe with hframe | hframe
    · exact h.own frame hframe
    · have hop : frame.op = op := by
        unfold Wire.framesOf at hframe
        split at hframe
        · rw [List.mem_singleton.mp (List.mem_filter.mp hframe).1]
        · cases hframe
      rw [hop]
      exact own
  · rw [hsends.threads, hsends.capabilities]
    intro k thread hthread
    rw [hshare]
    exact h.threads k thread hthread
  · rw [hsends.threads]
    intro k hk
    rw [hshare]
    exact h.known k hk

/-- A thread moves on and may send something. -/
theorem advance (h : w.Accounts said handled dropped) {k : Nat} {thread : CompileThread}
    (hthread : w.threads[k]? = some thread) {sent : WorkerProcess} (hsends : w.Sends sent)
    {frames : List Wire.Frame} (hspoken : sent.Spoken (said.map (·.2) ++ frames)) {phase : Phase}
    (hsaid : ({ thread with phase } : CompileThread).Said w.capabilities (partOf (some k) said ++ frames)) :
    ∃ said, (sent.advance k phase).Accounts said handled dropped := by
  have hthreads : (sent.advance k phase).threads =
      w.threads.modify k fun thread => { thread with phase } := by
    rw [← hsends.threads]
    rfl
  refine ⟨said ++ frames.map (some k, ·), ?_, ?_, ?_, ?_, ?_, ?_, ?_⟩
  · have hall : (said ++ frames.map (some k, ·)).map (·.2) = said.map (·.2) ++ frames := by
      rw [List.map_append, List.map_map, List.map_id'']
      exact fun _ => rfl
    rw [hall]
    exact hspoken.of_sent rfl id
  · show (Wire.FrameReader.feed _ sent.socket.received).out = handled ++ sent.frames ++ dropped
    rw [hsends.received, hsends.frames]
    exact h.received
  · show sent.running = true → _ ∧ Wire.FrameReader.feed _ sent.socket.received =
      ⟨.ok (), handled ++ sent.frames, sent.reader⟩
    rw [hsends.running, hsends.received, hsends.frames, hsends.reader]
    exact h.reading
  · rw [hthreads, ← h.assigned]
    refine List.ext_getElem? fun j => ?_
    rw [List.getElem?_map, List.getElem?_map, List.getElem?_modify, Option.map_eq_map, Option.map_map]
    refine congrFun (congrArg Option.map (funext fun thread => ?_)) _
    simp only [Function.comp_apply]
    split <;> rfl
  · rw [partOf_append, partOf_other (by simp), List.append_nil]
    exact h.own
  · intro j other hother
    show other.Said sent.capabilities _
    rw [hsends.capabilities, partOf_append]
    rw [hthreads, List.getElem?_modify] at hother
    by_cases hj : k = j
    · subst hj
      rw [hthread, Option.map_eq_map, Option.map_some, if_pos rfl] at hother
      cases hother
      rw [partOf_own]
      exact hsaid
    · have hsame : w.threads[j]? = some other := by simpa [hj] using hother
      have hapart : (some k : Option Nat) ≠ some j := fun heq => hj (Option.some.inj heq)
      rw [partOf_other hapart, List.append_nil]
      exact h.threads j other hsame
  · intro j hj
    rw [hthreads, List.length_modify] at hj
    have hlt : k < w.threads.length := (List.getElem?_eq_some_iff.mp hthread).1
    have hapart : (some k : Option Nat) ≠ some j := by
      intro heq
      have := Option.some.inj heq
      omega
    rw [partOf_append, partOf_other hapart, List.append_nil]
    exact h.known j hj

/-- The main loop is done with a frame that is no assignment. -/
theorem skip (h : w.Accounts said handled dropped) {raw : Bytes} {frames : List Bytes}
    (hframes : w.frames = raw :: frames) (hnone : Wire.assignmentOf raw = none) :
    ({ w with frames } : WorkerProcess).Accounts said (handled ++ [raw]) dropped where
  spoken := h.spoken.of_sent rfl id
  received := by
    rw [List.append_assoc handled, List.singleton_append, ← hframes]
    exact h.received
  reading := by
    rw [List.append_assoc handled, List.singleton_append, ← hframes]
    exact h.reading
  assigned := by
    rw [List.filterMap_append, List.filterMap_cons_none hnone, List.filterMap_nil, List.append_nil]
    exact h.assigned
  own := h.own
  threads := h.threads
  known := h.known

/-- An assignment gets a thread of its own. -/
theorem startCompile (h : w.Accounts said handled dropped) {raw : Bytes} {frames : List Bytes}
    (hframes : w.frames = raw :: frames) {assignment : Assignment} (hsome : Wire.assignmentOf raw = some assignment) :
    (({ w with frames } : WorkerProcess).startCompile assignment).Accounts said (handled ++ [raw]) dropped where
  spoken := h.spoken.of_sent rfl id
  received := by
    rw [List.append_assoc handled, List.singleton_append]
    exact hframes ▸ h.received
  reading := by
    rw [List.append_assoc handled, List.singleton_append]
    exact hframes ▸ h.reading
  assigned := by
    show (w.threads ++ [({ assignment } : CompileThread)]).map _ = _
    rw [List.filterMap_append, List.filterMap_cons_some hsome, List.filterMap_nil, List.map_append, h.assigned]
    rfl
  own := h.own
  threads := by
    intro k thread hthread
    have hthread : (w.threads ++ [({ assignment } : CompileThread)])[k]? = some thread := hthread
    rw [List.getElem?_append] at hthread
    split at hthread
    next => exact h.threads k thread hthread
    next hlong =>
      -- nobody has spoken for the new thread
      rw [List.getElem?_singleton] at hthread
      split at hthread
      next =>
        cases hthread
        exact h.known k (Nat.not_lt.mp hlong)
      next => cases hthread
  known := by
    intro k hk
    have hk : (w.threads ++ [({ assignment } : CompileThread)]).length ≤ k := hk
    rw [List.length_append] at hk
    exact h.known k (by omega)

/-- A flag of a thread says nothing. -/
theorem flagged (h : w.Accounts said handled dropped) {threads : List CompileThread}
    (hlength : threads.length = w.threads.length)
    (hsame : ∀ (k : Nat) (thread : CompileThread), threads[k]? = some thread → ∃ before,
      w.threads[k]? = some before ∧ thread.assignment = before.assignment ∧ thread.phase = before.phase) :
    ({ w with threads } : WorkerProcess).Accounts said handled dropped where
  spoken := h.spoken.of_sent rfl id
  received := h.received
  reading := h.reading
  assigned := by
    rw [← h.assigned]
    refine List.ext_getElem? fun k => ?_
    rw [List.getElem?_map, List.getElem?_map]
    cases hthread : threads[k]? with
    | none =>
      have hlong : w.threads.length ≤ k := hlength ▸ List.getElem?_eq_none_iff.mp hthread
      rw [List.getElem?_eq_none hlong]
    | some thread =>
      obtain ⟨before, hbefore, hassignment, -⟩ := hsame k thread hthread
      rw [hbefore, Option.map_some, Option.map_some, hassignment]
  own := h.own
  threads := by
    intro k thread hthread
    obtain ⟨before, hbefore, hassignment, hphase⟩ := hsame k thread hthread
    have hsaid := h.threads k before hbefore
    unfold CompileThread.Said at hsaid ⊢
    rw [hphase, hassignment]
    exact hsaid
  known := by
    intro k hk
    exact h.known k (hlength ▸ hk)

theorem cancelAttempt (h : w.Accounts said handled dropped) (control : ControlMessage) :
    (w.cancelAttempt control).Accounts said handled dropped := by
  unfold WorkerProcess.cancelAttempt
  split
  next => exact h
  next k =>
    refine h.flagged (List.length_modify _ _ _) fun j thread hthread => ?_
    rw [List.getElem?_modify] at hthread
    obtain ⟨before, hbefore, heq⟩ := Option.map_eq_some_iff.mp hthread
    refine ⟨before, hbefore, ?_⟩
    subst heq
    split <;> exact ⟨rfl, rfl⟩

/-- The main loop ends and drops what it has not handled. -/
theorem stop (h : w.Accounts said handled dropped) : w.stop.Accounts said handled (w.frames ++ dropped) := by
  have hflagged : ({ w with threads := w.stop.threads } : WorkerProcess).Accounts said handled dropped := by
    refine h.flagged List.length_mapIdx fun k thread hthread => ?_
    have hthread : (w.threads.mapIdx fun k thread =>
      { thread with cancel := thread.cancel || w.active[thread.assignment.attempt]? == some k })[k]? =
        some thread := hthread
    rw [List.getElem?_mapIdx] at hthread
    obtain ⟨before, hbefore, rfl⟩ := Option.map_eq_some_iff.mp hthread
    exact ⟨before, hbefore, rfl, rfl⟩
  refine ⟨hflagged.spoken.of_sent rfl id, ?_, fun hrunning => ?_, hflagged.assigned, hflagged.own,
    hflagged.threads, hflagged.known⟩
  · show (Wire.FrameReader.feed _ w.socket.received).out = handled ++ [] ++ (w.frames ++ dropped)
    rw [List.append_nil, ← List.append_assoc]
    exact h.received
  · cases hrunning

end Accounts

-- ---------------------------------------------------------------------------
-- Steps
-- ---------------------------------------------------------------------------

/-- Somebody accounts for what the worker says. -/
def Accounted (w : WorkerProcess) : Prop := ∃ said handled dropped, w.Accounts said handled dropped

theorem Accounts.accounted (h : w.Accounts said handled dropped) : w.Accounted := ⟨said, handled, dropped, h⟩

theorem Accounts.respond (h : w.Accounts said handled dropped) (payload : Bytes) (took : Nat) :
    ∃ said, (w.respond payload took).Accounts said handled dropped := by
  unfold WorkerProcess.respond
  split
  next => exact ⟨said, h⟩
  next response =>
    split
    next =>
      split
      next => exact ⟨said, h⟩
      next message _ =>
        have hnamed : ({ w with session := message.session } : WorkerProcess).Accounts said handled dropped :=
          ⟨h.spoken.of_sent rfl id, h.received, h.reading, h.assigned, h.own, h.threads, h.known⟩
        obtain ⟨said, hsent⟩ := hnamed.send (.inr (.inr (.inl rfl))) 3 [] took
        exact ⟨said, hsent.spoken.of_sent rfl id, hsent.received, hsent.reading, hsent.assigned, hsent.own,
          hsent.threads, hsent.known⟩
    next => exact ⟨said, h⟩

/-- The main loop handles a frame. -/
theorem Accounts.handle (h : w.Accounts said handled dropped) (discovered : Discovery) (took : Nat) :
    (w.handle discovered took).Accounted := by
  unfold WorkerProcess.handle
  split
  next => exact h.accounted
  next raw frames hframes =>
    cases hraw : Wire.decodeFrame raw with
    | error status =>
      refine (h.skip hframes ?_).accounted
      rw [Wire.assignmentOf, hraw]
    | ok frame =>
      have hof : Wire.assignmentOf raw =
          if frame.op = .assign then Wire.decodeAssignment frame.payload else none := by
        rw [Wire.assignmentOf, hraw]
      show (WorkerProcess.handleFrame _ frame discovered took).Accounted
      have other (hop : frame.op ≠ .assign) :
          ({ w with frames } : WorkerProcess).Accounts said (handled ++ [raw]) dropped :=
        h.skip hframes (hof.trans (if_neg hop))
      unfold WorkerProcess.handleFrame
      split
      next hop =>
        obtain ⟨said, hdone⟩ := (other (by rw [hop]; decide)).respond frame.payload took
        exact hdone.accounted
      next hop =>
        rw [if_pos hop] at hof
        cases hassignment : Wire.decodeAssignment frame.payload with
        | none => exact (h.skip hframes (hof.trans hassignment)).accounted
        | some assignment => exact (h.startCompile hframes (hof.trans hassignment)).accounted
      next hop =>
        have hskipped := other (by rw [hop]; decide)
        cases Wire.decodeControl frame.payload with
        | none => exact hskipped.accounted
        | some control => exact (hskipped.cancelAttempt control).accounted
      next hop =>
        have hskipped := other (by rw [hop]; decide)
        cases Wire.decodeValidate frame.payload with
        | none => exact hskipped.accounted
        | some message =>
          obtain ⟨said, hdone⟩ := hskipped.send (.inr (.inr (.inr (.inr rfl)))) 0 _ took
          exact hdone.accounted
      next hop => exact (other (by rw [hop]; decide)).stop.accounted
      next hresponse hassign hcancel hvalidate hshutdown => exact (other hassign).accounted

/-- A compile thread takes its next step. -/
theorem Accounts.proceed (h : w.Accounts said handled dropped) {k : Nat} {thread : CompileThread}
    (hthread : w.threads[k]? = some thread) (run : Result CompileRunResult) (took : Nat) :
    (w.proceed k thread run took).Accounted := by
  have hsaid := h.threads k thread hthread
  have quiet {phase : Phase} (hphase : ({ thread with phase } : CompileThread).Said w.capabilities
      (partOf (some k) said)) : (w.advance k phase).Accounted := by
    have hnothing : w.Spoken (said.map (·.2) ++ []) := by
      rw [List.append_nil]
      exact h.spoken
    obtain ⟨said, hdone⟩ := h.advance hthread w.sends_self hnothing (by rwa [List.append_nil])
    exact hdone.accounted
  unfold WorkerProcess.proceed
  unfold CompileThread.Said at hsaid
  cases hphase : thread.phase with
  | starting =>
    rw [hphase] at hsaid
    have hnone : partOf (some k) said = [] := hsaid
    dsimp only
    cases hfound : findToolchain w.capabilities thread.assignment.toolchain.identityDigest with
    | none =>
      refine quiet ?_
      rw [hnone]
      exact .declined hfound
    | some toolchain =>
      have hbegun : ({ thread with phase := .compiling toolchain } : CompileThread).Said w.capabilities
          (partOf (some k) said ++ thread.assignment.begins) := by
        rw [hnone]
        exact ⟨hfound, rfl⟩
      obtain ⟨said, hdone⟩ := h.advance hthread (w.sends_sendFrame .beginCompile 0 _ took)
        (h.spoken.sendFrame .beginCompile 0 _ took) hbegun
      exact hdone.accounted
  | compiling toolchain =>
    rw [hphase] at hsaid
    obtain ⟨hfound, hbegun⟩ := hsaid
    refine quiet ?_
    rw [hbegun]
    exact thread.said_compiled run hfound
  | answering op payload =>
    rw [hphase] at hsaid
    have hanswered : ({ thread with phase := .leaving } : CompileThread).Said w.capabilities
        (partOf (some k) said ++ Wire.framesOf op 0 payload) := ⟨_, op, payload, hsaid, rfl⟩
    obtain ⟨said, hdone⟩ := h.advance hthread (w.sends_sendFrame op 0 payload took)
      (h.spoken.sendFrame op 0 payload took) hanswered
    exact hdone.accounted
  | leaving =>
    rw [hphase] at hsaid
    have hgone : ({ thread with phase := .gone } : CompileThread).Said w.capabilities (partOf (some k) said) := hsaid
    obtain ⟨said, handled, dropped, hdone⟩ := quiet hgone
    exact ⟨said, handled, dropped, hdone.spoken.of_sent rfl id, hdone.received, hdone.reading, hdone.assigned,
      hdone.own, hdone.threads, hdone.known⟩
  | gone => exact h.accounted

/-- The main loop receives something. -/
theorem Accounts.receive (h : w.Accounts said handled dropped) (running : w.running = true)
    (empty : w.frames = []) (received : Received) : (w.receive received).Accounted := by
  cases received with
  | unready => exact h.accounted
  | lost => exact h.stop.accounted
  | data bytes =>
    obtain ⟨rfl, hfeed⟩ := h.reading running
    rw [empty, List.append_nil] at hfeed
    have hjoined : Wire.FrameReader.feed { maxFrameBytes := Wire.kMaxFrameBytes } (w.socket.received ++ bytes) =
        ⟨(w.reader.feed bytes).status, handled ++ (w.reader.feed bytes).out, (w.reader.feed bytes).reader⟩ :=
      Wire.FrameReader.feed_feed hfeed
    unfold WorkerProcess.receive
    dsimp only
    cases hstatus : (w.reader.feed bytes).status with
    | error status =>
      -- what the feed returned before the error is never handled
      have hstopped := h.stop
      refine ⟨said, handled, (w.reader.feed bytes).out, hstopped.spoken.of_sent rfl id, ?_, fun hrunning => ?_,
        hstopped.assigned, hstopped.own, hstopped.threads, hstopped.known⟩
      · show (Wire.FrameReader.feed _ (w.socket.received ++ bytes)).out = handled ++ [] ++ _
        rw [hjoined, List.append_nil]
      · cases hrunning
    | ok =>
      refine ⟨said, handled, [], h.spoken.of_sent rfl id, ?_, fun _ => ⟨rfl, ?_⟩, h.assigned, h.own, h.threads,
        h.known⟩
      · show (Wire.FrameReader.feed _ (w.socket.received ++ bytes)).out =
          handled ++ (w.reader.feed bytes).out ++ []
        rw [hjoined, List.append_nil]
      · show Wire.FrameReader.feed _ (w.socket.received ++ bytes) =
          ⟨.ok (), handled ++ (w.reader.feed bytes).out, (w.reader.feed bytes).reader⟩
        rw [hjoined, hstatus]

theorem Accounted.step (h : w.Accounted) (event : WorkerEvent) : (w.step event).Accounted := by
  obtain ⟨said, handled, dropped, haccounts⟩ := h
  unfold WorkerProcess.step
  split
  next => exact haccounts.accounted
  next =>
    cases event with
    | receive received =>
      dsimp only
      split
      next hidle => exact haccounts.receive hidle.1 hidle.2 received
      next => exact haccounts.accounted
    | handle discovered took =>
      dsimp only
      split
      next => exact haccounts.handle discovered took
      next => exact haccounts.accounted
    | proceed k run took =>
      dsimp only
      cases hthread : w.threads[k]? with
      | none => exact haccounts.accounted
      | some thread => exact haccounts.proceed hthread run took
    | heartbeat took =>
      obtain ⟨said, hdone⟩ := haccounts.send (.inr (.inr (.inr (.inl rfl)))) 0 [] took
      exact hdone.accounted
    | exit =>
      dsimp only
      split
      next => exact haccounts.accounted
      next =>
        have hbroken : ({ w with broken := true } : WorkerProcess).Spoken (said.map (·.2)) := by
          refine haccounts.spoken.of_sent rfl fun hfalse => ?_
          cases hfalse
        exact ⟨said, handled, dropped, hbroken, haccounts.received, haccounts.reading, haccounts.assigned,
          haccounts.own, haccounts.threads, haccounts.known⟩

theorem Accounted.runs (h : w.Accounted) (events : List WorkerEvent) : (w.runs events).Accounted := by
  unfold WorkerProcess.runs
  induction events generalizing w with
  | nil => exact h
  | cons event events ih => exact ih (h.step event)

theorem accounted_boot (name : Bytes) (registration : Wire.RegisterWorkerMessage)
    (tookHello tookRegistration : Nat) : (boot name registration tookHello tookRegistration).Accounted := by
  have hnothing : Wire.FrameReader.feed { maxFrameBytes := Wire.kMaxFrameBytes } [] =
      ⟨.ok (), [], { maxFrameBytes := Wire.kMaxFrameBytes }⟩ := Wire.FrameReader.drain_short (by decide)
  have hfirst : ({ capabilities := registration.capabilities } : WorkerProcess).Accounts [] [] [] := by
    refine ⟨⟨⟨[], rfl, fun _ => rfl⟩, fun frame hframe => ?_⟩, ?_, fun _ => ⟨rfl, ?_⟩, rfl, fun frame hframe => ?_,
      fun k thread hthread => ?_, fun _ _ => rfl⟩
    · cases hframe
    · exact congrArg Wire.FrameReader.Fed.out hnothing
    · exact hnothing
    · cases hframe
    · cases hthread
  obtain ⟨said, hhello⟩ := hfirst.send (.inl rfl) 1 (Wire.encodeHello { role := .worker, name }) tookHello
  obtain ⟨said, henrolled⟩ := hhello.send (.inr (.inl rfl)) 2 (Wire.encodeRegisterWorker registration)
    tookRegistration
  unfold boot
  dsimp only
  split
  next =>
    refine ⟨said, [], [], henrolled.spoken.of_sent rfl fun hfalse => ?_, henrolled.received, fun hrunning => ?_,
      henrolled.assigned, henrolled.own, henrolled.threads, henrolled.known⟩
    · cases hfalse
    · cases hrunning
  next => exact henrolled.accounted

-- ---------------------------------------------------------------------------
-- Runs
-- ---------------------------------------------------------------------------

omit [HashFunction] in
theorem capabilities_respond (payload : Bytes) (took : Nat) :
    (w.respond payload took).capabilities = w.capabilities := by
  unfold respond
  split
  next => rfl
  next =>
    split
    next =>
      split
      next => rfl
      next message _ => exact (sends_sendFrame { w with session := message.session } .workerReady 3 [] took).capabilities
    next => rfl

theorem capabilities_handleFrame (frame : Wire.Frame) (discovered : Discovery) (took : Nat) :
    (w.handleFrame frame discovered took).capabilities = w.capabilities := by
  unfold handleFrame
  split
  next => exact capabilities_respond frame.payload took
  next => cases Wire.decodeAssignment frame.payload <;> rfl
  next =>
    cases Wire.decodeControl frame.payload with
    | none => rfl
    | some control =>
      show (w.cancelAttempt control).capabilities = _
      unfold cancelAttempt
      split <;> rfl
  next =>
    cases Wire.decodeValidate frame.payload with
    | none => rfl
    | some message => exact (sends_sendFrame w .validateResponse 0 _ took).capabilities
  next => rfl
  next => rfl

theorem capabilities_proceed (k : Nat) (thread : CompileThread) (run : Result CompileRunResult) (took : Nat) :
    (w.proceed k thread run took).capabilities = w.capabilities := by
  unfold proceed
  cases thread.phase with
  | starting =>
    dsimp only
    cases findToolchain w.capabilities thread.assignment.toolchain.identityDigest with
    | none => rfl
    | some toolchain => exact (sends_sendFrame w .beginCompile 0 _ took).capabilities
  | compiling toolchain => rfl
  | answering op payload => exact (sends_sendFrame w op 0 payload took).capabilities
  | leaving => rfl
  | gone => rfl

/-- What a worker advertised does not change. -/
theorem capabilities_step (w : WorkerProcess) (event : WorkerEvent) :
    (w.step event).capabilities = w.capabilities := by
  unfold step
  split
  next => rfl
  next =>
    cases event with
    | receive received =>
      dsimp only
      split
      next =>
        cases received with
        | unready => rfl
        | lost => rfl
        | data bytes =>
          unfold receive
          dsimp only
          cases (w.reader.feed bytes).status <;> rfl
      next => rfl
    | handle discovered took =>
      dsimp only
      split
      next =>
        unfold handle
        split
        next => rfl
        next raw frames _ =>
          cases Wire.decodeFrame raw with
          | error status => rfl
          | ok frame => exact capabilities_handleFrame frame discovered took
      next => rfl
    | proceed k run took =>
      dsimp only
      cases w.threads[k]? with
      | none => rfl
      | some thread => exact capabilities_proceed k thread run took
    | heartbeat took => exact (sends_sendFrame w .heartbeat 0 [] took).capabilities
    | exit =>
      dsimp only
      split <;> rfl

theorem capabilities_runs (w : WorkerProcess) (events : List WorkerEvent) :
    (w.runs events).capabilities = w.capabilities := by
  unfold runs
  induction events generalizing w with
  | nil => rfl
  | cons event events ih => exact (ih (w.step event)).trans (w.capabilities_step event)

omit [HashFunction] in
theorem capabilities_boot (name : Bytes) (registration : Wire.RegisterWorkerMessage)
    (tookHello tookRegistration : Nat) :
    (boot name registration tookHello tookRegistration).capabilities = registration.capabilities := by
  have hhello := (sends_sendFrame { capabilities := registration.capabilities } .hello 1
    (Wire.encodeHello { role := .worker, name }) tookHello).capabilities
  have henrolled := (sends_sendFrame _ .registerWorker 2 (Wire.encodeRegisterWorker registration)
    tookRegistration).capabilities.trans hhello
  unfold boot
  dsimp only
  split <;> exact henrolled

/-- The share of a thread is its part of the conversation about its assignment. -/
theorem Accounts.conversation (h : w.Accounts said handled dropped) {k : Nat} {a : Assignment}
    (ha : (handled.filterMap Wire.assignmentOf)[k]? = some a) :
    a.Conversation w.capabilities (partOf (some k) said) := by
  rw [← h.assigned, List.getElem?_map] at ha
  obtain ⟨thread, hthread, rfl⟩ := Option.map_eq_some_iff.mp ha
  exact (h.threads k thread hthread).conversation

theorem Accounts.nobody (h : w.Accounts said handled dropped) {k : Nat}
    (hnone : (handled.filterMap Wire.assignmentOf)[k]? = none) : partOf (some k) said = [] := by
  rw [← h.assigned, List.getElem?_map, Option.map_eq_none_iff, List.getElem?_eq_none_iff] at hnone
  exact h.known k hnone

end

end WorkerProcess

end DistributedCompilation
