import DistributedCompilation.Server.Served
import DistributedCompilation.Wire.PayloadRoundTrip
import DistributedCompilation.Wire.Reassembly

/-!
# Distributed Compilation — one answer to each frame

What a handler leaves in the queue of its connection: one frame for the frame it
was given, under its request id. Over a run of the server, the answers queued on a
connection answer the frames that arrived on it one by one, whatever is delivered
in between, and the peer reads them as they were queued.
-/

namespace DistributedCompilation

open Program (Yields)

namespace Wire

/-- `encode_frame` takes the frame. -/
def Frame.sendable (frame : Frame) : Bool := frame.payload.length ≤ kMaxFrameBytes

@[simp] theorem streamOf_append (frames frames' : List Frame) :
    streamOf (frames ++ frames') = streamOf frames ++ streamOf frames' := List.flatMap_append

@[simp] theorem streamOf_nil : streamOf [] = [] := rfl

/-- A frame that answers a frame, and one that the coordinator sends of itself. -/
def Frame.isAnswer (frame : Frame) : Bool := frame.op = .response ∨ frame.op = .cacheReport

/-- The response that carries a message. -/
def responseFrame (requestId : UInt64) (message : ResponseMessage) : Frame where
  op := .response
  requestId
  payload := (encodeResponse message).bytes

/-- What answers a request: a response that names its op, or the report a cache query
asks for, under the id of the request. -/
inductive Answers (request : Frame) : Frame → Prop
  | response (message : ResponseMessage) (op : message.op = request.op)
      (fits : (encodeResponse message).fits = true) :
      Answers request (responseFrame request.requestId message)
  | report (asked : request.op = .cacheQuery) (message : CacheReportMessage)
      (fits : (encodeCacheReport message).fits = true) :
      Answers request {
        op := .cacheReport, requestId := request.requestId
        payload := (encodeCacheReport message).bytes }

/-- What is sent for bytes that are no frame. -/
def refusal (status : Status) : ResponseMessage where
  op := .error
  code := status.code
  detail := status.detail

/-- What answers the bytes of a frame. -/
def AnswersRaw (raw : Bytes) (reply : Frame) : Prop :=
  match decodeFrame raw with
  | .ok request => Answers request reply
  | .error status => (encodeResponse (refusal status)).fits = true ∧ reply = responseFrame 0 (refusal status)

/-- What the coordinator sends of itself. -/
structure Delivery (frame : Frame) : Prop where
  op : frame.op = .assign ∨ frame.op = .commitArtifact ∨ frame.op = .cancelAttempt ∨ frame.op = .shutdown
  requestId : frame.requestId = 0
  assigns : frame.op = .assign → ∃ assignment : Assignment,
    (encodeAssignment assignment).fits = true ∧ frame.payload = (encodeAssignment assignment).bytes

end Wire

-- ---------------------------------------------------------------------------
-- The queue of a connection
-- ---------------------------------------------------------------------------

namespace Connection

/-- Frames joined the queue, and nothing went over the socket. -/
structure Queued (connection : Connection) (frames : List Wire.Frame) (next : Connection) : Prop where
  socket : next.socket = connection.socket
  reader : next.reader = connection.reader
  closing : next.closing = connection.closing
  outgoing : next.outgoing = connection.outgoing ++ Wire.streamOf frames
  outgoingSent : next.outgoingSent = connection.outgoingSent

namespace Queued

variable {connection next last : Connection} {frames more : List Wire.Frame}

theorem refl (connection : Connection) : connection.Queued [] connection where
  socket := rfl
  reader := rfl
  closing := rfl
  outgoing := (List.append_nil _).symm
  outgoingSent := rfl

theorem trans (h : connection.Queued frames next) (h' : next.Queued more last) :
    connection.Queued (frames ++ more) last where
  socket := h'.socket.trans h.socket
  reader := h'.reader.trans h.reader
  closing := h'.closing.trans h.closing
  outgoing := by rw [h'.outgoing, h.outgoing, Wire.streamOf_append, List.append_assoc]
  outgoingSent := h'.outgoingSent.trans h.outgoingSent

end Queued

/-- A frame is queued, or dropped where it is too long. -/
theorem queued_queueFrame (connection : Connection) (op : Wire.Op) (requestId : UInt64) (payload : Bytes) :
    connection.Queued ([{ op, requestId, payload }].filter Wire.Frame.sendable)
      (connection.queueFrame op requestId payload) := by
  unfold queueFrame
  cases hencoded : Wire.encodeFrame { op, requestId, payload } with
  | ok encoded =>
    obtain ⟨hshort, rfl⟩ := Wire.encodeFrame_eq_ok_iff.mp hencoded
    have hsendable : ({ op, requestId, payload } : Wire.Frame).sendable = true := decide_eq_true hshort
    rw [List.filter_cons_of_pos hsendable, List.filter_nil]
    exact ⟨rfl, rfl, rfl, by rw [Wire.streamOf, List.flatMap_singleton], rfl⟩
  | error status =>
    have hlong : ¬({ op, requestId, payload } : Wire.Frame).sendable = true := by
      intro hsendable
      rw [Wire.encodeFrame_eq_ok_iff.mpr ⟨of_decide_eq_true hsendable, rfl⟩] at hencoded
      cases hencoded
    rw [List.filter_cons_of_neg hlong, List.filter_nil]
    exact .refl connection

end Connection

-- ---------------------------------------------------------------------------
-- Handlers
-- ---------------------------------------------------------------------------

namespace Server

theorem yields_finish (payload : Payload) :
    Yields (finish payload) fun encoded => payload.fits = true ∧ encoded = payload.bytes :=
  Yields.ite (fun hfits => Yields.pure ⟨hfits, rfl⟩) fun _ => Yields.leave _

/-- A response is queued unless it is too long for a frame. -/
theorem yields_sendResponse (connection : Connection) (requestId : UInt64) (op : Wire.Op) (reply : Reply) :
    Yields (sendResponse connection requestId op reply) fun next =>
      ∃ message : Wire.ResponseMessage, message.op = op ∧ (Wire.encodeResponse message).fits = true ∧
        (∀ status, reply.status = .error status → message.code = status.code ∧ message.detail = status.detail) ∧
        message.payload = reply.payload ∧
        connection.Queued ([Wire.responseFrame requestId message].filter Wire.Frame.sendable) next := by
  refine Yields.bind (yields_finish _) fun encoded hencoded => Yields.pure ?_
  obtain ⟨hfits, rfl⟩ := hencoded
  refine ⟨_, rfl, hfits, fun status hstatus => ?_, rfl, connection.queued_queueFrame .response requestId _⟩
  rw [hstatus]
  exact ⟨rfl, rfl⟩

variable [HashFunction]

/-- What a handler leaves of its connection: the queue as it was, to be followed by a reply,
or the report of a cache query in it. -/
def Dispatched (connection : Connection) (frame : Wire.Frame) (handled : Connection × Option Reply) : Prop :=
  match handled.2 with
  | some _ => connection.Queued [] handled.1
  | none => ∃ answer, Wire.Answers frame answer ∧
      connection.Queued ([answer].filter Wire.Frame.sendable) handled.1

theorem yields_dispatch (texts : Texts) (smoke : SmokeTest) (connection : Connection) (frame : Wire.Frame) :
    Yields (dispatch texts smoke connection frame) (Dispatched connection frame) := by
  have replying (m : M Reply) :
      Yields (do let reply ← m; pure (connection, some reply) : M (Connection × Option Reply))
        (Dispatched connection frame) := Yields.after m fun _ => Yields.pure (.refl connection)
  have changing {m : M (Connection × Reply)} (h : Yields m fun handled => connection.Queued [] handled.1) :
      Yields (do let handled ← m; pure (handled.1, some handled.2) :
        M (Connection × Option Reply)) (Dispatched connection frame) :=
    Yields.bind h fun _ hqueued => Yields.pure hqueued
  unfold dispatch
  cases hop : frame.op with
  | hello =>
    refine changing (Yields.after _ fun hello => Yields.pure ?_)
    exact ⟨rfl, rfl, rfl, (List.append_nil _).symm, rfl⟩
  | registerWorker =>
    refine changing (Yields.after _ fun _ => Yields.after _ fun _ => Yields.after _ fun _ => Yields.pure ?_)
    exact ⟨rfl, rfl, rfl, (List.append_nil _).symm, rfl⟩
  | cacheQuery =>
    refine Yields.bind (Q := fun next => ∃ answer, Wire.Answers frame answer ∧
      connection.Queued ([answer].filter Wire.Frame.sendable) next) ?_ fun _ h => Yields.pure h
    refine Yields.after _ fun message => Yields.after _ fun i => ?_
    refine Yields.bind (yields_finish _) fun inner hinner => Yields.pure ?_
    obtain ⟨hfits, rfl⟩ := hinner
    have hrecord : (Wire.encodeCacheReport (Wire.cacheReport i message.unitIdentity)).fits = true := by
      simpa [Payload.fits, Record.fits, Payload.eachFits, Payload.bytes, Part.eachFits, Part.bytes] using hfits
    refine ⟨_, .report hop _ hrecord, ?_⟩
    have hbytes : Payload.bytes [.record (Wire.encodeCacheReport (Wire.cacheReport i message.unitIdentity))] =
        (Wire.encodeCacheReport (Wire.cacheReport i message.unitIdentity)).bytes := List.append_nil _
    rw [hbytes]
    exact connection.queued_queueFrame _ _ _
  | assign | commitArtifact | validateOutput | cacheReport | response | error | invalid => exact Yields.leave _
  | _ => exact replying _

/-- A frame gets one answer. Only a shutdown stops the server. -/
theorem yields_handleFrame (texts : Texts) (smoke : SmokeTest) (connection : Connection) (frame : Wire.Frame) :
    Yields (handleFrame texts smoke connection frame) fun handled =>
      (∃ answer, Wire.Answers frame answer ∧
        connection.Queued ([answer].filter Wire.Frame.sendable) handled.1) ∧
      (handled.2 = true → frame.op = .shutdown) := by
  have responds {next : Connection} (queued : connection.Queued [] next) (reply : Reply) :
      Yields (sendResponse next frame.requestId frame.op reply) fun last =>
        ∃ answer, Wire.Answers frame answer ∧
          connection.Queued ([answer].filter Wire.Frame.sendable) last := by
    refine (yields_sendResponse next frame.requestId frame.op reply).mono fun last h => ?_
    obtain ⟨message, hop, hfits, -, -, hqueued⟩ := h
    exact ⟨_, .response message hop hfits, queued.trans hqueued⟩
  refine Yields.bind (yields_dispatch texts smoke connection frame).caught fun outcome houtcome => ?_
  rcases outcome with (_ | _) | ⟨next, _ | reply⟩
  · refine Yields.bind (responds (.refl connection) _) fun last hlast => Yields.pure ⟨hlast, fun h => ?_⟩
    cases h
  · exact Yields.leave _
  · refine Yields.pure ⟨houtcome _ rfl, fun h => ?_⟩
    cases h
  · refine Yields.bind (responds (houtcome _ rfl) reply) fun last hlast => Yields.pure ⟨hlast, fun h => ?_⟩
    exact of_decide_eq_true h

/-- Frames are answered in order, all of them unless one stops the server. -/
theorem yields_handleFrames (texts : Texts) (smoke : List SmokeTest) (connection : Connection)
    (frames : List Bytes) :
    Yields (handleFrames texts smoke connection frames) fun handled =>
      ∃ answered rest answers, frames = answered ++ rest ∧ List.Forall₂ Wire.AnswersRaw answered answers ∧
        connection.Queued (answers.filter Wire.Frame.sendable) handled.1 ∧
        (handled.2 = false → rest = []) := by
  induction frames generalizing smoke connection with
  | nil => exact Yields.pure ⟨[], [], [], rfl, .nil, .refl connection, fun _ => rfl⟩
  | cons raw frames ih =>
    have goesOn {answer : Wire.Frame} {next : Connection} (answers : Wire.AnswersRaw raw answer)
        (queued : connection.Queued ([answer].filter Wire.Frame.sendable) next) :
        Yields (handleFrames texts smoke.tail next frames) fun handled =>
          ∃ answered rest answers, raw :: frames = answered ++ rest ∧
            List.Forall₂ Wire.AnswersRaw answered answers ∧
            connection.Queued (answers.filter Wire.Frame.sendable) handled.1 ∧
            (handled.2 = false → rest = []) := by
      refine (ih smoke.tail next).mono fun handled h => ?_
      obtain ⟨answered, rest, later, rfl, hlater, hqueued, hall⟩ := h
      refine ⟨raw :: answered, rest, answer :: later, rfl, .cons answers hlater, ?_, hall⟩
      have hjoined := queued.trans hqueued
      rwa [← List.filter_append, List.singleton_append] at hjoined
    unfold handleFrames
    cases hdecoded : Wire.decodeFrame raw with
    | error status =>
      refine Yields.bind (yields_sendResponse _ _ _ _) fun next hnext => ?_
      obtain ⟨message, hop, hfits, hstatus, hpayload, hqueued⟩ := hnext
      obtain ⟨hcode, hdetail⟩ := hstatus status rfl
      have hmessage : message = Wire.refusal status := by
        obtain ⟨op, code, detail, payload⟩ := message
        simp only at hop hcode hdetail hpayload
        rw [hop, hcode, hdetail, hpayload]
        rfl
      have hraw : Wire.AnswersRaw raw (Wire.responseFrame 0 message) := by
        subst hmessage
        unfold Wire.AnswersRaw
        rw [hdecoded]
        exact ⟨hfits, rfl⟩
      exact goesOn hraw hqueued
    | ok frame =>
      refine Yields.bind (yields_handleFrame texts _ connection frame) fun handled hhandled => ?_
      obtain ⟨⟨answer, hanswer, hqueued⟩, -⟩ := hhandled
      have hraw : Wire.AnswersRaw raw answer := by
        unfold Wire.AnswersRaw
        rw [hdecoded]
        exact hanswer
      refine Yields.ite (fun _ => Yields.pure ?_) fun _ => goesOn hraw hqueued
      refine ⟨[raw], frames, [answer], rfl, .cons hraw .nil, hqueued, fun h => ?_⟩
      cases h

end Server

-- ---------------------------------------------------------------------------
-- The readers
-- ---------------------------------------------------------------------------

/-- Input that is fed in two pieces is fed at once. -/
theorem Wire.FrameReader.feed_feed {bound : Nat} {first more : Bytes} {raws : List Bytes}
    {reader : FrameReader} (h : feed { maxFrameBytes := bound } first = ⟨.ok (), raws, reader⟩) :
    feed { maxFrameBytes := bound } (first ++ more) =
      { reader.feed more with out := raws ++ (reader.feed more).out } := by
  have hflat : [first, more].flatten = first ++ more := by simp
  rw [← hflat, ← feedAll_eq_feed, feedAll, h]
  simp only
  rw [feedAll]
  cases hstatus : (reader.feed more).status with
  | error status =>
    simp only [hstatus]
  | ok =>
    simp only [feedAll, List.append_nil]

namespace Wire

theorem isAnswer_of_answersRaw {raw : Bytes} {answer : Frame} (h : AnswersRaw raw answer) :
    answer.isAnswer = true := by
  unfold AnswersRaw at h
  split at h
  · cases h with
    | response message op fits => rfl
    | report asked message fits => rfl
  · rw [h.2]
    rfl

theorem exists_answersRaw {raws : List Bytes} {answers : List Frame}
    (h : List.Forall₂ AnswersRaw raws answers) {answer : Frame} (member : answer ∈ answers) :
    ∃ raw ∈ raws, AnswersRaw raw answer := by
  induction h with
  | nil => cases member
  | @cons raw _ _ _ head _ ih =>
    rcases List.mem_cons.mp member with rfl | member
    · exact ⟨raw, List.mem_cons_self, head⟩
    · obtain ⟨raw, hraw, hanswers⟩ := ih member
      exact ⟨raw, List.mem_cons_of_mem _ hraw, hanswers⟩

theorem isAnswer_of_answers {raws : List Bytes} {answers : List Frame}
    (h : List.Forall₂ AnswersRaw raws answers) : ∀ answer ∈ answers, answer.isAnswer = true := by
  intro answer hanswer
  obtain ⟨raw, -, hraw⟩ := exists_answersRaw h hanswer
  exact isAnswer_of_answersRaw hraw

theorem decodeResponse_responseFrame {requestId : UInt64} {message : ResponseMessage}
    (h : (encodeResponse message).fits = true) :
    decodeResponse (responseFrame requestId message).payload = some message := by
  have hparse := parse_readResponse message [] (Payload.eachFits_of_fits h)
  rw [List.append_nil] at hparse
  unfold decodeResponse whole responseFrame
  rw [hparse]

/-- A client reads every response it gets. -/
theorem isSome_decodeResponse {raw : Bytes} {answer : Frame} (h : AnswersRaw raw answer)
    (hop : answer.op = .response) : (decodeResponse answer.payload).isSome = true := by
  unfold AnswersRaw at h
  split at h
  · cases h with
    | response message op fits => rw [decodeResponse_responseFrame fits, Option.isSome_some]
    | report asked message fits => cases hop
  · rw [h.2, decodeResponse_responseFrame h.1, Option.isSome_some]

theorem Delivery.isAnswer {frame : Frame} (h : Delivery frame) : frame.isAnswer = false := by
  unfold Frame.isAnswer
  rcases h.op with hop | hop | hop | hop <;> rw [hop] <;> rfl

theorem encodable_of_isAnswer {frame : Frame} (h : frame.isAnswer = true) (sendable : frame.sendable = true) :
    frame.Encodable where
  op hop := by
    rw [Frame.isAnswer, hop] at h
    cases h
  bounded := of_decide_eq_true sendable

end Wire

-- ---------------------------------------------------------------------------
-- The account of a connection
-- ---------------------------------------------------------------------------

namespace Connection

/-- What was queued on a connection is what went over its socket and what is pending; what
it received is in its reader, up to the frames it handed out; the answers among what was
queued answer these frames, and the rest was sent by the coordinator of itself. -/
structure Accounts (connection : Connection) (queued : List Wire.Frame) (raws : List Bytes)
    (answers : List Wire.Frame) : Prop where
  sent : connection.socket.sent ++ connection.pending = Wire.streamOf queued
  within : connection.outgoingSent ≤ connection.outgoing.length
  encodable : ∀ frame ∈ queued, frame.Encodable
  received : Wire.FrameReader.feed { maxFrameBytes := Wire.kMaxFrameBytes } connection.socket.received =
    ⟨.ok (), raws, connection.reader⟩
  answered : List.Forall₂ Wire.AnswersRaw raws answers
  answers : queued.filter Wire.Frame.isAnswer = answers.filter Wire.Frame.sendable
  deliveries : ∀ frame ∈ queued, frame.isAnswer = false → Wire.Delivery frame

def Accounted (connection : Connection) : Prop :=
  ∃ queued raws answers, connection.Accounts queued raws answers

theorem accounted_accepted : ({} : Connection).Accounted := by
  refine ⟨[], [], [], rfl, Nat.le_refl _, fun _ h => ?_, ?_, .nil, rfl, fun _ h => ?_⟩
  · cases h
  · exact Wire.FrameReader.drain_short (by decide)
  · cases h

namespace Accounts

variable {connection next : Connection} {queued answers : List Wire.Frame} {raws : List Bytes}

/-- Sending moves bytes from the queue to the socket. -/
theorem transmit (h : connection.Accounts queued raws answers) (written : Written) :
    (connection.transmit written).Accounts queued raws answers := by
  have settled {connection : Connection} (h : connection.Accounts queued raws answers) :
      connection.settle.Accounts queued raws answers := by
    unfold Connection.settle
    split
    next hdone =>
      have hpending : connection.pending = [] := List.drop_eq_nil_of_le hdone
      have hsent := h.sent
      rw [hpending] at hsent
      exact { h with sent := hsent, within := Nat.le_refl 0 }
    next =>
    split
    next => exact { h with }
    next => exact h
  unfold Connection.transmit
  split
  next => exact h
  next hmore =>
  cases written with
  | unready => exact h
  | failed => exact settled { h with }
  | took count =>
    refine settled { h with sent := ?_, within := ?_ }
    · have hrest : connection.outgoing.drop (connection.outgoingSent + (connection.pending.take count).length) =
          connection.pending.drop count := by
        rw [← List.drop_drop, List.length_take]
        show connection.pending.drop _ = _
        rcases Nat.le_total count connection.pending.length with hle | hle
        · rw [Nat.min_eq_left hle]
        · rw [Nat.min_eq_right hle, List.drop_length, List.drop_eq_nil_of_le hle]
      show _ ++ connection.outgoing.drop _ = _
      rw [hrest, List.append_assoc, List.take_append_drop]
      exact h.sent
    · have hlength : (connection.pending.take count).length ≤ connection.outgoing.length - connection.outgoingSent := by
        rw [← List.length_drop]
        exact List.length_take_le' _ _
      have hwithin := h.within
      show connection.outgoingSent + (connection.pending.take count).length ≤ connection.outgoing.length
      omega

/-- Frames that join the queue join the stream. -/
theorem sent_queued {more : List Wire.Frame} (h : connection.Accounts queued raws answers)
    (joined : connection.Queued more next) :
    next.socket.sent ++ next.pending = Wire.streamOf (queued ++ more) ∧
      next.outgoingSent ≤ next.outgoing.length := by
  have hwithin := h.within
  constructor
  · unfold pending
    rw [joined.socket, joined.outgoing, joined.outgoingSent, List.drop_append_of_le_length hwithin,
      Wire.streamOf_append, ← h.sent, List.append_assoc]
    rfl
  · rw [joined.outgoing, joined.outgoingSent, List.length_append]
    omega

/-- A delivery adds to the queue what answers nothing. -/
theorem deliver {frame : Wire.Frame} (h : connection.Accounts queued raws answers)
    (delivery : Wire.Delivery frame) :
    (connection.queueFrame frame.op frame.requestId frame.payload).Accounts
      (queued ++ [frame].filter Wire.Frame.sendable) raws answers := by
  have joined := connection.queued_queueFrame frame.op frame.requestId frame.payload
  obtain ⟨hsent, hwithin⟩ := h.sent_queued joined
  have hframe : ∀ other ∈ [frame].filter Wire.Frame.sendable, other = frame ∧ frame.sendable = true := by
    intro other hother
    obtain ⟨hmem, hsendable⟩ := List.mem_filter.mp hother
    obtain rfl := List.mem_singleton.mp hmem
    exact ⟨rfl, hsendable⟩
  refine ⟨hsent, hwithin, fun other hother => ?_, ?_, h.answered, ?_, fun other hother hanswer => ?_⟩
  · rcases List.mem_append.mp hother with hother | hother
    · exact h.encodable other hother
    · obtain ⟨rfl, hsendable⟩ := hframe other hother
      refine ⟨fun hop => ?_, of_decide_eq_true hsendable⟩
      have hsome := delivery.op
      rw [hop] at hsome
      simp at hsome
  · rw [joined.socket, joined.reader]
    exact h.received
  · have hnone : ([frame].filter Wire.Frame.sendable).filter Wire.Frame.isAnswer = [] := by
      rw [List.filter_eq_nil_iff]
      intro other hother
      obtain ⟨rfl, -⟩ := hframe other hother
      rw [delivery.isAnswer]
      exact Bool.false_ne_true
    rw [List.filter_append, hnone, List.append_nil]
    exact h.answers
  · rcases List.mem_append.mp hother with hother | hother
    · exact h.deliveries other hother hanswer
    · obtain ⟨rfl, -⟩ := hframe other hother
      exact delivery

/-- The answers to frames that were just received join the queue. -/
theorem answer {more : List Bytes} {later : List Wire.Frame} {reader : Wire.FrameReader}
    (h : connection.Accounts queued raws answers) {bytes : Bytes}
    (hfed : connection.reader.feed bytes = ⟨.ok (), more, reader⟩)
    (answered : List.Forall₂ Wire.AnswersRaw more later)
    (joined : Connection.Queued { connection with
      socket := { connection.socket with received := connection.socket.received ++ bytes }
      reader } (later.filter Wire.Frame.sendable) next) :
    next.Accounts (queued ++ later.filter Wire.Frame.sendable) (raws ++ more) (answers ++ later) := by
  have hlater := Wire.isAnswer_of_answers answered
  have hqueue : connection.Queued (later.filter Wire.Frame.sendable) { next with
      socket := connection.socket, reader := connection.reader } :=
    ⟨rfl, rfl, joined.closing, joined.outgoing, joined.outgoingSent⟩
  obtain ⟨hsent, hwithin⟩ := h.sent_queued hqueue
  refine ⟨?_, hwithin, fun frame hframe => ?_, ?_, ?_, ?_, fun frame hframe hanswer => ?_⟩
  · rw [joined.socket]
    exact hsent
  · rcases List.mem_append.mp hframe with hframe | hframe
    · exact h.encodable frame hframe
    · obtain ⟨hmem, hsendable⟩ := List.mem_filter.mp hframe
      exact Wire.encodable_of_isAnswer (hlater frame hmem) hsendable
  · rw [joined.socket, joined.reader, Wire.FrameReader.feed_feed h.received, hfed]
  · exact List.rel_append h.answered answered
  · have hall : (later.filter Wire.Frame.sendable).filter Wire.Frame.isAnswer =
        later.filter Wire.Frame.sendable := by
      rw [List.filter_eq_self]
      exact fun frame hframe => hlater frame (List.mem_filter.mp hframe).1
    rw [List.filter_append, List.filter_append, h.answers, hall]
  · rcases List.mem_append.mp hframe with hframe | hframe
    · exact h.deliveries frame hframe hanswer
    · rw [hlater frame (List.mem_filter.mp hframe).1] at hanswer
      cases hanswer

end Accounts

/-- A connection that is not about to be closed is accounted for. -/
def Settled (connection : Connection) : Prop := connection.closing = true ∨ connection.Accounted

theorem Settled.deliver {connection : Connection} (h : connection.Settled) {frame : Wire.Frame}
    (delivery : Wire.Delivery frame) :
    (connection.queueFrame frame.op frame.requestId frame.payload).Settled := by
  rcases h with hclosing | ⟨queued, raws, answers, haccounts⟩
  · have joined := connection.queued_queueFrame frame.op frame.requestId frame.payload
    exact .inl (joined.closing.trans hclosing)
  · exact .inr ⟨_, _, _, haccounts.deliver delivery⟩

end Connection

-- ---------------------------------------------------------------------------
-- Passes
-- ---------------------------------------------------------------------------

namespace Server

section

variable [HashFunction]

theorem yields_serve (texts : Texts) (traffic : Traffic) {connection : Connection}
    (h : connection.Accounted) :
    Yields (serve texts traffic connection) fun served => served.2 = false → served.1.Settled := by
  obtain ⟨queued, raws, answers, haccounts⟩ := h
  have htransmitted := haccounts.transmit traffic.written
  unfold serve
  refine Yields.ite (fun hclosing => Yields.pure fun _ => .inl hclosing) fun _ => ?_
  cases traffic.received with
  | unready => exact Yields.pure fun _ => .inr ⟨_, _, _, htransmitted⟩
  | lost => exact Yields.pure fun _ => .inl rfl
  | data bytes =>
    unfold receive
    simp only
    split
    next => exact Yields.pure fun _ => .inl rfl
    next hfed =>
      refine (yields_handleFrames texts traffic.smoke _ _).mono fun served hserved hstops => .inr ?_
      obtain ⟨answered, rest, later, hframes, hanswered, hqueued, hall⟩ := hserved
      obtain rfl := hall hstops
      rw [List.append_nil] at hframes
      refine ⟨_, _, _, htransmitted.answer ?_ hanswered hqueued⟩
      rw [← hframes, ← hfed]

theorem yields_serveAll (texts : Texts) (traffic : List Traffic) {connections : List Connection}
    (h : ∀ connection ∈ connections, connection.Accounted) :
    Yields (serveAll texts traffic connections) fun served =>
      served.2 = false → ∀ connection ∈ served.1, connection.Settled := by
  induction connections generalizing traffic with
  | nil =>
    refine Yields.pure fun _ connection hconnection => ?_
    cases hconnection
  | cons connection connections ih =>
    refine Yields.bind (yields_serve texts _ (h connection List.mem_cons_self)) fun served hserved => ?_
    refine Yields.bind (ih _ fun other hother => h other (List.mem_cons_of_mem _ hother)) fun others hothers => ?_
    refine Yields.pure fun hstops other hother => ?_
    rw [Bool.or_eq_false_iff] at hstops
    rcases List.mem_cons.mp hother with rfl | hother
    · exact hserved hstops.1
    · exact hothers hstops.2 other hother

end

theorem settled_post {frame : Wire.Frame} (delivery : Wire.Delivery frame) (session : SessionId)
    {connections : List Connection} (h : ∀ connection ∈ connections, connection.Settled) :
    ∀ connection ∈ post session frame.op frame.payload connections, connection.Settled := by
  induction connections with
  | nil => exact h
  | cons connection connections ih =>
    have hothers : ∀ other ∈ connections, other.Settled := fun other hother =>
      h other (List.mem_cons_of_mem _ hother)
    unfold post
    split
    next =>
      intro other hother
      rcases List.mem_cons.mp hother with rfl | hother
      · exact h other List.mem_cons_self
      · exact ih hothers other hother
    next =>
      intro other hother
      rcases List.mem_cons.mp hother with rfl | hother
      · have hdelivered := (h connection List.mem_cons_self).deliver delivery
        rwa [delivery.requestId] at hdelivered
      · exact hothers other hother

theorem yields_deliverAssignments (assignments : List Assignment) {connections : List Connection}
    (h : ∀ connection ∈ connections, connection.Settled) :
    Yields (deliverAssignments assignments connections) fun delivered =>
      ∀ connection ∈ delivered, connection.Settled := by
  induction assignments generalizing connections with
  | nil => exact Yields.pure h
  | cons assignment assignments ih =>
    refine Yields.bind (Yields.ite (fun _ => ?_) fun _ => Yields.pure h) fun delivered hdelivered => ih hdelivered
    refine Yields.bind (yields_finish _) fun payload hpayload => Yields.pure ?_
    have delivery : Wire.Delivery { op := .assign, payload } := ⟨.inl rfl, rfl, fun _ => ⟨assignment, hpayload⟩⟩
    exact settled_post delivery _ h

theorem yields_deliverControls (controls : List ControlMessage) {connections : List Connection}
    (h : ∀ connection ∈ connections, connection.Settled) :
    Yields (deliverControls controls connections) fun delivered =>
      ∀ connection ∈ delivered, connection.Settled := by
  induction controls generalizing connections with
  | nil => exact Yields.pure h
  | cons control controls ih =>
    refine Yields.after _ fun s => Yields.after _ fun payload => ih ?_
    have delivery : Wire.Delivery { op := controlOp control.kind, payload } := by
      refine ⟨?_, rfl, fun hassign => ?_⟩
      · cases control.kind with
        | cancelAttempt => exact .inr (.inr (.inl rfl))
        | commitNotification => exact .inr (.inl rfl)
        | shutdown => exact .inr (.inr (.inr rfl))
      · cases hkind : control.kind <;> rw [hkind] at hassign <;> cases hassign
    exact settled_post delivery _ h

section

variable [HashFunction]

/-- A pass ends with the connections that are not closing. -/
theorem yields_reap (connections : List Connection) :
    Yields (reap connections) fun left => left = connections.filter (!·.closing) := by
  induction connections with
  | nil => exact Yields.pure rfl
  | cons connection connections ih =>
    refine Yields.ite (fun hclosing => ?_) fun hopen => ?_
    · refine Yields.after _ fun _ => ih.mono fun left hleft => ?_
      rw [hleft, List.filter_cons_of_neg (by simp [hclosing])]
    · refine Yields.bind ih fun left hleft => Yields.pure ?_
      rw [hleft, List.filter_cons_of_pos (by simp [hopen])]

/-- A pass that does not stop the server accounts for every connection it leaves. -/
theorem yields_body (texts : Texts) (pass : Pass) {connections : List Connection}
    (h : ∀ connection ∈ connections, connection.Accounted) :
    Yields (body texts pass connections) fun left =>
      left.2 = false → ∀ connection ∈ left.1, connection.Accounted := by
  refine Yields.bind (yields_serveAll texts pass.traffic h) fun served hserved => ?_
  by_cases hstops : served.2 = true
  · refine (Yields.after _ fun _ => Yields.after _ fun _ => Yields.after _ fun _ => Yields.after _ fun _ =>
      Yields.after _ fun _ => Yields.pure fun hleft => ?_)
    rw [hstops] at hleft
    cases hleft
  · have haccepted : ∀ connection ∈ if pass.accepts then served.1 ++ [({} : Connection)] else served.1,
        connection.Settled := by
      intro connection hconnection
      split at hconnection
      · rcases List.mem_append.mp hconnection with hconnection | hconnection
        · exact hserved (Bool.eq_false_of_not_eq_true hstops) connection hconnection
        · obtain rfl := List.mem_singleton.mp hconnection
          exact .inr Connection.accounted_accepted
      · exact hserved (Bool.eq_false_of_not_eq_true hstops) connection hconnection
    refine Yields.after _ fun assignments => ?_
    refine Yields.bind (yields_deliverAssignments assignments haccepted) fun assigned hassigned => ?_
    refine Yields.after _ fun controls => ?_
    refine Yields.bind (yields_deliverControls controls hassigned) fun told htold => ?_
    refine Yields.bind (yields_reap told) fun left hleft => Yields.pure fun _ connection hconnection => ?_
    rw [hleft, List.mem_filter] at hconnection
    obtain ⟨hmem, hopen⟩ := hconnection
    rcases htold connection hmem with hclosing | haccounted
    · rw [hclosing] at hopen
      cases hopen
    · exact haccounted

/-- Between the passes of a running server every connection is accounted for. -/
theorem Serves.accounted {texts : Texts} {first : Impl} {server : Server}
    (serves : Serves texts first server) (running : server.running = true) :
    ∀ connection ∈ server.connections, connection.Accounted := by
  induction serves with
  | start =>
    intro connection hconnection
    cases hconnection
  | @pass server _ before pass ih =>
    have hbody := yields_body texts pass (ih before) (System.given pass.environment server.impl)
    unfold Server.pass at running ⊢
    unfold Program.wp at hbody
    generalize (body texts pass server.connections).run (System.given pass.environment server.impl) =
      run at hbody running ⊢
    rcases run with ⟨_ | ⟨left, stops⟩, impl⟩
    · cases running
    · refine hbody _ rfl ?_
      rw [Bool.not_eq_true', Bool.or_eq_false_iff] at running
      exact running.1

end

end Server

-- ---------------------------------------------------------------------------
-- The other end
-- ---------------------------------------------------------------------------

/-- A peer that reads what went over the socket, in whatever chunks, gets the first of the
frames that were queued, and all of them once nothing is pending. -/
theorem Connection.Accounts.read {connection : Connection} {queued answers : List Wire.Frame} {raws : List Bytes}
    (h : connection.Accounts queued raws answers)
    (deliverable : ∀ frame ∈ queued, frame.Deliverable Wire.kMaxFrameBytes) {chunks : List Bytes}
    (hchunks : chunks.flatten = connection.socket.sent) :
    ∃ read left, queued = read ++ left ∧ (connection.pending = [] → left = []) ∧
      (Wire.FrameReader.feedAll { maxFrameBytes := Wire.kMaxFrameBytes } chunks).status = .ok () ∧
      (Wire.FrameReader.feedAll { maxFrameBytes := Wire.kMaxFrameBytes } chunks).out.mapM Wire.decodeFrame =
        .ok read := by
  have hdrain := Wire.FrameReader.drain_stream h.encodable
    { maxFrameBytes := Wire.kMaxFrameBytes, buffer := connection.socket.sent } connection.pending h.sent
  rcases hdrain with ⟨read, left, buffer, n, rfl, -, hfed, hrest, hwaiting⟩ | ⟨-, frame, hframe, hrefused⟩
  · have hfeed : Wire.FrameReader.feed { maxFrameBytes := Wire.kMaxFrameBytes } chunks.flatten =
        ⟨.ok (), read.map Wire.Frame.bytes,
          { maxFrameBytes := Wire.kMaxFrameBytes, buffer := buffer, frames := n }⟩ := by
      rw [hchunks]
      exact hfed
    refine ⟨read, left, rfl, fun hnone => ?_, ?_, ?_⟩
    · cases left with
      | nil => rfl
      | cons frame left =>
        -- the reader would hold the whole frame
        rw [hnone, List.append_nil] at hrest
        rw [Wire.Waiting, if_pos (deliverable frame (by simp)), hrest, Wire.streamOf,
          List.flatMap_cons, List.length_append] at hwaiting
        omega
    · rw [Wire.FrameReader.feedAll_eq_feed, hfeed]
    · rw [Wire.FrameReader.feedAll_eq_feed, hfeed]
      exact Wire.FrameReader.mapM_decodeFrame fun frame hframe => h.encodable frame (List.mem_append_left _ hframe)
  · exact absurd (deliverable frame hframe) hrefused

set_option maxRecDepth 100000 in
theorem greeted_checks : greeted.running = true ∧
    greeted.connections.map (·.outgoing.length) = [59] := by decide +kernel

end DistributedCompilation
