import DistributedCompilation.Wire.Body
import DistributedCompilation.Worker.Conversations

/-!
# Distributed Compilation — a worker and its server

The two processes at the ends of one connection. The socket carries each direction as
a stream of bytes of which the other end has received a beginning. What the server
reads from the worker is then a beginning of one conversation for each assignment the
server queued on that connection and the worker can read, and of nothing else about
an assignment.
-/

namespace DistributedCompilation

open Interleaving

-- ---------------------------------------------------------------------------
-- What a reader makes of a beginning
-- ---------------------------------------------------------------------------

namespace Wire

/-- A reader returns frames of the stream in their order, also where it refuses the next. -/
theorem FrameReader.out_drain_stream {frames : List Frame} (hencodable : ∀ frame ∈ frames, frame.Encodable)
    (reader : FrameReader) (remaining : Bytes) (hstream : reader.buffer ++ remaining = streamOf frames) :
    ∃ read, read <+: frames ∧ reader.drain.out = read.map Frame.bytes := by
  induction frames generalizing reader with
  | nil =>
    have hbuffer : reader.buffer = [] := (List.append_eq_nil_iff.mp hstream).1
    exact ⟨[], List.nil_prefix, congrArg Fed.out (drain_short (by rw [hbuffer]; decide))⟩
  | cons frame frames ih =>
    have hframe := hencodable frame List.mem_cons_self
    by_cases hshort : reader.buffer.length < kWireHeaderBytes
    · exact ⟨[], List.nil_prefix, congrArg Fed.out (drain_short hshort)⟩
    have hlong := Nat.not_lt.mp hshort
    have hfront : reader.buffer ++ remaining = frame.bytes ++ streamOf frames := hstream
    by_cases hdeliverable : frame.Deliverable reader.maxFrameBytes
    · by_cases hpart : reader.buffer.length < frame.bytes.length
      · exact ⟨[], List.nil_prefix, congrArg Fed.out <|
          drain_partial hframe hfront hlong hdeliverable hpart⟩
      · obtain ⟨buffer, hbuffer⟩ : ∃ buffer, reader.buffer = frame.bytes ++ buffer := by
          refine ⟨reader.buffer.drop frame.bytes.length, ?_⟩
          have htake := congrArg (List.take frame.bytes.length) hfront
          rw [List.take_append_of_le_length (Nat.not_lt.mp hpart), List.take_left] at htake
          have hcut := List.take_append_drop frame.bytes.length reader.buffer
          rw [htake] at hcut
          exact hcut.symm
        have hrest : buffer ++ remaining = streamOf frames := by
          rw [hbuffer, List.append_assoc] at hfront
          exact List.append_cancel_left hfront
        have hwhole : reader.buffer ++ buffer = frame.bytes ++ (buffer ++ buffer) := by
          rw [hbuffer, List.append_assoc]
        obtain ⟨read, hread, hout⟩ := ih (fun f hf => hencodable f (List.mem_cons_of_mem _ hf))
          { reader with buffer := buffer, frames := reader.frames + 1 } hrest
        refine ⟨frame :: read, List.cons_prefix_cons.mpr ⟨rfl, hread⟩, ?_⟩
        rw [drain_whole hframe hwhole hlong hdeliverable hbuffer, List.map_cons, ← hout]
    · -- a refused frame leaves nothing
      obtain ⟨htotal, hmagic⟩ := getAt_buffer hframe hfront hlong
      have hrefused := hdeliverable
      unfold Frame.Deliverable at hrefused
      refine ⟨[], List.nil_prefix, ?_⟩
      rw [drain, dif_neg (by omega), if_neg (not_not.mpr hmagic), htotal, if_pos (by omega), List.map_nil]

/-- What arrived of a stream is read as the first of its frames. -/
theorem FrameReader.out_feed_stream {frames : List Frame} (hencodable : ∀ frame ∈ frames, frame.Encodable)
    {arrived : Bytes} (h : arrived <+: streamOf frames) :
    ∃ read, read <+: frames ∧ (feed { maxFrameBytes := kMaxFrameBytes } arrived).out = read.map Frame.bytes := by
  obtain ⟨remaining, hremaining⟩ := h
  exact out_drain_stream hencodable { maxFrameBytes := kMaxFrameBytes, buffer := arrived } remaining hremaining

end Wire

-- ---------------------------------------------------------------------------
-- Conversations that are heard in part
-- ---------------------------------------------------------------------------

namespace Wire

theorem length_framesOf (op : Op) (requestId : UInt64) (payload : Payload) :
    (framesOf op requestId payload).length ≤ 1 := by
  unfold framesOf
  split
  · exact List.length_filter_le _ _
  · exact Nat.zero_le 1

theorem op_of_mem_framesOf {op : Op} {requestId : UInt64} {payload : Payload} {frame : Frame}
    (h : frame ∈ framesOf op requestId payload) : frame.op = op := by
  unfold framesOf at h
  split at h
  · rw [List.mem_singleton.mp (List.mem_filter.mp h).1]
  · cases h

end Wire

/-- A beginning of a row of at most one. -/
theorem short_part {α : Type} {xs ys : List α} (h : xs <+: ys) (short : ys.length ≤ 1) :
    xs = [] ∨ xs = ys := by
  cases xs with
  | nil => exact .inl rfl
  | cons x xs =>
    have hle := h.length_le
    rw [List.length_cons] at hle
    exact .inr (h.eq_of_length (by rw [List.length_cons]; omega))

namespace Assignment

variable [HashFunction] {capabilities : WorkerCapabilities} {a : Assignment}

/-- What was heard of a conversation is a conversation. -/
theorem Conversation.start {heard frames : List Wire.Frame} (h : a.Conversation capabilities frames)
    (hpart : heard <+: frames) : a.Conversation capabilities heard := by
  have answered {answer : List Wire.Frame} (short : answer.length ≤ 1) (hanswer : heard <+: a.begins ++ answer)
      (whole : a.Conversation capabilities (a.begins ++ answer)) : a.Conversation capabilities heard := by
    rcases List.prefix_or_prefix_of_prefix hanswer (List.prefix_append a.begins answer) with hbegins | ⟨rest, rfl⟩
    · rcases short_part hbegins (Wire.length_framesOf _ _ _) with rfl | rfl
      · exact .silent
      · exact .begun
    · have hrest := (List.prefix_append_right_inj a.begins).mp hanswer
      rcases short_part hrest short with rfl | rfl
      · rw [List.append_nil]
        exact .begun
      · exact whole
  cases h with
  | silent =>
    rw [List.prefix_nil.mp hpart]
    exact .silent
  | declined unknown =>
    rcases short_part hpart (Wire.length_framesOf _ _ _) with rfl | rfl
    · exact .silent
    · exact .declined unknown
  | begun =>
    rcases short_part hpart (Wire.length_framesOf _ _ _) with rfl | rfl
    · exact .silent
    · exact .begun
  | failed status => exact answered (Wire.length_framesOf _ _ _) hpart (.failed status)
  | reported result compiles => exact answered (Wire.length_framesOf _ _ _) hpart (.reported result compiles)

/-- The ops of a conversation. -/
theorem Conversation.op {frames : List Wire.Frame} (h : a.Conversation capabilities frames) {frame : Wire.Frame}
    (hframe : frame ∈ frames) :
    frame.op = .beginCompile ∨ frame.op = .reportOutput ∨ frame.op = .failAttempt := by
  have begins (h : frame ∈ a.begins) : frame.op = .beginCompile := Wire.op_of_mem_framesOf h
  cases h with
  | silent => cases hframe
  | declined unknown => exact .inr (.inr (Wire.op_of_mem_framesOf hframe))
  | begun => exact .inl (begins hframe)
  | failed status =>
    rcases List.mem_append.mp hframe with hframe | hframe
    · exact .inl (begins hframe)
    · exact .inr (.inr (Wire.op_of_mem_framesOf hframe))
  | reported result compiles =>
    rcases List.mem_append.mp hframe with hframe | hframe
    · exact .inl (begins hframe)
    · exact .inr (.inl (Wire.op_of_mem_framesOf hframe))

end Assignment

-- ---------------------------------------------------------------------------
-- Assignments on their way
-- ---------------------------------------------------------------------------

namespace Wire

/-- The frame of an assignment. -/
def Assigns (frame : Frame) (a : Assignment) : Prop :=
  (encodeAssignment a).fits = true ∧ frame.payload = (encodeAssignment a).bytes

/-- The frames of a queue that carry an assignment. -/
def assigning (frames : List Frame) : List Frame := frames.filter (·.op = .assign)

theorem exists_assigned {frames : List Frame} (h : ∀ frame ∈ frames, ∃ a, Assigns frame a) :
    ∃ given, List.Forall₂ Assigns frames given := by
  induction frames with
  | nil => exact ⟨[], .nil⟩
  | cons frame frames ih =>
    obtain ⟨a, ha⟩ := h frame List.mem_cons_self
    obtain ⟨given, hgiven⟩ := ih fun other hother => h other (List.mem_cons_of_mem _ hother)
    exact ⟨a :: given, .cons ha hgiven⟩

variable [HashFunction]

theorem Assigns.decode {frame : Frame} {a : Assignment} (h : Assigns frame a) :
    decodeAssignment frame.payload = rereadAssignment a := by
  obtain ⟨hfits, hpayload⟩ := h
  have hread := parse_readAssignment a [] (Payload.eachFits_of_fits hfits)
  rw [hpayload]
  exact whole_of_map hread

theorem assignmentOf_bytes {frame : Frame} (h : frame.Encodable) :
    assignmentOf frame.bytes = if frame.op = .assign then decodeAssignment frame.payload else none := by
  rw [assignmentOf, decodeFrame_bytes h]

/-- What a worker finds in the frames it handles. -/
theorem filterMap_assignmentOf {frames : List Frame} {given : List Assignment}
    (hencodable : ∀ frame ∈ frames, frame.Encodable) (h : List.Forall₂ Assigns (assigning frames) given) :
    (frames.map Frame.bytes).filterMap assignmentOf = given.filterMap rereadAssignment := by
  induction frames generalizing given with
  | nil =>
    cases h
    rfl
  | cons frame frames ih =>
    have hothers : ∀ other ∈ frames, other.Encodable := fun other hother =>
      hencodable other (List.mem_cons_of_mem _ hother)
    have hof := assignmentOf_bytes (hencodable frame List.mem_cons_self)
    rw [List.map_cons]
    by_cases hop : frame.op = .assign
    · rw [assigning, List.filter_cons_of_pos (by simpa using hop)] at h
      rw [if_pos hop] at hof
      cases h with
      | cons ha hgiven =>
        rw [ha.decode] at hof
        rw [List.filterMap_cons, List.filterMap_cons, hof, ih hothers hgiven]
    · rw [assigning, List.filter_cons_of_neg (by simpa using hop)] at h
      rw [if_neg hop] at hof
      rw [List.filterMap_cons_none hof, ih hothers h]

/-- The assignments in a beginning of the queue are the first ones. -/
theorem filterMap_prefix {read queued : List Frame} {given : List Assignment}
    (hencodable : ∀ frame ∈ queued, frame.Encodable) (h : List.Forall₂ Assigns (assigning queued) given)
    (hread : read <+: queued) :
    (read.map Frame.bytes).filterMap assignmentOf <+: given.filterMap rereadAssignment := by
  obtain ⟨left, rfl⟩ := hread
  rw [assigning, List.filter_append] at h
  have hfirst := List.forall₂_take (assigning read).length h
  rw [← assigning, List.take_left] at hfirst
  rw [filterMap_assignmentOf (fun frame hframe => hencodable frame (List.mem_append_left _ hframe)) hfirst]
  exact (List.take_prefix _ given).filterMap _

end Wire

-- ---------------------------------------------------------------------------
-- Both ends
-- ---------------------------------------------------------------------------

theorem isOwn_ne_invalid {op : Wire.Op} (h : op.isOwn) : op ≠ .invalid := by
  rintro rfl
  simp [Wire.Op.isOwn] at h

section

variable [HashFunction]

/-- Every frame of a worker can be encoded. -/
theorem WorkerProcess.Accounts.encodable {w : WorkerProcess} {said : List (Option Nat × Wire.Frame)}
    {handled dropped : List Bytes} (h : w.Accounts said handled dropped) :
    ∀ frame ∈ said.map (·.2), frame.Encodable := by
  intro frame hframe
  refine ⟨?_, of_decide_eq_true (h.spoken.sendable frame hframe)⟩
  obtain ⟨⟨party, frame⟩, hentry, rfl⟩ := List.mem_map.mp hframe
  cases party with
  | none => exact isOwn_ne_invalid (h.own frame (mem_partOf.mpr hentry))
  | some k =>
    have hmem := mem_partOf.mpr hentry
    cases ha : (handled.filterMap Wire.assignmentOf)[k]? with
    | none =>
      rw [h.nobody ha] at hmem
      cases hmem
    | some a =>
      intro hop
      rcases (h.conversation ha).op hmem with hnamed | hnamed | hnamed <;> cases hop.symm.trans hnamed

/-- What the other end read of a worker. -/
theorem WorkerProcess.Accounts.heard {w : WorkerProcess} {said : List (Option Nat × Wire.Frame)}
    {handled dropped : List Bytes} (h : w.Accounts said handled dropped) {arrived : Bytes}
    (uplink : arrived <+: w.socket.sent) :
    ∃ heard, heard <+: said ∧
      (Wire.FrameReader.feed { maxFrameBytes := Wire.kMaxFrameBytes } arrived).out =
        heard.map fun entry => entry.2.bytes := by
  obtain ⟨rest, hsent, -⟩ := h.spoken.sent
  obtain ⟨read, hread, hout⟩ := Wire.FrameReader.out_feed_stream h.encodable (uplink.trans ⟨rest, hsent⟩)
  obtain ⟨heard, hheard, rfl⟩ := List.prefix_map_iff.mp hread
  refine ⟨heard, hheard, ?_⟩
  rw [hout, List.map_map]
  rfl

/-- The assignments a worker handles are the first of those that were queued for it and
that it can read. -/
theorem WorkerProcess.Accounts.downlink {w : WorkerProcess} {said : List (Option Nat × Wire.Frame)}
    {handled dropped : List Bytes} (h : w.Accounts said handled dropped) {queued : List Wire.Frame}
    (hencodable : ∀ frame ∈ queued, frame.Encodable) {given : List Assignment}
    (hgiven : List.Forall₂ Wire.Assigns (Wire.assigning queued) given)
    (downlink : w.socket.received <+: Wire.streamOf queued) :
    handled.filterMap Wire.assignmentOf <+: given.filterMap Wire.rereadAssignment := by
  obtain ⟨read, hread, hout⟩ := Wire.FrameReader.out_feed_stream hencodable downlink
  have hhandled : handled <+: read.map Wire.Frame.bytes := by
    rw [← hout, h.received, List.append_assoc]
    exact List.prefix_append _ _
  exact (hhandled.filterMap _).trans (Wire.filterMap_prefix hencodable hgiven hread)

end

/-- A worker that got no further than its greeting, -/
def lonely : WorkerProcess :=
  (WorkerProcess.boot (txt "w") { workerId := ⟨1⟩, bootId := ⟨1⟩ } 1000 0).runs []

/-- and the server that read it. -/
def welcomed : Server := Server.pass noTexts { traffic := [{ received := .data lonely.socket.sent }] } joined

theorem welcomed_serves : Server.Serves noTexts volatileFirst.impl welcomed :=
  .pass (.pass .start rfl _) joined_running _

set_option maxRecDepth 100000 in
theorem welcomed_checks : welcomed.running = true ∧
    welcomed.connections.map (fun connection => connection.socket.received.isPrefixOf lonely.socket.sent) = [true] ∧
    lonely.socket.received = [] ∧ lonely.socket.sent.length = 54 := by decide +kernel

end DistributedCompilation
