import DistributedCompilation.Wire.Framing
import DistributedCompilation.Wire.PayloadRoundTrip

/-!
# Distributed Compilation — letters

Every message of `wire.cpp` with its encoder, its decoder and what the decoder
makes of it, and what a peer that reads a stream of frames gets of the messages
that were written into it.
-/

namespace DistributedCompilation

namespace Wire

open Decoder

/-- What a decoder that reads to the end makes of a record. -/
theorem whole_of_map {α : Type} {read : Reader α} {bytes : Bytes} {found : Option α}
    (h : read.parse (bytes ++ []) = found.map (·, [])) : whole read bytes = found := by
  rw [List.append_nil] at h
  unfold whole
  rw [h]
  cases found <;> rfl

theorem map_whole_of_guard {α β : Type} {read : Reader α} {bytes : Bytes} {value : α} {ok : Prop}
    [Decidable ok] (wrap : α → β)
    (h : read.parse (bytes ++ []) = if ok then some (value, []) else none) :
    (whole read bytes).map wrap = if ok then some (wrap value) else none := by
  have hread : whole read bytes = if ok then some value else none := by
    refine whole_of_map (h.trans ?_)
    rw [map_ite, Option.map_some, Option.map_none]
  rw [hread, map_ite, Option.map_some, Option.map_none]

-- ---------------------------------------------------------------------------
-- Bodies
-- ---------------------------------------------------------------------------

/-- The message of a payload. Capabilities are sent alone and, with a message of
registration, inside it; the answers to a registration, a submission and a report are
sent inside a response. -/
inductive Body
  | hello (message : HelloMessage)
  | registerWorker (message : RegisterWorkerMessage)
  | ready (message : ReadyMessage)
  | capabilities (capabilities : WorkerCapabilities)
  | submit (message : SubmitMessage)
  | authorityClaim (claim : AuthorityClaim)
  | assignment (assignment : Assignment)
  | reportOutput (message : ReportOutputMessage)
  | failAttempt (message : FailAttemptMessage)
  | cacheQuery (message : CacheQueryMessage)
  | validate (message : ValidateMessage)
  | validateResponse (message : ValidateResponseMessage)
  | response (message : ResponseMessage)
  | submissionResponse (message : SubmissionResponse)
  | query (message : QueryMessage)
  | sent (message : Message)

def Body.encode : Body → Payload
  | hello message => encodeHello message
  | registerWorker message => encodeRegisterWorker message
  | ready message => encodeReady message
  | capabilities value => [.record (encodeCapabilities value)]
  | submit message => encodeSubmit message
  | authorityClaim claim => encodeAuthorityClaim claim
  | assignment value => encodeAssignment value
  | reportOutput message => encodeReportOutput message
  | failAttempt message => encodeFailAttempt message
  | cacheQuery message => encodeCacheQuery message
  | validate message => encodeValidate message
  | validateResponse message => encodeValidateResponse message
  | response message => encodeResponse message
  | submissionResponse message => encodeSubmissionResponse message
  | query message => encodeQuery message
  | sent message => [.record message.encode]

/-- What the matching decoder makes of the message. -/
def Message.reread : Message → Option Message
  | .control message => if Named message then some (.control message) else none
  | .commit message =>
    if Named message.control ∧ message.commit.Acceptable then some (.commit message) else none
  | .cacheReport message =>
    if message.Readable then some (.cacheReport { message with
      entry := if !message.entry.unitIdentity.isZero then message.entry else {} })
    else none
  | .commitResponse message =>
    if message.Readable then some (.commitResponse { message with
      commit := if !message.commit.id.isZero then message.commit else {} })
    else none

theorem Message.decode_encode (message : Message) (h : message.encode.eachFits = true) :
    message.decode message.encode.bytes = message.reread := by
  cases message with
  | control message =>
    rw [encode] at h
    rw [decode, encode, decodeControl, reread, encodeControl,
      map_whole_of_guard control (parse_readControlRecord message [] h)]
  | commit message =>
    rw [encode] at h
    rw [decode, encode, decodeCommitMessage, reread,
      map_whole_of_guard commit (parse_readCommitMessage message [] h)]
  | cacheReport message =>
    rw [encode] at h
    rw [decode, encode, decodeCacheReport, reread,
      map_whole_of_guard cacheReport (parse_readCacheReport message [] h)]
  | commitResponse message =>
    rw [encode] at h
    rw [decode, encode, decodeCommitResponse, reread,
      map_whole_of_guard commitResponse (parse_readCommitResponse message [] h)]

section

variable [HashFunction]

/-- The matching decoder. Of capabilities that are sent alone it does not read the end. -/
def Body.decode : Body → Bytes → Option Body
  | hello _, bytes => (decodeHello bytes).map hello
  | registerWorker _, bytes => (decodeRegisterWorker bytes).map registerWorker
  | ready _, bytes => (decodeReady bytes).map ready
  | capabilities _, bytes => (decodeCapabilities.parse bytes).map fun read => capabilities read.1
  | submit _, bytes => (decodeSubmit bytes).map submit
  | authorityClaim _, bytes => (decodeAuthorityClaim bytes).map authorityClaim
  | assignment _, bytes => (decodeAssignment bytes).map assignment
  | reportOutput _, bytes => (decodeReportOutput bytes).map reportOutput
  | failAttempt _, bytes => (decodeFailAttempt bytes).map failAttempt
  | cacheQuery _, bytes => (decodeCacheQuery bytes).map cacheQuery
  | validate _, bytes => (decodeValidate bytes).map validate
  | validateResponse _, bytes => (decodeValidateResponse bytes).map validateResponse
  | response _, bytes => (decodeResponse bytes).map response
  | submissionResponse _, bytes => (decodeSubmissionResponse bytes).map submissionResponse
  | query _, bytes => (decodeQuery bytes).map query
  | sent message, bytes => (message.decode bytes).map sent

/-- What a peer gets of a message: the canonical form of what is canonicalized while it
is read, the message itself otherwise, and nothing that its decoder refuses. -/
def Body.reread : Body → Option Body
  | hello message => if message.Readable then some (hello message) else none
  | registerWorker message => message.reread.map registerWorker
  | ready message => if ReadyMessage.Readable message then some (ready message) else none
  | capabilities value => (rereadCapabilities value).map capabilities
  | submit message => message.reread.map submit
  | authorityClaim claim => if claim.Acceptable then some (authorityClaim claim) else none
  | assignment value => (rereadAssignment value).map assignment
  | reportOutput message => if message.Readable then some (reportOutput message) else none
  | failAttempt message => if message.claim.Acceptable then some (failAttempt message) else none
  | cacheQuery message => some (cacheQuery message)
  | validate message => if message.mode ≤ 1 then some (validate message) else none
  | validateResponse message => if message.mode ≤ 1 then some (validateResponse message) else none
  | response message => some (response message)
  | submissionResponse message => (SubmissionResponse.reread message).map submissionResponse
  | query message => if message.Readable then some (query message) else none
  | sent message => message.reread.map sent

theorem Body.decode_encode (body : Body) (h : body.encode.fits = true) :
    body.decode body.encode.bytes = body.reread := by
  have heach := Payload.eachFits_of_fits h
  cases body with
  | hello message =>
    rw [encode] at heach
    rw [decode, encode, decodeHello, reread,
      map_whole_of_guard hello (parse_readHello message [] heach)]
  | registerWorker message =>
    rw [encode] at heach
    rw [decode, encode, decodeRegisterWorker, reread, whole_of_map (parse_readRegisterWorker message [] heach)]
  | ready message =>
    rw [encode] at heach
    rw [decode, encode, decodeReady, reread,
      map_whole_of_guard ready (parse_readReady message [] heach)]
  | capabilities value =>
    rw [encode, Payload.eachFits_record, Bool.and_eq_true] at heach
    rw [decode, encode, Payload.bytes_record, Payload.bytes_nil, reread,
      parse_decodeCapabilities value [] heach.1, Option.map_map]
    rfl
  | submit message =>
    rw [encode] at heach
    rw [decode, encode, decodeSubmit, reread, whole_of_map (parse_readSubmit message [] heach)]
  | authorityClaim claim =>
    rw [encode] at heach
    rw [decode, encode, decodeAuthorityClaim, reread,
      map_whole_of_guard authorityClaim (parse_authorityClaim claim [] heach)]
  | assignment value =>
    rw [encode] at heach
    rw [decode, encode, decodeAssignment, reread, whole_of_map (parse_readAssignment value [] heach)]
  | reportOutput message =>
    rw [encode] at heach
    rw [decode, encode, decodeReportOutput, reread,
      map_whole_of_guard reportOutput (parse_readReportOutput message [] heach)]
  | failAttempt message =>
    rw [encode] at heach
    rw [decode, encode, decodeFailAttempt, reread,
      map_whole_of_guard failAttempt (parse_readFailAttempt message [] heach)]
  | cacheQuery message =>
    rw [encode] at heach
    have hread : whole readCacheQuery (encodeCacheQuery message).bytes = some message :=
      whole_of_map (parse_readCacheQuery message [] heach)
    rw [decode, encode, decodeCacheQuery, reread, hread, Option.map_some]
  | validate message =>
    rw [encode] at heach
    rw [decode, encode, decodeValidate, reread,
      map_whole_of_guard validate (parse_readValidate message [] heach)]
  | validateResponse message =>
    rw [encode] at heach
    rw [decode, encode, decodeValidateResponse, reread,
      map_whole_of_guard validateResponse (parse_readValidateResponse message [] heach)]
  | response message =>
    rw [encode] at heach
    have hread : whole readResponse (encodeResponse message).bytes = some message :=
      whole_of_map (parse_readResponse message [] heach)
    rw [decode, encode, decodeResponse, reread, hread, Option.map_some]
  | submissionResponse message =>
    rw [encode] at heach
    rw [decode, encode, decodeSubmissionResponse, reread, whole_of_map (parse_readSubmissionResponse message [] heach)]
  | query message =>
    rw [encode] at heach
    rw [decode, encode, decodeQuery, reread,
      map_whole_of_guard query (parse_readQuery message [] heach)]
  | sent message =>
    rw [encode, Payload.eachFits_record, Bool.and_eq_true] at heach
    rw [decode, encode, Payload.bytes_record, Payload.bytes_nil, List.append_nil, reread,
      message.decode_encode heach.1]

-- ---------------------------------------------------------------------------
-- Letters
-- ---------------------------------------------------------------------------

/-- A message on its way: the op and the id of its frame. -/
structure Letter where
  op : Op
  requestId : UInt64 := 0
  body : Body

omit [HashFunction] in
def Letter.frame (letter : Letter) : Frame :=
  { op := letter.op, requestId := letter.requestId, payload := letter.body.encode.bytes }

omit [HashFunction] in
theorem Letter.encodable {letter : Letter} (named : letter.op ≠ .invalid)
    (deliverable : letter.frame.Deliverable kMaxFrameBytes) : letter.frame.Encodable where
  op := named
  bounded := by
    unfold Frame.Deliverable at deliverable
    omega

end

/-- A greeting and a query of a kind there is none of. -/
def twoLetters : List Letter := [
  { op := .hello, requestId := 7, body := .hello { name := txt "cli" } },
  { op := .query, requestId := 8, body := .query { kind := 12 } }]

theorem twoLetters_checks : ∀ letter ∈ twoLetters, letter.op ≠ .invalid ∧ letter.body.encode.fits = true ∧
    letter.frame.Deliverable kMaxFrameBytes := by
  simp only [twoLetters, List.forall_mem_cons, Frame.Deliverable]
  decide +kernel

end Wire

end DistributedCompilation
