import DistributedCompilation.Wire.Delivery
import DistributedCompilation.Wire.Payload

/-!
# Distributed Compilation — payloads read back

What the decoder of each payload makes of what its encoder wrote. A request,
capabilities and the parts of an assignment are canonicalized while they are
read, so `reread` is the message that comes back, `none` where the decoder
refuses; the other messages come back as they were sent or not at all.
-/

namespace DistributedCompilation

open Reader Decoder

-- ---------------------------------------------------------------------------
-- Records and blobs
-- ---------------------------------------------------------------------------

namespace Payload

@[simp] theorem bytes_nil : bytes [] = [] := rfl

@[simp] theorem bytes_record (calls : Record) (p : Payload) :
    bytes (.record calls :: p) = calls.bytes ++ bytes p := rfl

@[simp] theorem bytes_blob (value : Bytes) (p : Payload) :
    bytes (.blob value :: p) = (Part.blob value).bytes ++ bytes p := rfl

@[simp] theorem bytes_append (p p' : Payload) : bytes (p ++ p') = bytes p ++ bytes p' :=
  List.flatMap_append

@[simp] theorem bytes_flatMap {α : Type} (xs : List α) (encode : α → Payload) :
    bytes (xs.flatMap encode) = xs.flatMap fun x => bytes (encode x) := by
  simp only [bytes, List.flatMap_assoc]

@[simp] theorem eachFits_nil : eachFits [] = true := rfl

@[simp] theorem eachFits_record (calls : Record) (p : Payload) :
    eachFits (.record calls :: p) = (calls.eachFits && eachFits p) := rfl

@[simp] theorem eachFits_blob (value : Bytes) (p : Payload) :
    eachFits (.blob value :: p) = ((Part.blob value).eachFits && eachFits p) := rfl

@[simp] theorem eachFits_append (p p' : Payload) :
    eachFits (p ++ p') = (eachFits p && eachFits p') := List.all_append

@[simp] theorem eachFits_flatMap {α : Type} (xs : List α) (encode : α → Payload) :
    eachFits (xs.flatMap encode) = xs.all fun x => eachFits (encode x) := List.all_flatMap

theorem eachFits_of_fits {p : Payload} (h : p.fits = true) : p.eachFits = true := by
  rw [fits, Bool.and_eq_true] at h
  exact h.1

end Payload

theorem run_readBlob (v rest : Bytes) (h : (Part.blob v).eachFits = true) :
    readBlob.run ((Part.blob v).bytes ++ rest) = .ok (v, rest) := by
  have hle : v.length ≤ maxBlobBytes := by simpa [Part.eachFits] using h
  have hlt : v.length < 2 ^ 32 := lt_of_le_of_lt hle (by decide)
  have hnat : (UInt32.ofNat v.length).toNat = v.length := by
    rw [UInt32.toNat_ofNat', Nat.mod_eq_of_lt hlt]
  rw [Part.bytes, List.append_assoc, readBlob, run_bind_of_run (run_readU32_encode _ hlt), hnat,
    if_neg (by omega), run_need _ _ rfl]

@[simp] theorem parse_readBlob {β : Type} {rest : Bytes} (v : Bytes)
    (h : (Part.blob v).eachFits = true) (f : Bytes → Reader β) :
    (readBlob >>= f).parse ((Part.blob v).bytes ++ rest) = (f v).parse rest :=
  parse_bind_of_parse (parse_of_run (run_readBlob v rest h))

/-- Elements that a function changes or refuses. -/
theorem mapM_guard {α β : Type} (ok : α → Prop) [DecidablePred ok] (image : α → β) (items : List α) :
    items.mapM (fun x => if ok x then some (image x) else none) =
      if ∀ x ∈ items, ok x then some (items.map image) else none := by
  induction items with
  | nil => simp
  | cons x items ih =>
    rw [List.mapM_cons, ih]
    by_cases hx : ok x
    · by_cases hitems : ∀ y ∈ items, ok y
      · rw [if_pos hx, if_pos hitems, if_pos (List.forall_mem_cons.mpr ⟨hx, hitems⟩)]
        rfl
      · rw [if_pos hx, if_neg hitems, if_neg fun h => hitems (List.forall_mem_cons.mp h).2]
        rfl
    · rw [if_neg hx, if_neg fun h => hx (List.forall_mem_cons.mp h).1]
      rfl

/-- A unit of a submission response as a client receives it: of a cache decision only
the outcome and its reason, and no commit but a complete one. -/
def UnitSubmission.carried (unit : UnitSubmission) : UnitSubmission :=
  { unit with
    cache := { outcome := unit.cache.outcome, reason := unit.cache.reason }
    commit := if !unit.commit.id.isZero then unit.commit else {} }

/-- What `decode_submission_response` demands of a unit. -/
abbrev UnitSubmission.Readable (unit : UnitSubmission) : Prop :=
  unit.compilation.isZero = false ∧ unit.unit.isZero = false ∧
    ((!unit.commit.id.isZero) = true → unit.commit.Acceptable)

/-- The handles and the counts `decode_assignment` demands. -/
abbrev Assignment.Bounded (assignment : Assignment) : Prop :=
  (assignment.session.isZero = false ∧ assignment.worker.isZero = false ∧
    assignment.workerBoot.isZero = false) ∧ assignment.claim.Acceptable ∧
  (assignment.compilation.isZero = false ∧ assignment.unit.isZero = false ∧
    assignment.attempt.isZero = false) ∧ assignment.sources.length ≤ 4096 ∧
  assignment.dependencies.length ≤ 65536 ∧ assignment.children.length ≤ 4096

namespace Wire

/-- A bounded list is read back item by item. -/
theorem parse_readAtMost {α β γ : Type} (d : Reader α) (encode : γ → Bytes) (rest : Bytes)
    (reread : γ → Option α) (limit : Nat) (subject : String) (items : List γ)
    (f : List α → Reader β) (hcount : (Field.count items).fits = true)
    (h : ∀ x ∈ items, ∀ rest, d.parse (encode x ++ rest) = (reread x).map (·, rest)) :
    (readAtMost limit subject d >>= f).parse
        ((Field.count items).bytes ++ (items.flatMap encode ++ rest)) =
      if items.length ≤ limit then (items.mapM reread).bind fun items => (f items).parse rest
      else none := by
  have items_read := parse_replicate_mapM items rest h
  by_cases hle : items.length ≤ limit
  · have hbound : ¬limit < items.length := by omega
    rw [if_pos hle]
    refine parse_bind_of_map ?_
    rw [readAtMost, parse_readList _ hcount, if_neg hbound, items_read]
  · have hbound : limit < items.length := by omega
    rw [if_neg hle, parse_bind, readAtMost, parse_readList _ hcount, if_pos hbound]
    rfl

/-- A bounded list of items with blobs, each kept or refused. -/
theorem parse_readParts {α β : Type} {d : Reader α} {write : α → Payload} (ok : α → Prop)
    [DecidablePred ok] (limit : Nat) (subject : String) (items : List α) (f : List α → Reader β)
    (rest : Bytes) (h : (writeParts items write).eachFits = true)
    (hd : ∀ x, (write x).eachFits = true → ∀ rest, d.parse ((write x).bytes ++ rest) =
      if ok x then some (x, rest) else none) :
    (readAtMost limit subject d >>= f).parse ((writeParts items write).bytes ++ rest) =
      if items.length ≤ limit ∧ ∀ x ∈ items, ok x then (f items).parse rest else none := by
  simp only [writeParts, Payload.eachFits_record, Payload.eachFits_flatMap, Record.eachFits_cons,
    Bool.and_eq_true, List.all_eq_true] at h
  obtain ⟨⟨hcount, -⟩, hitems⟩ := h
  have items_read := parse_readAtMost d (fun x => (write x).bytes) rest
    (fun x => if ok x then some x else none) limit subject items f hcount ?_
  · rw [writeParts, Payload.bytes_record, Payload.bytes_flatMap, Record.bytes_singleton,
      List.append_assoc, items_read, mapM_guard ok fun x => x, List.map_id', ite_and]
    by_cases hok : ∀ x ∈ items, ok x
    · rw [if_pos hok, if_pos hok, Option.bind_some]
    · rw [if_neg hok, if_neg hok, Option.bind_none]
  · intro x hx rest
    rw [hd x (hitems x hx), map_ite, Option.map_some, Option.map_none]

-- ---------------------------------------------------------------------------
-- Messages that come back as they were sent
-- ---------------------------------------------------------------------------

/-- What `decode_hello` demands. -/
abbrev HelloMessage.Readable (message : HelloMessage) : Prop := message.protocolVersion = 1

theorem parse_readHello (message : HelloMessage) (rest : Bytes)
    (h : (encodeHello message).eachFits = true) :
    readHello.parse ((encodeHello message).bytes ++ rest) =
      if message.Readable then some (message, rest) else none := by
  simp only [encodeHello, Payload.eachFits_record, Record.eachFits_cons, Bool.and_eq_true] at h
  simp only [encodeHello, readHello, Payload.bytes_record, Payload.bytes_nil, Record.bytes_cons,
    Record.bytes_nil, List.append_assoc, List.nil_append, parse_readDomain, parse_readEnum,
    parse_readStr, parse_readU32, h, parse_ite, parse_refused, parse_pure, HelloMessage.Readable,
    ite_not]

/-- What `decode_ready` demands. -/
abbrev ReadyMessage.Readable (message : ReadyMessage) : Prop :=
  message.session.isZero = false ∧ message.worker.isZero = false ∧ message.boot.isZero = false

theorem parse_readReady (message : ReadyMessage) (rest : Bytes)
    (h : (encodeReady message).eachFits = true) :
    readReady.parse ((encodeReady message).bytes ++ rest) =
      if message.Readable then some (message, rest) else none := by
  simp only [encodeReady, Payload.eachFits_record, Record.eachFits_cons, Bool.and_eq_true] at h
  simp only [encodeReady, readReady, Payload.bytes_record, Payload.bytes_nil, Record.bytes_cons,
    Record.bytes_nil, List.append_assoc, List.nil_append, parse_readDomain, parse_readId,
    parse_readGen, parse_readStr, h, parse_pure, ReadyMessage.Readable, ite_and]

theorem parse_authorityClaim (claim : AuthorityClaim) (rest : Bytes)
    (h : (encodeAuthorityClaim claim).eachFits = true) :
    readAuthorityClaim.parse ((encodeAuthorityClaim claim).bytes ++ rest) =
      if claim.Acceptable then some (claim, rest) else none := by
  simp only [encodeAuthorityClaim, Payload.eachFits_record, Bool.and_eq_true] at h
  rw [encodeAuthorityClaim, Payload.bytes_record, Payload.bytes_nil, List.append_nil]
  exact parse_readAuthorityClaim claim rest h.1

/-- What `decode_report_output` demands. -/
abbrev ReportOutputMessage.Readable (message : ReportOutputMessage) : Prop :=
  message.claim.Acceptable ∧ message.workerValidation.Acceptable

theorem parse_readReportOutput (message : ReportOutputMessage) (rest : Bytes)
    (h : (encodeReportOutput message).eachFits = true) :
    readReportOutput.parse ((encodeReportOutput message).bytes ++ rest) =
      if message.Readable then some (message, rest) else none := by
  simp only [encodeReportOutput, Payload.eachFits_record, Payload.eachFits_blob, Record.join_cons,
    Record.join_nil, Record.eachFits_append, Record.eachFits_cons, Bool.and_eq_true] at h
  obtain ⟨⟨⟨hdomain, -⟩, hclaim, hhead, -⟩, hbytes, ⟨hvalidation, htail, -⟩, -⟩ := h
  have exitCode : message.exitCode.toUInt32.toInt32 = message.exitCode := Int32.toInt32_toUInt32 _
  simp only [encodeReportOutput, readReportOutput, Payload.bytes_record, Payload.bytes_blob,
    Payload.bytes_nil, Record.join_cons, Record.join_nil, Record.bytes_append, Record.bytes_cons,
    Record.bytes_nil, List.append_assoc, List.append_nil, parse_readDomain,
    parse_bind_of_guard (parse_readAuthorityClaim _ _ hclaim), parse_readEnum, parse_readStr,
    parse_readDigest, parse_readBlob,
    parse_bind_of_guard (parse_decodeValidationReport _ _ hvalidation), parse_readU64,
    parse_readU32, hdomain, hhead, hbytes, htail, exitCode, parse_pure,
    ReportOutputMessage.Readable, ite_and]

theorem parse_readFailAttempt (message : FailAttemptMessage) (rest : Bytes)
    (h : (encodeFailAttempt message).eachFits = true) :
    readFailAttempt.parse ((encodeFailAttempt message).bytes ++ rest) =
      if message.claim.Acceptable then some (message, rest) else none := by
  simp only [encodeFailAttempt, Payload.eachFits_record, Record.join_cons, Record.join_nil,
    Record.eachFits_append, Record.eachFits_cons, Bool.and_eq_true] at h
  obtain ⟨⟨⟨hdomain, -⟩, hclaim, htail, -⟩, -⟩ := h
  simp only [encodeFailAttempt, readFailAttempt, Payload.bytes_record, Payload.bytes_nil,
    Record.join_cons, Record.join_nil, Record.bytes_append, Record.bytes_cons, Record.bytes_nil,
    List.append_assoc, List.append_nil, parse_readDomain,
    parse_bind_of_guard (parse_readAuthorityClaim _ _ hclaim), parse_readCode, parse_readStr,
    parse_readBool, hdomain, htail, parse_pure]

theorem parse_readCacheQuery (message : CacheQueryMessage) (rest : Bytes)
    (h : (encodeCacheQuery message).eachFits = true) :
    readCacheQuery.parse ((encodeCacheQuery message).bytes ++ rest) = some (message, rest) := by
  simp only [encodeCacheQuery, Payload.eachFits_record, Record.eachFits_cons, Bool.and_eq_true] at h
  simp only [encodeCacheQuery, readCacheQuery, Payload.bytes_record, Payload.bytes_nil,
    Record.bytes_cons, Record.bytes_nil, List.append_assoc, List.nil_append, parse_readDomain,
    parse_readDigest, h, parse_pure]

theorem parse_readMode {β : Type} (mode : UInt32) (f : UInt32 → Reader β) (rest : Bytes) :
    (readMode >>= f).parse ((Field.u32 mode).bytes ++ rest) =
      if mode ≤ 1 then (f mode).parse rest else none := by
  refine parse_bind_of_guard ?_
  rw [readMode, parse_readU32, parse_ite, parse_refused, parse_pure]
  by_cases hle : mode ≤ 1
  · rw [if_pos hle, if_neg (UInt32.not_lt.mpr hle)]
  · rw [if_neg hle, if_pos (UInt32.not_le.mp hle)]

theorem parse_readValidate (message : ValidateMessage) (rest : Bytes)
    (h : (encodeValidate message).eachFits = true) :
    readValidate.parse ((encodeValidate message).bytes ++ rest) =
      if message.mode ≤ 1 then some (message, rest) else none := by
  simp only [encodeValidate, Payload.eachFits_record, Record.eachFits_cons, Bool.and_eq_true] at h
  simp only [encodeValidate, readValidate, Payload.bytes_record, Payload.bytes_nil,
    Record.bytes_cons, Record.bytes_nil, List.append_assoc, List.nil_append, parse_readDomain,
    parse_readMode, parse_readDigest, parse_readStr, h, parse_pure]

theorem parse_readValidateResponse (message : ValidateResponseMessage) (rest : Bytes)
    (h : (encodeValidateResponse message).eachFits = true) :
    readValidateResponse.parse ((encodeValidateResponse message).bytes ++ rest) =
      if message.mode ≤ 1 then some (message, rest) else none := by
  simp only [encodeValidateResponse, Payload.eachFits_record, Record.eachFits_cons,
    Bool.and_eq_true] at h
  simp only [encodeValidateResponse, readValidateResponse, Payload.bytes_record, Payload.bytes_nil,
    Record.bytes_cons, Record.bytes_nil, List.append_assoc, List.nil_append, parse_readDomain,
    parse_readMode, parse_readEnum, parse_readDigest, parse_readStr, h, parse_pure]

theorem Op.all_code (op : Op) : Op.all[op.code]? = some op := by
  cases op <;> rfl

theorem headerOf_written (op : Op) (code : ErrorCode) :
    headerOf (UInt16.ofNat op.code) code.value = some (op, code) := by
  have hlt : op.code < 2 ^ 16 := op.code_lt
  have hnat : (UInt16.ofNat op.code).toNat = op.code := by
    rw [UInt16.toNat_ofNat', Nat.mod_eq_of_lt hlt]
  rw [headerOf, dif_pos code.inDomain, hnat, Op.all_code, Option.map_some]

theorem parse_readResponse (message : ResponseMessage) (rest : Bytes)
    (h : (encodeResponse message).eachFits = true) :
    readResponse.parse ((encodeResponse message).bytes ++ rest) = some (message, rest) := by
  simp only [encodeResponse, Payload.eachFits_record, Payload.eachFits_blob, Record.eachFits_cons,
    Bool.and_eq_true] at h
  obtain ⟨hhead, hpayload, -⟩ := h
  have header (rest : Bytes) : readHeader.parse ((Field.u16 (UInt16.ofNat message.op.code)).bytes ++
      ((Field.u16 message.code.value).bytes ++ rest)) = some ((message.op, message.code), rest) := by
    simp only [readHeader, parse_readU16, headerOf_written, parse_pure]
  simp only [encodeResponse, readResponse, Payload.bytes_record, Payload.bytes_blob,
    Payload.bytes_nil, Record.bytes_cons, Record.bytes_nil, List.append_assoc, List.nil_append,
    parse_readDomain, parse_bind_of_parse (header _), parse_readStr, parse_readBlob, hhead, hpayload,
    parse_pure]

/-- What `decode_query` demands. -/
abbrev QueryMessage.Readable (message : QueryMessage) : Prop := ¬9 < message.kind

theorem parse_readQuery (message : QueryMessage) (rest : Bytes)
    (h : (encodeQuery message).eachFits = true) :
    readQuery.parse ((encodeQuery message).bytes ++ rest) =
      if message.Readable then some (message, rest) else none := by
  simp only [encodeQuery, Payload.eachFits_record, Record.eachFits_cons, Bool.and_eq_true] at h
  simp only [encodeQuery, readQuery, Payload.bytes_record, Payload.bytes_nil, Record.bytes_cons,
    Record.bytes_nil, List.append_assoc, List.nil_append, parse_readDomain, parse_readU32,
    parse_ite, parse_refused, parse_readU64, parse_readDigest, h, parse_pure, QueryMessage.Readable,
    ite_not]

theorem parse_readAssignmentSource (source : AssignmentSource)
    (h : (writeAssignmentSource source).eachFits = true) (rest : Bytes) :
    readAssignmentSource.parse ((writeAssignmentSource source).bytes ++ rest) =
      if True then some (source, rest) else none := by
  simp only [writeAssignmentSource, Payload.eachFits_record, Payload.eachFits_blob,
    Record.eachFits_cons, Bool.and_eq_true] at h
  simp only [writeAssignmentSource, readAssignmentSource, Payload.bytes_record, Payload.bytes_blob,
    Payload.bytes_nil, Record.bytes_cons, Record.bytes_nil, List.append_assoc, List.nil_append,
    parse_readStr, parse_readEnum, parse_readBlob, h, parse_pure, if_true]

theorem parse_readAssignmentDependency (dep : AssignmentDependency)
    (h : (writeAssignmentDependency dep).eachFits = true) (rest : Bytes) :
    readAssignmentDependency.parse ((writeAssignmentDependency dep).bytes ++ rest) =
      if True then some (dep, rest) else none := by
  simp only [writeAssignmentDependency, Payload.eachFits_record, Payload.eachFits_blob,
    Record.eachFits_cons, Bool.and_eq_true] at h
  simp only [writeAssignmentDependency, readAssignmentDependency, Payload.bytes_record,
    Payload.bytes_blob, Payload.bytes_nil, Record.bytes_cons, Record.bytes_nil, List.append_assoc,
    List.nil_append, parse_readStr, parse_readEnum, parse_readBlob, h, parse_pure, if_true]

theorem parse_readAssignmentChild (child : AssignmentChild)
    (h : (writeAssignmentChild child).eachFits = true) (rest : Bytes) :
    readAssignmentChild.parse ((writeAssignmentChild child).bytes ++ rest) =
      if True then some (child, rest) else none := by
  simp only [writeAssignmentChild, Payload.eachFits_record, Payload.eachFits_blob,
    Record.eachFits_cons, Bool.and_eq_true] at h
  simp only [writeAssignmentChild, readAssignmentChild, Payload.bytes_record, Payload.bytes_blob,
    Payload.bytes_nil, Record.bytes_cons, Record.bytes_nil, List.append_assoc, List.nil_append,
    parse_readStr, parse_readEnum, parse_readBlob, h, parse_pure, if_true]

theorem parse_readUnitSubmission (unit : UnitSubmission)
    (h : (writeUnitSubmission unit).eachFits = true) (rest : Bytes) :
    readUnitSubmission.parse ((writeUnitSubmission unit).bytes ++ rest) =
      (if unit.Readable then some unit.carried else none).map (·, rest) := by
  simp only [writeUnitSubmission, Record.join_cons, Record.join_nil, Record.eachFits_append,
    Record.eachFits_cons, Bool.and_eq_true] at h
  obtain ⟨hhead, hcommit, -⟩ := h
  have commit (rest : Bytes) : (!unit.commit.id.isZero) = true →
      decodeCommit.parse ((encodeCommit unit.commit).bytes ++ rest) =
        if unit.commit.Acceptable then some (unit.commit, rest) else none := by
    intro hpresent
    refine parse_decodeCommit _ _ ?_
    simp only [writePresent, Record.eachFits_cons, Bool.and_eq_true] at hcommit
    rw [if_pos hpresent] at hcommit
    exact hcommit.2
  simp only [writeUnitSubmission, readUnitSubmission, Record.join_cons, Record.join_nil,
    Record.bytes_append, Record.bytes_cons, Record.bytes_nil, List.append_assoc, List.nil_append,
    parse_readU32, parse_readId, parse_readGen, parse_readDigest, parse_readEnum, parse_readStr,
    parse_readBool, hhead, parse_readPresent _ (commit _), parse_pure, UnitSubmission.Readable,
    UnitSubmission.carried, ite_and, map_ite, Option.map_some, Option.map_none]

def SubmissionResponse.reread (message : SubmissionResponse) : Option SubmissionResponse :=
  if message.requestId.isZero = false ∧ message.units.length ≤ 65536 ∧
      ∀ unit ∈ message.units, unit.Readable then
    some { message with units := message.units.map UnitSubmission.carried }
  else none

theorem parse_readSubmissionResponse (message : SubmissionResponse) (rest : Bytes)
    (h : (encodeSubmissionResponse message).eachFits = true) :
    readSubmissionResponse.parse ((encodeSubmissionResponse message).bytes ++ rest) =
      (SubmissionResponse.reread message).map (·, rest) := by
  simp only [encodeSubmissionResponse, writeList, Payload.eachFits_record, Record.join_cons,
    Record.join_nil, Record.eachFits_append, Record.eachFits_cons, Record.eachFits_flatMap,
    Bool.and_eq_true, List.all_eq_true] at h
  obtain ⟨⟨hhead, ⟨hcount, hunits⟩, -⟩, -⟩ := h
  have units := parse_readAtMost readUnitSubmission (fun unit => (writeUnitSubmission unit).bytes) rest
    (fun unit => if unit.Readable then some unit.carried else none)
    65536 "submission response unit" message.units (fun units => (pure {
      requestId := message.requestId, requestIdentity := message.requestIdentity, units
      allCommitted := message.allCommitted, servedFromCache := message.servedFromCache
      duplicateRequest := message.duplicateRequest } : Reader SubmissionResponse)) hcount
    fun unit hunit rest => parse_readUnitSubmission unit (hunits unit hunit) rest
  rw [mapM_guard] at units
  simp only [encodeSubmissionResponse, readSubmissionResponse, writeList, Payload.bytes_record,
    Payload.bytes_nil, Record.join_cons, Record.join_nil, Record.bytes_append, Record.bytes_cons,
    Record.bytes_nil, Record.bytes_flatMap, List.append_assoc, List.nil_append, parse_readDomain,
    parse_readId, parse_readDigest, parse_readBool, hhead, units, SubmissionResponse.reread, ite_and,
    map_ite, Option.map_some, Option.map_none]
  by_cases hall : ∀ unit ∈ message.units, unit.Readable
  · rw [if_pos hall, if_pos hall, Option.bind_some, parse_pure]
  · rw [if_neg hall, if_neg hall, Option.bind_none]

-- ---------------------------------------------------------------------------
-- Messages that are canonicalized while they are read
-- ---------------------------------------------------------------------------

section Canonicalized

variable [HashFunction]

def RegisterWorkerMessage.reread (message : RegisterWorkerMessage) : Option RegisterWorkerMessage :=
  if message.workerId.isZero = false ∧ message.bootId.isZero = false ∧
      ¬(message.maxInflight = 0 ∨ 64 < message.maxInflight) then
    (rereadCapabilities message.capabilities).map fun capabilities => { message with capabilities }
  else none

theorem parse_readRegisterWorker (message : RegisterWorkerMessage) (rest : Bytes)
    (h : (encodeRegisterWorker message).eachFits = true) :
    readRegisterWorker.parse ((encodeRegisterWorker message).bytes ++ rest) =
      message.reread.map (·, rest) := by
  simp only [encodeRegisterWorker, Payload.eachFits_record, Record.join_cons, Record.join_nil,
    Record.eachFits_append, Record.eachFits_cons, Bool.and_eq_true] at h
  obtain ⟨⟨hhead, hcapabilities, -⟩, -⟩ := h
  simp only [encodeRegisterWorker, readRegisterWorker, Payload.bytes_record, Payload.bytes_nil,
    Record.join_cons, Record.join_nil, Record.bytes_append, Record.bytes_cons, Record.bytes_nil,
    List.append_assoc, List.append_nil, parse_readDomain, parse_readStr,
    parse_readId, parse_readU32, parse_ite, parse_refused,
    parse_bind_of_map (parse_decodeCapabilities _ _ hcapabilities), hhead, parse_pure,
    RegisterWorkerMessage.reread, ite_and, ite_not, map_ite, Option.map_none, Option.map_map]
  cases rereadCapabilities message.capabilities <;> rfl

/-- A submitted blob is the content its digest names. -/
abbrev Matches (blob : Blob) : Prop := sha256 blob.bytes = blob.digest

theorem parse_readSubmittedBlob (blob : Blob) (h : (writeBlob blob).eachFits = true) (rest : Bytes) :
    readSubmittedBlob.parse ((writeBlob blob).bytes ++ rest) =
      if Matches blob then some (blob, rest) else none := by
  simp only [writeBlob, Payload.eachFits_record, Payload.eachFits_blob, Bool.and_eq_true] at h
  simp only [writeBlob, readSubmittedBlob, Payload.bytes_record, Payload.bytes_blob,
    Payload.bytes_nil, Record.bytes_cons, Record.bytes_nil, List.append_assoc, List.nil_append,
    parse_readDigest, parse_readBlob, h, parse_ite, parse_refused, parse_pure, ite_not, Matches]

def SubmitMessage.reread (message : SubmitMessage) : Option SubmitMessage :=
  (rereadRequest message.request).bind fun request =>
    if message.blobs.length ≤ 65536 ∧ ∀ blob ∈ message.blobs, Matches blob then
      some { message with request }
    else none

theorem parse_readSubmit (message : SubmitMessage) (rest : Bytes)
    (h : (encodeSubmit message).eachFits = true) :
    readSubmit.parse ((encodeSubmit message).bytes ++ rest) = message.reread.map (·, rest) := by
  simp only [encodeSubmit, Payload.eachFits_record, Record.join_cons, Record.join_nil,
    Record.eachFits_append, Record.eachFits_cons, Bool.and_eq_true] at h
  obtain ⟨⟨⟨hdomain, -⟩, hrequest, -, -⟩, hblobs⟩ := h
  simp only [encodeSubmit, readSubmit, Payload.bytes_record, Record.join_cons, Record.join_nil,
    Record.bytes_append, Record.bytes_cons, Record.bytes_nil, List.append_assoc, List.nil_append,
    parse_readDomain _ hdomain, parse_bind_of_map (parse_decodeRequest _ _ hrequest),
    parse_readBool, parse_readParts Matches _ _ _ _ _ hblobs parse_readSubmittedBlob, parse_pure,
    SubmitMessage.reread, map_bind, map_ite, Option.map_some, Option.map_none]

/-- The assignment a worker receives. -/
def rereadAssignment (assignment : Assignment) : Option Assignment :=
  if assignment.Bounded then do
    let toolchain ← rereadToolchain assignment.toolchain
    let target ← rereadTarget assignment.target
    let specialization ← rereadSpecialization assignment.specialization
    let policy ← rereadPolicy assignment.policy
    if assignment.validation.Acceptable ∧ assignment.lease.Acceptable then
      some { assignment with
        toolchain, target, specialization, policy
        environment := canonicalizeEnvironment assignment.environment }
    else none
  else none

theorem parse_readAssignment (assignment : Assignment) (rest : Bytes)
    (h : (encodeAssignment assignment).eachFits = true) :
    readAssignment.parse ((encodeAssignment assignment).bytes ++ rest) =
      (rereadAssignment assignment).map (·, rest) := by
  simp only [encodeAssignment, Payload.eachFits_record, Payload.eachFits_append, Record.join_cons,
    Record.join_nil, Record.eachFits_append, Record.eachFits_cons, Bool.and_eq_true] at h
  obtain ⟨⟨⟨⟨⟨hhead, hclaim, hmiddle, -⟩, hsources⟩, hdependencies⟩, hflags, hchildren⟩,
    ⟨htoolchain, htarget, hspecialization, hpolicy, henvironment, hvalidation, -, hlease, -⟩, -⟩ := h
  simp only [encodeAssignment, readAssignment, Payload.bytes_record, Payload.bytes_append,
    Payload.bytes_nil, Record.join_cons, Record.join_nil, Record.bytes_append, Record.bytes_cons,
    Record.bytes_nil, List.append_assoc, List.append_nil, parse_readDomain,
    parse_readId, parse_readGen, parse_readU32, parse_readEnum, parse_readStr, hhead, hmiddle,
    parse_bind_of_guard (parse_readAuthorityClaim _ _ hclaim),
    parse_readParts _ _ _ _ _ _ hsources parse_readAssignmentSource,
    parse_readParts _ _ _ _ _ _ hdependencies parse_readAssignmentDependency,
    parse_readStringList _ _ _ hflags,
    parse_readParts _ _ _ _ _ _ hchildren parse_readAssignmentChild,
    parse_bind_of_map (parse_decodeToolchain _ _ htoolchain),
    parse_bind_of_map (parse_decodeTarget _ _ htarget),
    parse_bind_of_map (parse_decodeSpecialization _ _ hspecialization),
    parse_bind_of_map (parse_decodePolicy _ _ hpolicy),
    parse_bind_of_parse (parse_decodeEnvironment _ _ henvironment),
    parse_bind_of_guard (parse_decodeValidationRequirements _ _ hvalidation), parse_readU64,
    parse_readBool, parse_bind_of_guard (parse_decodeLease _ _ hlease), parse_pure,
    rereadAssignment, Assignment.Bounded, implies_true, and_true, ite_and, map_ite, map_bind,
    Option.map_some, Option.map_none, Option.bind_eq_bind]

end Canonicalized

end Wire

end DistributedCompilation
