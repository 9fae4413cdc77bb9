import Mathlib

/-!
# Distributed Compilation — identifiers, digests and status codes

The vocabulary shared by every module: byte strings, typed identifiers and
generations, 256-bit digests, error codes and statuses.

* `Bytes` models both `std::vector<std::byte>` and `std::string`: the code
  compares, trims and hashes strings byte by byte and never decodes them.
* `Id` and `Gen` are the two class templates of `identity.hpp`. Their values
  are natural numbers: the counters behind them are 64-bit and only ever
  incremented by one, so the wrap of `++` and the saturation of `Gen::next`
  sit `2 ^ 64` operations away.
* `ErrorCode` is the open enumeration over `std::uint16_t`: the wire accepts
  every value up to `Shutdown`, including the ones without an enumerator.
-/

namespace DistributedCompilation

/-- `std::vector<std::byte>` and `std::string`. -/
abbrev Bytes := List UInt8

/-- A string literal of the source as a byte string. -/
def txt (s : String) : Bytes := s.toByteArray.data.toList

/-- `std::to_string` of an unsigned value. -/
def decimal (n : Nat) : Bytes := txt (toString n)

/-- Milliseconds since the epoch (`std::int64_t`). -/
abbrev UnixMillis := Int64

-- ---------------------------------------------------------------------------
-- Typed identifiers and generations
-- ---------------------------------------------------------------------------

inductive IdTag
  | compilation | unit | attempt | request | worker | boot | session | lease
  | source | ir | dependencySet | intermediate | toolchain | target
  | specialization | policy | cacheEntry | artifact | commit | evidence
  | provenance | validation
deriving DecidableEq

inductive GenTag
  | compilation | unit | attempt | epoch | request | worker | lease | source
  | ir | dependency | intermediate | toolchain | target | specialization
  | policy | cache | artifact | commit | evidence | provenance
deriving DecidableEq

/-- `dc::Id<Tag>`: a handle; zero means "absent". -/
structure Id (tag : IdTag) where
  value : Nat := 0
deriving DecidableEq

/-- `dc::Gen<Tag>`: a generation; zero means "never set". -/
structure Gen (tag : GenTag) where
  value : Nat := 0
deriving DecidableEq

namespace Id

variable {tag : IdTag}

instance : Inhabited (Id tag) := ⟨⟨0⟩⟩

def isZero (i : Id tag) : Bool := i.value == 0

instance : Ord (Id tag) := ⟨fun a b => compare a.value b.value⟩

instance : Std.TransOrd (Id tag) where
  eq_swap := Std.OrientedOrd.eq_swap (α := Nat)
  isLE_trans := Std.TransOrd.isLE_trans (α := Nat)

instance : Std.LawfulEqOrd (Id tag) where
  eq_of_compare {a b} h := by
    cases a; cases b
    exact congrArg mk (Std.LawfulEqOrd.eq_of_compare (α := Nat) h)

end Id

namespace Gen

variable {tag : GenTag}

instance : Inhabited (Gen tag) := ⟨⟨0⟩⟩

def isZero (g : Gen tag) : Bool := g.value == 0

def next (g : Gen tag) : Gen tag := ⟨g.value + 1⟩

end Gen

abbrev CompilationId := Id .compilation
abbrev CompilationUnitId := Id .unit
abbrev CompilationAttemptId := Id .attempt
abbrev RequestId := Id .request
abbrev WorkerId := Id .worker
abbrev WorkerBootId := Id .boot
abbrev SessionId := Id .session
abbrev LeaseId := Id .lease
abbrev SourceId := Id .source
abbrev IRId := Id .ir
abbrev DependencySetId := Id .dependencySet
abbrev IntermediateId := Id .intermediate
abbrev ToolchainId := Id .toolchain
abbrev TargetId := Id .target
abbrev SpecializationId := Id .specialization
abbrev CompilePolicyId := Id .policy
abbrev CacheEntryId := Id .cacheEntry
abbrev ArtifactId := Id .artifact
abbrev ArtifactCommitId := Id .commit
abbrev EvidenceId := Id .evidence
abbrev ProvenanceId := Id .provenance
abbrev ValidationId := Id .validation

abbrev CompilationGeneration := Gen .compilation
abbrev UnitGeneration := Gen .unit
abbrev CompilationAttemptGeneration := Gen .attempt
abbrev CoordinatorEpoch := Gen .epoch
abbrev RequestGeneration := Gen .request
abbrev WorkerGeneration := Gen .worker
abbrev LeaseGeneration := Gen .lease
abbrev SourceGeneration := Gen .source
abbrev IRGeneration := Gen .ir
abbrev DependencyGeneration := Gen .dependency
abbrev IntermediateGeneration := Gen .intermediate
abbrev ToolchainGeneration := Gen .toolchain
abbrev TargetGeneration := Gen .target
abbrev SpecializationGeneration := Gen .specialization
abbrev CompilePolicyGeneration := Gen .policy
abbrev CacheGeneration := Gen .cache
abbrev ArtifactGeneration := Gen .artifact
abbrev ArtifactCommitGeneration := Gen .commit
abbrev EvidenceGeneration := Gen .evidence
abbrev ProvenanceGeneration := Gen .provenance

-- ---------------------------------------------------------------------------
-- Digests
-- ---------------------------------------------------------------------------

/-- A SHA-256 value: exactly 32 bytes, compared lexicographically. -/
@[ext] structure Digest256 where
  bytes : Bytes
  size_eq : bytes.length = 32
deriving DecidableEq

namespace Digest256

/-- The value-initialised digest, which the code reads as "absent". -/
def zero : Digest256 := ⟨List.replicate 32 0, by decide⟩

/-- A digest that is easy to write down. -/
def filled (byte : UInt8) : Digest256 := ⟨List.replicate 32 byte, by simp⟩

instance : Inhabited Digest256 := ⟨zero⟩

def isZero (d : Digest256) : Bool := d.bytes.all (· == 0)

instance : Ord Digest256 := ⟨fun a b => compare a.bytes b.bytes⟩

instance : Std.TransOrd Digest256 where
  eq_swap := Std.OrientedOrd.eq_swap (α := Bytes)
  isLE_trans := Std.TransOrd.isLE_trans (α := Bytes)

instance : Std.LawfulEqOrd Digest256 where
  eq_of_compare h := Digest256.ext (Std.LawfulEqOrd.eq_of_compare (α := Bytes) h)

def hexDigit (n : UInt8) : UInt8 := if n < 10 then 48 + n else 87 + n

/-- Lower-case hexadecimal rendering. -/
def hex (d : Digest256) : Bytes :=
  d.bytes.flatMap fun (b : UInt8) => [hexDigit (b >>> 4), hexDigit (b &&& 15)]

end Digest256

/-- `DC_SCHEMA_VERSION`. -/
def schemaVersion : UInt16 := 1

-- ---------------------------------------------------------------------------
-- Error codes and statuses
-- ---------------------------------------------------------------------------

/-- `enum class ErrorCode : std::uint16_t`. Every decoder refuses a code past the
last enumerator, `Shutdown`. -/
structure ErrorCode where
  value : UInt16
  inDomain : value ≤ 94
deriving DecidableEq

namespace ErrorCode

def ok : ErrorCode := ⟨0, by decide⟩
def invalidArgument : ErrorCode := ⟨1, by decide⟩
def malformed : ErrorCode := ⟨2, by decide⟩
def limitExceeded : ErrorCode := ⟨3, by decide⟩
def overflow : ErrorCode := ⟨4, by decide⟩
def unsupported : ErrorCode := ⟨5, by decide⟩
def unknown : ErrorCode := ⟨6, by decide⟩
def notFound : ErrorCode := ⟨7, by decide⟩
def duplicate : ErrorCode := ⟨9, by decide⟩
def internal : ErrorCode := ⟨10, by decide⟩
def ioError : ErrorCode := ⟨11, by decide⟩
def unauthorized : ErrorCode := ⟨13, by decide⟩
def staleEpoch : ErrorCode := ⟨20, by decide⟩
def staleWorkerBoot : ErrorCode := ⟨21, by decide⟩
def staleWorkerGeneration : ErrorCode := ⟨22, by decide⟩
def staleLease : ErrorCode := ⟨23, by decide⟩
def staleCompilation : ErrorCode := ⟨24, by decide⟩
def staleAttempt : ErrorCode := ⟨25, by decide⟩
def staleSource : ErrorCode := ⟨26, by decide⟩
def staleIR : ErrorCode := ⟨27, by decide⟩
def staleDependencies : ErrorCode := ⟨28, by decide⟩
def staleToolchain : ErrorCode := ⟨29, by decide⟩
def staleTarget : ErrorCode := ⟨30, by decide⟩
def staleSpecialization : ErrorCode := ⟨31, by decide⟩
def stalePolicy : ErrorCode := ⟨32, by decide⟩
def staleCache : ErrorCode := ⟨33, by decide⟩
def staleRequest : ErrorCode := ⟨34, by decide⟩
def staleSession : ErrorCode := ⟨35, by decide⟩
def noEligibleWorker : ErrorCode := ⟨41, by decide⟩
def artifactMismatch : ErrorCode := ⟨50, by decide⟩
def artifactAlreadyCommitted : ErrorCode := ⟨51, by decide⟩
def artifactMissing : ErrorCode := ⟨52, by decide⟩
def integrityFailure : ErrorCode := ⟨53, by decide⟩
def validationFailure : ErrorCode := ⟨54, by decide⟩
def reproducibilityViolation : ErrorCode := ⟨56, by decide⟩
def fanInIncomplete : ErrorCode := ⟨57, by decide⟩
def cancelled : ErrorCode := ⟨58, by decide⟩
def fenced : ErrorCode := ⟨59, by decide⟩
def ambiguous : ErrorCode := ⟨60, by decide⟩
def illegalTransition : ErrorCode := ⟨61, by decide⟩
def persistenceCorrupt : ErrorCode := ⟨80, by decide⟩
def schemaMismatch : ErrorCode := ⟨82, by decide⟩
def persistenceClosed : ErrorCode := ⟨83, by decide⟩
def transportFailure : ErrorCode := ⟨90, by decide⟩
def connectionClosed : ErrorCode := ⟨91, by decide⟩
def timeout : ErrorCode := ⟨92, by decide⟩
def shutdown : ErrorCode := ⟨94, by decide⟩

/-- `to_string(ErrorCode)` of the codes above. -/
def names : List (ErrorCode × String) :=
  [(ok, "OK"), (invalidArgument, "InvalidArgument"), (malformed, "Malformed"),
   (limitExceeded, "LimitExceeded"), (overflow, "Overflow"), (unsupported, "Unsupported"),
   (notFound, "NotFound"), (duplicate, "Duplicate"), (internal, "Internal"), (ioError, "IoError"),
   (unauthorized, "Unauthorized"), (staleEpoch, "StaleEpoch"),
   (staleWorkerBoot, "StaleWorkerBoot"), (staleWorkerGeneration, "StaleWorkerGeneration"),
   (staleLease, "StaleLease"), (staleCompilation, "StaleCompilation"),
   (staleAttempt, "StaleAttempt"), (staleSource, "StaleSource"), (staleIR, "StaleIR"),
   (staleDependencies, "StaleDependencies"), (staleToolchain, "StaleToolchain"),
   (staleTarget, "StaleTarget"), (staleSpecialization, "StaleSpecialization"),
   (stalePolicy, "StalePolicy"), (staleCache, "StaleCache"), (staleRequest, "StaleRequest"),
   (staleSession, "StaleSession"), (noEligibleWorker, "NoEligibleWorker"),
   (artifactMismatch, "ArtifactMismatch"),
   (artifactAlreadyCommitted, "ArtifactAlreadyCommitted"), (artifactMissing, "ArtifactMissing"),
   (integrityFailure, "IntegrityFailure"), (validationFailure, "ValidationFailure"),
   (reproducibilityViolation, "ReproducibilityViolation"), (fanInIncomplete, "FanInIncomplete"),
   (cancelled, "Cancelled"), (fenced, "Fenced"), (ambiguous, "Ambiguous"),
   (illegalTransition, "IllegalTransition"), (persistenceCorrupt, "PersistenceCorrupt"),
   (schemaMismatch, "SchemaMismatch"), (persistenceClosed, "PersistenceClosed"),
   (transportFailure, "TransportFailure"), (connectionClosed, "ConnectionClosed"),
   (timeout, "Timeout"), (shutdown, "Shutdown")]

def text (code : ErrorCode) : Bytes := txt ((names.lookup code).getD "Unknown")

end ErrorCode

/-- A typed failure with its diagnostic. The success status is `Except.ok`. -/
structure Status where
  code : ErrorCode
  detail : Bytes
deriving DecidableEq

/-- `Status::describe`. -/
def Status.describe (s : Status) : Bytes :=
  if s.detail.isEmpty then s.code.text else s.code.text ++ txt ": " ++ s.detail

/-- `dc::Result<T>` (and `dc::Status` itself, as `Result Unit`). -/
abbrev Result (α : Type) := Except Status α

/-- `Status::error`. -/
def failure {α : Type} (code : ErrorCode) (detail : Bytes) : Result α := .error ⟨code, detail⟩

-- ---------------------------------------------------------------------------
-- Identity mixing (`identity.cpp`)
-- ---------------------------------------------------------------------------

def mix64 (value : UInt64) : UInt64 :=
  let value := value ^^^ (value >>> 33)
  let value := value * 0xFF51AFD7ED558CCD
  let value := value ^^^ (value >>> 33)
  let value := value * 0xC4CEB9FE1A85EC53
  value ^^^ (value >>> 33)

end DistributedCompilation
