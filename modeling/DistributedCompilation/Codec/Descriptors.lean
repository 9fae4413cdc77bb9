import DistributedCompilation.Codec.UnitRecord

/-!
# Distributed Compilation — identity records say what they are about

The bytes an identity is the hash of can be read back for every kind of
descriptor: each record is written under a domain of its own and every length in
it is written before what it counts. So equal bytes are of the same kind and were
written from the same values; what a record leaves out (`written` drops it) they
say nothing about.
-/

namespace DistributedCompilation

open Reader Decoder

-- ---------------------------------------------------------------------------
-- What is written
-- ---------------------------------------------------------------------------

/-- The path counts only when no digest could be established. -/
def BinaryIdentity.written (v : BinaryIdentity) : BinaryIdentity :=
  { v with path := if v.state ≠ .known then v.path else [] }

def ToolchainIdentity.written (v : ToolchainIdentity) : ToolchainIdentity :=
  { v with
    id := {}
    generation := {}
    compiler := v.compiler.written
    linker := v.linker.written
    assembler := v.assembler.written
    runtimeLibrary := v.runtimeLibrary.written
    sdk := v.sdk.map fun x => { name := x.name, version := x.version }
    evidenceId := {}
    evidenceGeneration := {}
    identityDigest := default }

def TargetIdentity.written (v : TargetIdentity) : TargetIdentity :=
  { v with id := {}, generation := {}, evidence := .unknown, identityDigest := default }

/-- Of the values of a field only that of its kind counts. -/
def SpecField.written (v : SpecField) : SpecField :=
  match v.kind with
  | .signed => { name := v.name, kind := .signed, signedValue := v.signedValue }
  | .unsigned => { name := v.name, kind := .unsigned, unsignedValue := v.unsignedValue }
  | .floating => { name := v.name, kind := .floating, floatingValue := v.floatingValue }
  | .text => { name := v.name, kind := .text, textValue := v.textValue }
  | .boolean => { name := v.name, kind := .boolean, booleanValue := v.booleanValue }

def SpecializationSpec.written (v : SpecializationSpec) : SpecializationSpec :=
  { fields := v.fields.map SpecField.written }

def CompilePolicy.written (v : CompilePolicy) : CompilePolicy :=
  { v with id := {}, generation := {}, identityDigest := default }

def DependencySet.written (v : DependencySet) : DependencySet :=
  { entries := v.entries.map DependencyEntry.bare }

/-- What `derive_request_identity` writes. -/
structure RequestBody where
  toolchain : Digest256
  target : Digest256
  specialization : Digest256
  policy : Digest256
  dependencySet : Digest256
  environment : Digest256
  flags : List Bytes
  authorityGeneration : Digest256
  validation : ValidationRequirements
  units : List Digest256
deriving DecidableEq

-- ---------------------------------------------------------------------------
-- Readers
-- ---------------------------------------------------------------------------

def readBinaryRecord : Reader BinaryIdentity := do
  let state ← readEnum
  let digest ← readDigest
  let size ← readU64
  let versionString ← readStr
  let located ← readBool
  if located then do
    let path ← readStr
    pure { state, digest, size, versionString, path }
  else pure { state, digest, size, versionString }

def readToolchainRecord : Reader ToolchainIdentity := do
  readDomain (txt "dc.toolchain.v1")
  let family ← readEnum
  let versionString ← readStr
  let versionMajor ← readU32
  let versionMinor ← readU32
  let versionPatch ← readU32
  let compiler ← readBinaryRecord
  let linker ← readBinaryRecord
  let assembler ← readBinaryRecord
  let runtimeLibrary ← readBinaryRecord
  let sdk ← readItems readSdk
  let plugins ← readItems readPlugin
  let targetLibraries ← readStringList
  let configuration ← readItems readPair
  let evidence ← readEnum
  pure {
    family, versionString, versionMajor, versionMinor, versionPatch, compiler, linker, assembler,
    runtimeLibrary, sdk, plugins, targetLibraries, configuration, evidence }

def readTargetRecord : Reader TargetIdentity := do
  readDomain (txt "dc.target.v1")
  let os ← readEnum
  let arch ← readEnum
  let abi ← readEnum
  let triple ← readStr
  let objectFormat ← readEnum
  let stdlib ← readEnum
  let runtimeAbi ← readStr
  let vendor ← readEnum
  let architecture ← readStr
  let computeMajor ← readU32
  let computeMinor ← readU32
  let isa ← readStr
  let deviceRuntime ← readStr
  pure {
    os, arch, abi, triple, objectFormat, stdlib, runtimeAbi
    accelerator := { vendor, architecture, computeMajor, computeMinor, isa, deviceRuntime } }

def readSpecFieldRecord : Reader SpecField := do
  let name ← readStr
  let kind : SpecValueKind ← readEnum
  match kind with
  | .signed => do
    let signedValue ← readI64
    pure { name, kind, signedValue }
  | .unsigned => do
    let unsignedValue ← readU64
    pure { name, kind, unsignedValue }
  | .floating => do
    let floatingValue ← readF64
    pure { name, kind, floatingValue }
  | .text => do
    let textValue ← readStr
    pure { name, kind, textValue }
  | .boolean => do
    let booleanValue ← readBool
    pure { name, kind, booleanValue }

def readSpecRecord : Reader SpecializationSpec := do
  readDomain (txt "dc.specialization.v1")
  let fields ← readItems readSpecFieldRecord
  pure { fields }

def readPolicyRecord : Reader CompilePolicy := do
  readDomain (txt "dc.policy.v1")
  let profile ← readStr
  let reproducibility ← readEnum
  let cache ← readEnum
  let flagOrderSignificant ← readBool
  let requireExactGeneration ← readBool
  let negativeCacheEnabled ← readBool
  let negativeCacheMaxEntries ← readU32
  let allowSpeculativeDuplication ← readBool
  let maxAttemptsPerUnit ← readU32
  let requireTrustedWorkers ← readBool
  let requireProvableToolchain ← readBool
  pure {
    profile, reproducibility, cache, flagOrderSignificant, requireExactGeneration,
    negativeCacheEnabled, negativeCacheMaxEntries, allowSpeculativeDuplication, maxAttemptsPerUnit,
    requireTrustedWorkers, requireProvableToolchain }

def readContractRecord : Reader EnvironmentContract := do
  readDomain (txt "dc.environment.v1")
  let deterministic ← readBool
  let inheritProcessEnvironment ← readBool
  let vars ← readItems readPair
  pure { vars, deterministic, inheritProcessEnvironment }

def readDependencySetRecord : Reader DependencySet := do
  readDomain (txt "dc.dependency-set.v1")
  let entries ← readItems readDependencyEntry
  pure { entries }

def readRequestRecord : Reader RequestBody := do
  readDomain (txt "dc.request.v1")
  let toolchain ← readDigest
  let target ← readDigest
  let specialization ← readDigest
  let policy ← readDigest
  let dependencySet ← readDigest
  let environment ← readDigest
  let flags ← readStringList
  let authorityGeneration ← readDigest
  let requireFormatCheck ← readBool
  let requireDigestCheck ← readBool
  let requireTargetMetadata ← readBool
  let requireDependencyMetadata ← readBool
  let requireSmokeTest ← readBool
  let smokeExpectedStdout ← readStr
  let smokeTimeoutMs ← readU32
  let units ← readItems readDigest
  pure {
    toolchain, target, specialization, policy, dependencySet, environment, flags, authorityGeneration
    validation := {
      requireFormatCheck, requireDigestCheck, requireTargetMetadata, requireDependencyMetadata,
      requireSmokeTest, smokeExpectedStdout, smokeTimeoutMs }
    units }

-- ---------------------------------------------------------------------------
-- What is written is read back
-- ---------------------------------------------------------------------------

theorem parse_readBinaryRecord (v : BinaryIdentity) (rest : Bytes)
    (h : (writeBinaryIdentity v).eachFits = true) :
    readBinaryRecord.parse ((writeBinaryIdentity v).bytes ++ rest) = some (v.written, rest) := by
  simp only [writeBinaryIdentity, Record.join_cons, Record.join_nil, Record.eachFits_append,
    Record.eachFits_cons, Bool.and_eq_true] at h
  obtain ⟨hhead, hpath, -⟩ := h
  simp only [readBinaryRecord, writeBinaryIdentity, Record.join_cons, Record.join_nil, Record.bytes_append,
    Record.bytes_cons, Record.bytes_nil, List.append_assoc, List.nil_append, parse_readEnum,
    parse_readDigest, parse_readU64, parse_readStr, hhead]
  by_cases hstate : v.state ≠ .known
  · rw [if_pos hstate] at hpath ⊢
    simp only [Record.eachFits_cons, Bool.and_eq_true] at hpath
    simp only [Record.bytes_cons, Record.bytes_nil, List.append_assoc, List.nil_append, parse_readBool,
      if_true, parse_readStr, hpath, parse_pure, BinaryIdentity.written, if_pos hstate]
  · rw [if_neg hstate]
    simp only [Record.bytes_cons, Record.bytes_nil, List.append_assoc, List.nil_append, parse_readBool,
      Bool.false_eq_true, if_false, parse_pure, BinaryIdentity.written, if_neg hstate]

theorem parse_readToolchainRecord (v : ToolchainIdentity) (rest : Bytes)
    (h : (toolchainRecord v).eachFits = true) :
    readToolchainRecord.parse ((toolchainRecord v).bytes ++ rest) = some (v.written, rest) := by
  simp only [toolchainRecord, Record.join_cons, Record.join_nil, Record.eachFits_append,
    Record.eachFits_cons, Bool.and_eq_true] at h
  obtain ⟨hhead, hcompiler, hlinker, hassembler, hruntime, hsdk, hplugins, hlibs, hconfig, -⟩ := h
  simp only [readToolchainRecord, toolchainRecord, Record.join_cons, Record.join_nil, Record.bytes_append,
    Record.bytes_cons, Record.bytes_nil, List.append_assoc, List.nil_append, parse_readDomain,
    parse_readEnum, parse_readStr, parse_readU32, hhead,
    parse_bind_of_parse (parse_readBinaryRecord _ _ hcompiler),
    parse_bind_of_parse (parse_readBinaryRecord _ _ hlinker),
    parse_bind_of_parse (parse_readBinaryRecord _ _ hassembler),
    parse_bind_of_parse (parse_readBinaryRecord _ _ hruntime), parse_readSdks _ _ _ hsdk,
    parse_readPlugins _ _ _ hplugins, parse_readStringList _ _ _ hlibs, parse_readPairs _ _ _ hconfig,
    parse_pure]
  rfl

theorem parse_readTargetRecord (v : TargetIdentity) (rest : Bytes)
    (h : (targetRecord v).eachFits = true) :
    readTargetRecord.parse ((targetRecord v).bytes ++ rest) = some (v.written, rest) := by
  simp only [targetRecord, writeAccelerator, Record.join_cons, Record.join_nil, Record.eachFits_append,
    Record.eachFits_cons, Bool.and_eq_true] at h
  simp only [readTargetRecord, targetRecord, writeAccelerator, Record.join_cons, Record.join_nil,
    Record.bytes_append, Record.bytes_cons, Record.bytes_nil, List.append_assoc, List.nil_append,
    parse_readDomain, parse_readEnum, parse_readStr, parse_readU32, h, parse_pure]
  rfl

theorem parse_readSpecFieldRecord (v : SpecField) (rest : Bytes) (h : (writeSpecField v).eachFits = true) :
    readSpecFieldRecord.parse ((writeSpecField v).bytes ++ rest) = some (v.written, rest) := by
  simp only [writeSpecField, Record.join_cons, Record.join_nil, Record.eachFits_append,
    Record.eachFits_cons, Bool.and_eq_true] at h
  obtain ⟨hhead, hvalue, -⟩ := h
  simp only [readSpecFieldRecord, writeSpecField, Record.join_cons, Record.join_nil, Record.bytes_append,
    Record.bytes_cons, Record.bytes_nil, List.append_assoc, List.nil_append, parse_readStr,
    parse_readEnum, hhead]
  unfold SpecField.written
  cases hkind : v.kind with
  | text =>
    rw [hkind] at hvalue
    simp only [Record.eachFits_cons, Bool.and_eq_true] at hvalue
    simp only [Record.bytes_cons, Record.bytes_nil, List.append_assoc, List.nil_append,
      parse_readStr, hvalue, parse_pure]
  | signed | unsigned | floating | boolean =>
    simp only [Record.bytes_cons, Record.bytes_nil, List.append_assoc, List.nil_append,
      parse_readI64, parse_readU64, parse_readF64, parse_readBool, parse_pure]

/-- Items that are read back as their images. -/
theorem parse_mappedItems {α β : Type} {d : Reader α} {write : α → Record} {image : α → α} (items : List α)
    (f : List α → Reader β) (rest : Bytes) (h : (writeList items write).eachFits = true)
    (hd : ∀ x, (write x).eachFits = true → ∀ rest,
      d.parse ((write x).bytes ++ rest) = some (image x, rest)) :
    (readItems d >>= f).parse ((writeList items write).bytes ++ rest) =
      (f (items.map image)).parse rest := by
  simp only [writeList, Record.eachFits_cons, Record.eachFits_flatMap, Bool.and_eq_true,
    List.all_eq_true] at h
  have all : items.mapM (fun x => some (image x)) = some (items.map image) := List.mapM_pure
  refine (parse_readItems_mapM (fun x => some (image x)) items f h.1
    fun x hx rest => hd x (h.2 x hx) rest).trans ?_
  rw [all, Option.bind_some]

theorem parse_readSpecRecord (v : SpecializationSpec) (rest : Bytes)
    (h : (specializationRecord v).eachFits = true) :
    readSpecRecord.parse ((specializationRecord v).bytes ++ rest) = some (v.written, rest) := by
  simp only [specializationRecord, Record.eachFits_cons, Bool.and_eq_true] at h
  rw [readSpecRecord, specializationRecord, Record.bytes_cons, List.append_assoc, parse_readDomain _ h.1,
    parse_mappedItems _ _ _ h.2 fun x hx rest => parse_readSpecFieldRecord x rest hx, parse_pure]
  rfl

theorem parse_readPolicyRecord (v : CompilePolicy) (rest : Bytes) (h : (policyRecord v).eachFits = true) :
    readPolicyRecord.parse ((policyRecord v).bytes ++ rest) = some (v.written, rest) := by
  simp only [policyRecord, Record.eachFits_cons, Bool.and_eq_true] at h
  simp only [readPolicyRecord, policyRecord, Record.bytes_cons, Record.bytes_nil, List.append_assoc,
    List.nil_append, parse_readDomain, parse_readStr, parse_readEnum, parse_readBool, parse_readU32, h,
    parse_pure]
  rfl

theorem parse_readContractRecord (v : EnvironmentContract) (rest : Bytes)
    (h : (environmentRecord v).eachFits = true) :
    readContractRecord.parse ((environmentRecord v).bytes ++ rest) = some (v, rest) := by
  simp only [environmentRecord, Record.eachFits_cons, Bool.and_eq_true] at h
  simp only [readContractRecord, environmentRecord, Record.bytes_cons, List.append_assoc,
    parse_readDomain _ h.1, parse_readBool, parse_readPairs _ _ _ h.2.2.2, parse_pure]

theorem parse_readDependencySetRecord (v : DependencySet) (rest : Bytes)
    (h : (dependencySetRecord v).eachFits = true) :
    readDependencySetRecord.parse ((dependencySetRecord v).bytes ++ rest) = some (v.written, rest) := by
  simp only [dependencySetRecord, Record.eachFits_cons, Bool.and_eq_true] at h
  rw [readDependencySetRecord, dependencySetRecord, Record.bytes_cons, List.append_assoc,
    parse_readDomain _ h.1, parse_readDependencyEntries _ _ _ h.2, parse_pure]
  rfl

section

variable [HashFunction]

/-- What the record of a request is about. -/
def requestBody (request : CompilationRequest) : RequestBody where
  toolchain := request.toolchain.identityDigest
  target := request.target.identityDigest
  specialization := request.specialization.identityDigest
  policy := request.policy.identityDigest
  dependencySet := request.dependencies.identityDigest
  environment := computeEnvironmentIdentity request.environment
  flags := request.flags
  authorityGeneration := request.authorityGeneration
  validation := request.validation
  units := request.units.map (·.identityDigest)

theorem parse_readRequestRecord (request : CompilationRequest) (rest : Bytes)
    (h : (requestRecord request).eachFits = true) :
    readRequestRecord.parse ((requestRecord request).bytes ++ rest) =
      some (requestBody request, rest) := by
  have units : (writeList request.units fun unit => [.digest unit.identityDigest]) =
      writeList (request.units.map (·.identityDigest)) fun digest => [.digest digest] := by
    rw [writeList, writeList, List.flatMap_map, Field.count, Field.count, List.length_map]
  have digest (x : Digest256) (_ : Record.eachFits [.digest x] = true) (rest : Bytes) :
      readDigest.parse (Record.bytes [.digest x] ++ rest) = some (x, rest) := by
    rw [Record.bytes_singleton]
    exact parse_of_run (run_readDigest x)
  simp only [requestRecord, units, Record.join_cons, Record.join_nil, Record.eachFits_append,
    Record.eachFits_cons, Bool.and_eq_true] at h
  obtain ⟨hhead, hflags, hvalidation, hunits, -⟩ := h
  simp only [readRequestRecord, requestRecord, units, Record.join_cons, Record.join_nil,
    Record.bytes_append, Record.bytes_cons, Record.bytes_nil, List.append_assoc, List.nil_append,
    parse_readDomain, parse_readDigest, hhead, parse_readStringList _ _ _ hflags, parse_readBool,
    parse_readStr, parse_readU32, hvalidation, parse_plainItems _ _ _ hunits digest, parse_pure]
  rfl

-- ---------------------------------------------------------------------------
-- Descriptors
-- ---------------------------------------------------------------------------

/-- What an identity is computed of. -/
inductive Descriptor
  | toolchain (value : ToolchainIdentity)
  | target (value : TargetIdentity)
  | specialization (value : SpecializationSpec)
  | policy (value : CompilePolicy)
  | environment (value : EnvironmentContract)
  | dependencySet (value : DependencySet)
  | unit (owner : CompilationRequest) (value : CompilationUnitSpec)
  | request (value : CompilationRequest)

/-- What the record of a descriptor is about, under its domain. -/
inductive Description
  | toolchain (value : ToolchainIdentity)
  | target (value : TargetIdentity)
  | specialization (value : SpecializationSpec)
  | policy (value : CompilePolicy)
  | environment (value : EnvironmentContract)
  | dependencySet (value : DependencySet)
  | unit (body : UnitBody)
  | request (body : RequestBody)
deriving DecidableEq

/-- The functions that compute identities, each with its domain. -/
inductive Domain
  | toolchain | target | specialization | policy | environment | dependencySet | unit | request

namespace Domain

/-- The tag its records begin with. -/
def tag : Domain → Bytes
  | toolchain => txt "dc.toolchain.v1"
  | target => txt "dc.target.v1"
  | specialization => txt "dc.specialization.v1"
  | policy => txt "dc.policy.v1"
  | environment => txt "dc.environment.v1"
  | dependencySet => txt "dc.dependency-set.v1"
  | unit => txt "dc.unit.v1"
  | request => txt "dc.request.v1"

/-- Reads back what is written under the tag. -/
def reader : Domain → Reader Description
  | toolchain => readToolchainRecord >>= fun value => pure (.toolchain value)
  | target => readTargetRecord >>= fun value => pure (.target value)
  | specialization => readSpecRecord >>= fun value => pure (.specialization value)
  | policy => readPolicyRecord >>= fun value => pure (.policy value)
  | environment => readContractRecord >>= fun value => pure (.environment value)
  | dependencySet => readDependencySetRecord >>= fun value => pure (.dependencySet value)
  | unit => readUnitRecord >>= fun body => pure (.unit body)
  | request => readRequestRecord >>= fun body => pure (.request body)

theorem length_tag (d : Domain) : d.tag.length < 256 := by
  cases d with
  | _ => decide

theorem tag_injective {d d' : Domain} (h : d.tag = d'.tag) : d = d' := by
  cases d with
  | _ =>
    cases d' with
    | _ => first | rfl | exact absurd h (by decide)

end Domain

namespace Descriptor

def record : Descriptor → Record
  | toolchain value => toolchainRecord value
  | target value => targetRecord value
  | specialization value => specializationRecord value
  | policy value => policyRecord value
  | environment value => environmentRecord value
  | dependencySet value => dependencySetRecord value
  | unit owner value => unitRecord owner value
  | request value => requestRecord value

def written : Descriptor → Description
  | toolchain value => .toolchain value.written
  | target value => .target value.written
  | specialization value => .specialization value.written
  | policy value => .policy value.written
  | environment value => .environment value
  | dependencySet value => .dependencySet value.written
  | unit owner value => .unit (unitBody owner value)
  | request value => .request (requestBody value)

def domain : Descriptor → Domain
  | toolchain _ => .toolchain
  | target _ => .target
  | specialization _ => .specialization
  | policy _ => .policy
  | environment _ => .environment
  | dependencySet _ => .dependencySet
  | unit _ _ => .unit
  | request _ => .request

theorem parse_reader (d : Descriptor) (rest : Bytes) (h : d.record.eachFits = true) :
    d.domain.reader.parse (d.record.bytes ++ rest) = some (d.written, rest) := by
  cases d with
  | toolchain value => exact parse_bind_of_parse (parse_readToolchainRecord value rest h)
  | target value => exact parse_bind_of_parse (parse_readTargetRecord value rest h)
  | specialization value => exact parse_bind_of_parse (parse_readSpecRecord value rest h)
  | policy value => exact parse_bind_of_parse (parse_readPolicyRecord value rest h)
  | environment value => exact parse_bind_of_parse (parse_readContractRecord value rest h)
  | dependencySet value => exact parse_bind_of_parse (parse_readDependencySetRecord value rest h)
  | unit owner value => exact parse_bind_of_parse (parse_readUnitRecord owner value rest h)
  | request value => exact parse_bind_of_parse (parse_readRequestRecord value rest h)

/-- Every record begins with its tag. -/
theorem record_eq (d : Descriptor) : ∃ body : Record, d.record = .domain d.domain.tag :: body := by
  cases d with
  | _ => exact ⟨_, rfl⟩

/-- Equal bytes begin with the same tag. -/
theorem domain_eq_of_bytes {d d' : Descriptor} (h : d.record.bytes = d'.record.bytes) :
    d.domain = d'.domain := by
  obtain ⟨body, hbody⟩ := d.record_eq
  obtain ⟨body', hbody'⟩ := d'.record_eq
  rw [hbody, hbody', Record.bytes_cons, Record.bytes_cons, Field.bytes, Field.bytes, List.cons_append,
    List.cons_append, List.cons.injEq] at h
  obtain ⟨hlength, hbytes⟩ := h
  have hlengths : d.domain.tag.length = d'.domain.tag.length := by
    have hsmall := d.domain.length_tag
    have hsmall' := d'.domain.length_tag
    have hnat := congrArg UInt8.toNat hlength
    rw [UInt8.toNat_ofNat', UInt8.toNat_ofNat'] at hnat
    omega
  exact Domain.tag_injective (List.append_inj hbytes hlengths).1

/-- Within the limits of the writer, equal canonical bytes are of the same function and
were written from the same values. -/
theorem written_eq_of_bytes {d d' : Descriptor} (fits : d.record.fits = true) (fits' : d'.record.fits = true)
    (h : d.record.bytes = d'.record.bytes) : d.written = d'.written := by
  have hread := d.parse_reader [] (Record.eachFits_of_fits fits)
  have hread' := d'.parse_reader [] (Record.eachFits_of_fits fits')
  rw [h, domain_eq_of_bytes h, hread'] at hread
  exact (Prod.mk.inj (Option.some.inj hread)).1.symm

end Descriptor

end

theorem written_eq_of_bytes_policies :
    (Descriptor.policy {}).written = (Descriptor.policy { id := ⟨7⟩ }).written :=
  Descriptor.written_eq_of_bytes (by decide) (by decide) rfl

end DistributedCompilation
