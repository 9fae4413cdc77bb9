import DistributedCompilation.Codec.RequestCodec

/-!
# Distributed Compilation — what comes back of a stored request

The decoders of requests and capabilities canonicalize what they read, so the
value that comes back is not read off the bytes alone. `reread…` is that value
as a function of the one that was written, `none` where the decoder refuses;
`parse_decode…` connects the two.
-/

namespace DistributedCompilation

open Reader Decoder

theorem Record.bytes_singleton (f : Field) : Record.bytes [f] = f.bytes := by
  rw [Record.bytes_cons, Record.bytes_nil, List.append_nil]

theorem parse_decodeContentRef (v : ContentRef) (rest : Bytes) :
    decodeContentRef.parse ((writeContentRef v).bytes ++ rest) = some (v, rest) := by
  simp only [decodeContentRef, writeContentRef, Record.bytes_cons, Record.bytes_nil,
    List.append_assoc, List.nil_append, parse_readDigest, parse_readU64, parse_pure]

theorem parse_contentRef_bind {β : Type} (v : ContentRef) (f : ContentRef → Reader β)
    (rest : Bytes) :
    (decodeContentRef >>= f).parse ((writeContentRef v).bytes ++ rest) = (f v).parse rest :=
  parse_bind_of_parse (parse_decodeContentRef v rest)

theorem map_ite {α β : Type} (g : α → β) (c : Prop) [Decidable c] (a b : Option α) :
    (if c then a else b).map g = if c then a.map g else b.map g := apply_ite ..

/-- A written list of 32-bit numbers. -/
theorem parse_readU32s {β : Type} (ns : List UInt32) (f : List UInt32 → Reader β) (rest : Bytes)
    (h : (writeList ns fun n => [.u32 n]).eachFits = true) :
    (readItems readU32 >>= f).parse ((writeList ns fun n => [.u32 n]).bytes ++ rest) =
      (f ns).parse rest := by
  simp only [writeList, Record.eachFits_cons, Bool.and_eq_true] at h
  refine (parse_readItems (fun _ => True) ns f h.1 fun n _ rest => ?_).trans (by simp)
  rw [Record.bytes_singleton, if_pos trivial]
  exact parse_of_run (run_readU32 n)

/-- A list whose items read back as they were written. -/
theorem parse_plainItems {α β : Type} {d : Reader α} {write : α → Record} (items : List α)
    (f : List α → Reader β) (rest : Bytes) (h : (writeList items write).eachFits = true)
    (hd : ∀ x, (write x).eachFits = true → ∀ rest,
      d.parse ((write x).bytes ++ rest) = some (x, rest)) :
    (readItems d >>= f).parse ((writeList items write).bytes ++ rest) = (f items).parse rest := by
  simp only [writeList, Record.eachFits_cons, Record.eachFits_flatMap, Bool.and_eq_true,
    List.all_eq_true] at h
  refine (parse_readItems (fun _ => True) items f h.1 fun x hx rest => ?_).trans (by simp)
  rw [if_pos trivial, hd x (h.2 x hx)]

theorem parse_readStringList {β : Type} (items : List Bytes) (f : List Bytes → Reader β)
    (rest : Bytes) (h : (writeStringList items).eachFits = true) :
    (readStringList >>= f).parse ((writeStringList items).bytes ++ rest) = (f items).parse rest := by
  refine parse_plainItems items f rest h fun x hx rest => ?_
  simp only [Record.eachFits_cons, Bool.and_eq_true] at hx
  rw [Record.bytes_singleton]
  exact parse_of_run (run_readStr x hx.1)

theorem parse_readPairs {β : Type} (pairs : List (Bytes × Bytes))
    (f : List (Bytes × Bytes) → Reader β) (rest : Bytes) (h : (writePairs pairs).eachFits = true) :
    (readItems readPair >>= f).parse ((writePairs pairs).bytes ++ rest) = (f pairs).parse rest := by
  refine parse_plainItems pairs f rest h fun x hx rest => ?_
  simp only [Record.eachFits_cons, Bool.and_eq_true] at hx
  simp only [readPair, Record.bytes_cons, Record.bytes_nil, List.append_assoc, List.nil_append,
    parse_readStr, hx, parse_pure]

theorem parse_readSdks {β : Type} (items : List SdkComponent) (f : List SdkComponent → Reader β)
    (rest : Bytes) (h : (writeList items writeSdk).eachFits = true) :
    (readItems readSdk >>= f).parse ((writeList items writeSdk).bytes ++ rest) =
      (f (items.map fun x => { name := x.name, version := x.version })).parse rest := by
  simp only [writeList, Record.eachFits_cons, Record.eachFits_flatMap, Bool.and_eq_true,
    List.all_eq_true] at h
  let bare : SdkComponent → SdkComponent := fun x => { name := x.name, version := x.version }
  have all : items.mapM (fun x => some (bare x)) = some (items.map bare) := List.mapM_pure
  refine (parse_readItems_mapM (fun x => some (bare x)) items f h.1
    fun x hx rest => ?_).trans ?_
  · have hx := h.2 x hx
    simp only [writeSdk, Record.eachFits_cons, Bool.and_eq_true] at hx
    simp only [readSdk, writeSdk, Record.bytes_cons, Record.bytes_nil, List.append_assoc,
      List.nil_append, parse_readStr, hx, parse_pure, Option.map_some, bare]
  · rw [all, Option.bind_some]

theorem parse_readPlugins {β : Type} (items : List PluginIdentity)
    (f : List PluginIdentity → Reader β) (rest : Bytes)
    (h : (writeList items writePlugin).eachFits = true) :
    (readItems readPlugin >>= f).parse ((writeList items writePlugin).bytes ++ rest) =
      (f items).parse rest := by
  refine parse_plainItems items f rest h fun x hx rest => ?_
  simp only [writePlugin, Record.eachFits_cons, Bool.and_eq_true] at hx
  simp only [readPlugin, writePlugin, Record.bytes_cons, Record.bytes_nil, List.append_assoc,
    List.nil_append, parse_readStr, parse_readDigest, hx, parse_pure]

-- ---------------------------------------------------------------------------
-- Toolchains and targets
-- ---------------------------------------------------------------------------

/-- What `decode_binary_identity` demands of a stored binary. -/
abbrev BinaryIdentity.Acceptable (v : BinaryIdentity) : Prop :=
  ¬(v.state = .known ∧ v.digest.isZero = true)

theorem parse_decodeBinaryIdentity (v : BinaryIdentity) (rest : Bytes)
    (h : (encodeBinaryIdentity v).eachFits = true) :
    decodeBinaryIdentity.parse ((encodeBinaryIdentity v).bytes ++ rest) =
      if v.Acceptable then some (v, rest) else none := by
  simp only [encodeBinaryIdentity, Record.eachFits_cons, Bool.and_eq_true] at h
  simp only [encodeBinaryIdentity, decodeBinaryIdentity, Record.bytes_cons, Record.bytes_nil,
    List.append_assoc, List.nil_append, parse_readEnum, parse_readDigest, parse_readU64,
    parse_readStr, h, parse_ite, parse_refused, parse_pure, BinaryIdentity.Acceptable, ite_not]

/-- The install roots of the SDK components are not carried. -/
def ToolchainIdentity.carried (v : ToolchainIdentity) : ToolchainIdentity :=
  { v with sdk := v.sdk.map fun x => { name := x.name, version := x.version } }

variable [HashFunction]

def rereadToolchain (v : ToolchainIdentity) : Option ToolchainIdentity :=
  if v.id.isZero = false ∧ v.compiler.Acceptable ∧ v.linker.Acceptable ∧ v.assembler.Acceptable ∧
      v.runtimeLibrary.Acceptable then
    if v.identityDigest = (canonicalizeToolchain v.carried).identityDigest then
      some (canonicalizeToolchain v.carried)
    else none
  else none

theorem parse_decodeToolchain (v : ToolchainIdentity) (rest : Bytes)
    (h : (encodeToolchain v).eachFits = true) :
    decodeToolchain.parse ((encodeToolchain v).bytes ++ rest) =
      (rereadToolchain v).map (·, rest) := by
  simp only [encodeToolchain, Record.join_cons, Record.join_nil, Record.eachFits_append,
    Record.eachFits_cons, Bool.and_eq_true] at h
  obtain ⟨hhead, hcompiler, hlinker, hassembler, hruntime, hsdk, hplugins, hlibs, hconfig, htail,
    -⟩ := h
  simp only [encodeToolchain, decodeToolchain, Record.join_cons, Record.join_nil,
    Record.bytes_append, Record.bytes_cons, Record.bytes_nil, List.append_assoc, List.nil_append,
    parse_readId, parse_readGen, parse_readEnum, parse_readU32, parse_readStr, parse_readDigest,
    parse_readOptionalId, parse_bind_of_guard (parse_decodeBinaryIdentity _ _ hcompiler),
    parse_bind_of_guard (parse_decodeBinaryIdentity _ _ hlinker),
    parse_bind_of_guard (parse_decodeBinaryIdentity _ _ hassembler),
    parse_bind_of_guard (parse_decodeBinaryIdentity _ _ hruntime), parse_readSdks _ _ _ hsdk,
    parse_readPlugins _ _ _ hplugins, parse_readStringList _ _ _ hlibs,
    parse_readPairs _ _ _ hconfig, hhead, htail, parse_ite, parse_refused, parse_pure,
    rereadToolchain, ite_and, map_ite, Option.map_none, Option.map_some]
  rfl

def rereadTarget (v : TargetIdentity) : Option TargetIdentity :=
  if v.id.isZero = false ∧ v.identityDigest = computeTargetIdentity v ∧ v.id = deriveTargetId v then
    some v
  else none

theorem parse_decodeTarget (v : TargetIdentity) (rest : Bytes)
    (h : (encodeTarget v).eachFits = true) :
    decodeTarget.parse ((encodeTarget v).bytes ++ rest) = (rereadTarget v).map (·, rest) := by
  simp only [encodeTarget, Record.eachFits_cons, Bool.and_eq_true] at h
  simp only [encodeTarget, decodeTarget, Record.bytes_cons, Record.bytes_nil, List.append_assoc,
    List.nil_append, parse_readId, parse_readGen, parse_readEnum, parse_readU32, parse_readStr,
    parse_readDigest, h, parse_ite, parse_refused, parse_pure, rereadTarget]
  by_cases hid : v.id.isZero = false
  · by_cases hc : v.identityDigest = computeTargetIdentity v ∧ v.id = deriveTargetId v
    · rw [if_pos hid, if_pos hc, if_pos ⟨hid, hc⟩, Option.map_some, ← hc.1, ← hc.2]
    · rw [if_pos hid, if_neg hc, if_neg fun h => hc h.2, Option.map_none]
  · rw [if_neg hid, if_neg fun h => hid h.1, Option.map_none]

-- ---------------------------------------------------------------------------
-- Specializations, dependencies, environments, policies
-- ---------------------------------------------------------------------------

def rereadSpecialization (v : SpecializationSpec) : Option SpecializationSpec :=
  if v.id.isZero = false then
    match canonicalizeSpecialization v with
    | .error _ => none
    | .ok v' => if v.identityDigest = v'.identityDigest then some v' else none
  else none

theorem parse_decodeSpecialization (v : SpecializationSpec) (rest : Bytes)
    (h : (encodeSpecialization v).eachFits = true) :
    decodeSpecialization.parse ((encodeSpecialization v).bytes ++ rest) =
      (rereadSpecialization v).map (·, rest) := by
  simp only [encodeSpecialization, Record.join_cons, Record.join_nil, Record.eachFits_append,
    Record.eachFits_cons, Bool.and_eq_true] at h
  obtain ⟨hhead, hfields, -⟩ := h
  have field : ∀ x, (encodeSpecField x).eachFits = true → ∀ rest,
      decodeSpecField.parse ((encodeSpecField x).bytes ++ rest) = some (x, rest) := by
    intro x hx rest
    simp only [encodeSpecField, Record.eachFits_cons, Bool.and_eq_true] at hx
    simp only [encodeSpecField, decodeSpecField, Record.bytes_cons, Record.bytes_nil,
      List.append_assoc, List.nil_append, parse_readStr, parse_readEnum, parse_readI64,
      parse_readU64, parse_readF64, parse_readBool, hx, parse_pure]
  simp only [encodeSpecialization, decodeSpecialization, Record.join_cons, Record.join_nil,
    Record.bytes_append, Record.bytes_cons, Record.bytes_nil, List.append_assoc, List.nil_append,
    parse_readId, parse_readGen, parse_plainItems _ _ _ hfields field, parse_readDigest, hhead,
    rereadSpecialization, map_ite, Option.map_none]
  split <;> [skip; rfl]
  cases canonicalizeSpecialization v with
  | error e => cases e <;> rfl
  | ok v' => simp only [parse_ite, parse_pure, parse_refused, map_ite, Option.map_some, Option.map_none]

/-- What `decode_dependency_entry` demands of a stored entry. -/
abbrev DependencyEntry.Acceptable (v : DependencyEntry) : Prop :=
  computeDependencyEntryIdentity v = v.identityDigest

theorem parse_decodeDependencyEntry (v : DependencyEntry) (rest : Bytes)
    (h : (encodeDependencyEntry v).eachFits = true) :
    decodeDependencyEntry.parse ((encodeDependencyEntry v).bytes ++ rest) =
      if v.Acceptable then some (v, rest) else none := by
  simp only [encodeDependencyEntry, Record.join_cons, Record.join_nil, Record.eachFits_append,
    Record.eachFits_cons, Bool.and_eq_true] at h
  simp only [encodeDependencyEntry, decodeDependencyEntry, Record.join_cons, Record.join_nil,
    Record.bytes_append, Record.bytes_cons, Record.bytes_nil, List.append_assoc, List.nil_append,
    parse_readStr, parse_readEnum, parse_contentRef_bind, parse_readDigest, h, parse_ite,
    parse_pure, parse_refused]

theorem parse_dependencyEntries {β : Type} (items : List DependencyEntry)
    (f : List DependencyEntry → Reader β) (rest : Bytes)
    (h : (writeList items encodeDependencyEntry).eachFits = true) :
    (readItems decodeDependencyEntry >>= f).parse
        ((writeList items encodeDependencyEntry).bytes ++ rest) =
      if ∀ x ∈ items, x.Acceptable then (f items).parse rest else none := by
  simp only [writeList, Record.eachFits_cons, Record.eachFits_flatMap, Bool.and_eq_true,
    List.all_eq_true] at h
  exact parse_readItems DependencyEntry.Acceptable items f h.1 fun x hx rest => parse_decodeDependencyEntry x rest (h.2 x hx)

def rereadDependencySet (v : DependencySet) : Option DependencySet :=
  if v.id.isZero = false ∧ (∀ x ∈ v.entries, x.Acceptable) ∧
      v.identityDigest = (canonicalizeDependencySet v).identityDigest then
    some (canonicalizeDependencySet v)
  else none

theorem parse_decodeDependencySet (v : DependencySet) (rest : Bytes)
    (h : (encodeDependencySet v).eachFits = true) :
    decodeDependencySet.parse ((encodeDependencySet v).bytes ++ rest) =
      (rereadDependencySet v).map (·, rest) := by
  simp only [encodeDependencySet, Record.join_cons, Record.join_nil, Record.eachFits_append,
    Record.eachFits_cons, Bool.and_eq_true] at h
  obtain ⟨hhead, hentries, -⟩ := h
  simp only [encodeDependencySet, decodeDependencySet, Record.join_cons, Record.join_nil,
    Record.bytes_append, Record.bytes_cons, Record.bytes_nil, List.append_assoc, List.nil_append,
    parse_readId, parse_readGen, parse_dependencyEntries _ _ _ hentries, parse_readDigest, hhead,
    parse_ite, parse_pure, parse_refused, rereadDependencySet, ite_and, map_ite, Option.map_some,
    Option.map_none]

omit [HashFunction] in
theorem parse_decodeEnvironment (v : EnvironmentContract) (rest : Bytes)
    (h : (encodeEnvironment v).eachFits = true) :
    decodeEnvironment.parse ((encodeEnvironment v).bytes ++ rest) =
      some (canonicalizeEnvironment v, rest) := by
  simp only [encodeEnvironment, Record.join_cons, Record.join_nil, Record.eachFits_append,
    Bool.and_eq_true] at h
  simp only [encodeEnvironment, decodeEnvironment, Record.join_cons, Record.join_nil,
    Record.bytes_append, Record.bytes_cons, Record.bytes_nil, List.append_assoc, List.nil_append,
    parse_readPairs _ _ _ h.1, parse_readBool, parse_pure]

/-- What `decode_validation_requirements` demands. -/
abbrev ValidationRequirements.Acceptable (v : ValidationRequirements) : Prop :=
  ¬(v.smokeTimeoutMs = 0 ∨ 3600000 < v.smokeTimeoutMs)

omit [HashFunction] in
theorem parse_decodeValidationRequirements (v : ValidationRequirements) (rest : Bytes)
    (h : (encodeValidationRequirements v).eachFits = true) :
    decodeValidationRequirements.parse ((encodeValidationRequirements v).bytes ++ rest) =
      if v.Acceptable then some (v, rest) else none := by
  simp only [encodeValidationRequirements, Record.eachFits_cons, Bool.and_eq_true] at h
  simp only [encodeValidationRequirements, decodeValidationRequirements, Record.bytes_cons,
    Record.bytes_nil, List.append_assoc, List.nil_append, parse_readBool, parse_readStr,
    parse_readU32, h, parse_ite, parse_refused, parse_pure, ite_not]

def rereadPolicy (v : CompilePolicy) : Option CompilePolicy :=
  if v.id.isZero = false ∧ ¬(v.maxAttemptsPerUnit = 0 ∨ 64 < v.maxAttemptsPerUnit) ∧
      ¬4096 < v.negativeCacheMaxEntries ∧ v.identityDigest = computePolicyIdentity v then
    some { v with id := derivePolicyId v, identityDigest := computePolicyIdentity v }
  else none

theorem parse_decodePolicy (v : CompilePolicy) (rest : Bytes)
    (h : (encodePolicy v).eachFits = true) :
    decodePolicy.parse ((encodePolicy v).bytes ++ rest) = (rereadPolicy v).map (·, rest) := by
  simp only [encodePolicy, Record.eachFits_cons, Bool.and_eq_true] at h
  simp only [encodePolicy, decodePolicy, Record.bytes_cons, Record.bytes_nil, List.append_assoc,
    List.nil_append, parse_readId, parse_readGen, parse_readStr, parse_readEnum, parse_readBool,
    parse_readU32, parse_readDigest, h, parse_ite, parse_refused, parse_pure, rereadPolicy, ite_and,
    ite_not, map_ite, Option.map_some, Option.map_none]

-- ---------------------------------------------------------------------------
-- Units and requests
-- ---------------------------------------------------------------------------

/-- The identity digests of the sources are not carried. -/
def CompilationUnitSpec.carried (v : CompilationUnitSpec) : CompilationUnitSpec :=
  { v with sources := v.sources.map fun s => { s with identityDigest := default } }

omit [HashFunction] in
theorem parse_unitSources {β : Type} (items : List UnitSource) (f : List UnitSource → Reader β)
    (rest : Bytes) (h : (writeList items encodeUnitSource).eachFits = true) :
    (readItems decodeUnitSource >>= f).parse ((writeList items encodeUnitSource).bytes ++ rest) =
      (f (items.map fun s => { s with identityDigest := default })).parse rest := by
  simp only [writeList, Record.eachFits_cons, Record.eachFits_flatMap, Bool.and_eq_true,
    List.all_eq_true] at h
  let bare : UnitSource → UnitSource := fun s => { s with identityDigest := default }
  have all : items.mapM (fun x => some (bare x)) = some (items.map bare) := List.mapM_pure
  refine (parse_readItems_mapM (fun x => some (bare x)) items f h.1
    fun x hx rest => ?_).trans ?_
  · have hx := h.2 x hx
    simp only [encodeUnitSource, Record.eachFits_cons, Bool.and_eq_true] at hx
    simp only [decodeUnitSource, encodeUnitSource, Record.bytes_cons, List.append_assoc,
      parse_readStr, parse_readEnum, parse_contentRef_bind, hx, parse_pure, Option.map_some, bare]
  · rw [all, Option.bind_some]

def rereadUnitSpec (v : CompilationUnitSpec) : Option CompilationUnitSpec :=
  if ∀ x ∈ v.dependencies, x.Acceptable then some v.carried else none

theorem parse_decodeUnitSpec (v : CompilationUnitSpec) (rest : Bytes)
    (h : (encodeUnitSpec v).eachFits = true) :
    decodeUnitSpec.parse ((encodeUnitSpec v).bytes ++ rest) =
      (rereadUnitSpec v).map (·, rest) := by
  simp only [encodeUnitSpec, Record.join_cons, Record.join_nil, Record.eachFits_append,
    Record.eachFits_cons, Bool.and_eq_true] at h
  obtain ⟨hhead, hsources, hdeps, hflags, -, hchildren, -⟩ := h
  simp only [encodeUnitSpec, decodeUnitSpec, Record.join_cons, Record.join_nil,
    Record.bytes_append, Record.bytes_cons, Record.bytes_nil, List.append_assoc, List.nil_append,
    parse_readU32, parse_readStr, parse_readEnum, parse_unitSources _ _ _ hsources,
    parse_dependencyEntries _ _ _ hdeps, parse_readStringList _ _ _ hflags,
    parse_readU32s _ _ _ hchildren, parse_readBool, parse_readDigest, hhead, parse_pure,
    rereadUnitSpec, CompilationUnitSpec.carried, map_ite, Option.map_some, Option.map_none]

/-- `recheckRequest` without the reason of a refusal. -/
def recheck (v : CompilationRequest) : Option CompilationRequest :=
  match canonicalize v with
  | .error _ => none
  | .ok v' =>
    if v.requestIdentity = v'.requestIdentity ∧
        v.units.map (·.identityDigest) = v'.units.map (·.identityDigest) then some v'
    else none

theorem parse_recheckRequest (v : CompilationRequest) (rest : Bytes) :
    (recheckRequest v).parse rest = (recheck v).map (·, rest) := by
  rw [recheckRequest, recheck]
  cases canonicalize v with
  | error e => cases e <;> rfl
  | ok v' =>
    simp only [parse_ite, parse_pure, parse_refused, ite_and, map_ite, Option.map_some,
      Option.map_none]

def rereadRequest (v : CompilationRequest) : Option CompilationRequest :=
  if v.requestId.isZero = false then do
    let toolchain ← rereadToolchain v.toolchain
    let target ← rereadTarget v.target
    let specialization ← rereadSpecialization v.specialization
    let policy ← rereadPolicy v.policy
    let dependencies ← rereadDependencySet v.dependencies
    if v.validation.Acceptable then
      let units ← v.units.mapM rereadUnitSpec
      recheck { v with
        toolchain, target, specialization, policy, dependencies, units
        environment := canonicalizeEnvironment v.environment }
    else none
  else none

omit [HashFunction] in
theorem map_bind {α β γ : Type} (a : Option α) (f : α → Option β) (g : β → γ) :
    (a.bind f).map g = a.bind fun x => (f x).map g := by cases a <;> rfl

theorem parse_decodeRequest (v : CompilationRequest) (rest : Bytes)
    (h : (encodeRequest v).eachFits = true) :
    decodeRequest.parse ((encodeRequest v).bytes ++ rest) =
      (rereadRequest v).map (·, rest) := by
  simp only [encodeRequest, Record.join_cons, Record.join_nil, Record.eachFits_append,
    Record.eachFits_cons, Bool.and_eq_true] at h
  obtain ⟨hhead, htool, htarget, hspec, hpolicy, hdeps, henv, hflags, hval, hunits, -⟩ := h
  have units := hunits
  simp only [writeList, Record.eachFits_cons, Record.eachFits_flatMap, Bool.and_eq_true,
    List.all_eq_true] at units
  simp only [encodeRequest, decodeRequest, Record.join_cons, Record.join_nil, Record.bytes_append,
    Record.bytes_cons, Record.bytes_nil, List.append_assoc, List.nil_append, parse_readId,
    parse_readGen, parse_bind_of_map (parse_decodeToolchain _ _ htool),
    parse_bind_of_map (parse_decodeTarget _ _ htarget),
    parse_bind_of_map (parse_decodeSpecialization _ _ hspec),
    parse_bind_of_map (parse_decodePolicy _ _ hpolicy),
    parse_bind_of_map (parse_decodeDependencySet _ _ hdeps),
    parse_bind_of_parse (parse_decodeEnvironment _ _ henv), parse_readStringList _ _ _ hflags,
    parse_bind_of_guard (parse_decodeValidationRequirements _ _ hval),
    parse_readItems_mapM _ _ _ units.1 fun x hx rest => parse_decodeUnitSpec x rest (units.2 x hx),
    parse_readDigest, parse_recheckRequest, hhead, rereadRequest, map_ite, map_bind, Option.map_none,
    Option.bind_eq_bind]

-- ---------------------------------------------------------------------------
-- Capabilities
-- ---------------------------------------------------------------------------

def rereadCapabilities (v : WorkerCapabilities) : Option WorkerCapabilities := do
  let toolchains ← v.toolchains.mapM rereadToolchain
  let targets ← v.targets.mapM rereadTarget
  let value := canonicalizeCapabilities { v with
    toolchains, targets, sdks := v.sdks.map fun x => { name := x.name, version := x.version } }
  if v.digest = value.digest then some value else none

theorem parse_decodeCapabilities (v : WorkerCapabilities) (rest : Bytes)
    (h : (encodeCapabilities v).eachFits = true) :
    decodeCapabilities.parse ((encodeCapabilities v).bytes ++ rest) =
      (rereadCapabilities v).map (·, rest) := by
  simp only [encodeCapabilities, Record.join_cons, Record.join_nil, Record.eachFits_append,
    Record.eachFits_cons, Bool.and_eq_true] at h
  obtain ⟨htools, htargets, hformats, hplugins, hsdks, htail, -⟩ := h
  simp only [writeList, Record.eachFits_cons, Record.eachFits_flatMap, Bool.and_eq_true,
    List.all_eq_true] at htools htargets
  have format : ∀ x : InputFormat, Record.eachFits [.enum x] = true → ∀ rest,
      (readEnum : Reader InputFormat).parse (Record.bytes [.enum x] ++ rest) = some (x, rest) := by
    intro x _ rest
    rw [Record.bytes_singleton]
    exact parse_of_run (run_readEnum x)
  simp only [encodeCapabilities, decodeCapabilities, Record.join_cons, Record.join_nil,
    Record.bytes_append, Record.bytes_cons, Record.bytes_nil, List.append_assoc, List.nil_append,
    parse_readItems_mapM _ _ _ htools.1 fun x hx rest => parse_decodeToolchain x rest (htools.2 x hx),
    parse_readItems_mapM _ _ _ htargets.1 fun x hx rest => parse_decodeTarget x rest (htargets.2 x hx),
    parse_plainItems _ _ _ hformats format, parse_readPlugins _ _ _ hplugins,
    parse_readSdks _ _ _ hsdks, parse_readU32, parse_readU64, parse_readBool, parse_readEnum,
    parse_readStr, parse_readDigest, htail, parse_ite, parse_pure, parse_refused,
    rereadCapabilities, map_ite, map_bind, Option.map_some, Option.map_none, Option.bind_eq_bind]

end DistributedCompilation
