import DistributedCompilation.Lib.Reads
import DistributedCompilation.Runtime.Validate

/-!
# Distributed Compilation — what probing reads

The probes of `validate.cpp` with the indices they read. Every access follows a
guard on the length; the one that does not follow from its guard alone is the
machine field of an image, whose offset is added up in 32 bits and may come out at
the start of the file.
-/

namespace DistributedCompilation

namespace Traced

open Reads

-- ---------------------------------------------------------------------------
-- Reading
-- ---------------------------------------------------------------------------

/-- `has_prefix`: the length is compared first, then `memcmp` reads the whole prefix. -/
def hasPrefix (bytes text : Bytes) : Reads Bool :=
  if bytes.length < text.length then pure false
  else do
    let front ← span bytes 0 text.length
    pure (front == text)

def readLe16 (bytes : Bytes) (offset : Nat) : Reads Nat := do
  let low ← byte bytes offset
  let high ← byte bytes (offset + 1)
  pure (low.toNat + 256 * high.toNat)

def readLe32 (bytes : Bytes) (offset : Nat) : Reads Nat := do
  let low ← readLe16 bytes offset
  let high ← readLe16 bytes (offset + 2)
  pure (low + 65536 * high)

/-- `looks_like_text`: the loop over the sample reads it byte by byte. -/
def looksLikeText (bytes : Bytes) : Reads Bool := do
  let sample ← span bytes 0 (min bytes.length 4096)
  let printable := sample.countP fun c => c == 10 || c == 13 || c == 9 || (32 ≤ c && c < 127)
  pure (decide (0 < sample.length) && decide (sample.length * 95 ≤ printable * 100))

-- ---------------------------------------------------------------------------
-- Probes
-- ---------------------------------------------------------------------------

def probePe (bytes : Bytes) : Reads FormatProbe := do
  let image ← hasPrefix bytes (txt "MZ")
  if !image || bytes.length < 0x40 then pure {}
  else do
    let peOffset ← readLe32 bytes 0x3C
    if bytes.length < peOffset || bytes.length - peOffset < 24 then pure {}
    else do
      let signature ← span bytes peOffset 4
      if signature ≠ [80, 69, 0, 0] then pure {}
      else do
        let machine ← readLe16 bytes ((peOffset + 4) % 2 ^ 32)
        pure { recognized := true, isPe := true, machine, machineIsCoff := true
               description := txt "PE image, machine=0x" ++ hex16 machine }

def probeElf (bytes : Bytes) : Reads FormatProbe := do
  let image ← hasPrefix bytes [0x7f, 69, 76, 70]
  if !image || bytes.length < 20 then pure {}
  else do
    let type ← readLe16 bytes 16
    let machine ← readLe16 bytes 18
    let cubin := machine == kElfMachineCuda
    pure { recognized := true, isElf := true, machine, machineIsElf := true, isCubin := cubin
           description :=
            if cubin then txt "ELF CUDA device image (cubin)"
            else if type = 1 then txt "ELF relocatable object"
            else if type = 2 then txt "ELF executable"
            else if type = 3 then txt "ELF shared object"
            else txt "ELF image type " ++ decimal type }

/-- The timestamp is read and not used. -/
def probeCoffObject (bytes : Bytes) : Reads FormatProbe :=
  if bytes.length < 20 then pure {}
  else do
    let machine ← readLe16 bytes 0
    let sections ← readLe16 bytes 2
    let _ ← readLe32 bytes 4
    let optionalSize ← readLe16 bytes 16
    if machine ∉ [kCoffMachineAmd64, kCoffMachineArm64, 0x14C, 0x1C0, 0x1C4, 0xAA64] then pure {}
    else if sections = 0 ∨ 4096 < sections then pure {}
    else if optionalSize ≠ 0 then pure {}
    else
      pure { recognized := true, machine, machineIsCoff := true
             description := txt "COFF object, sections=" ++ decimal sections }

/-- The searches read inside the first 512 bytes. -/
def probePtx (bytes : Bytes) : Reads FormatProbe := do
  let isText ← looksLikeText bytes
  if !isText then pure {}
  else do
    let text ← span bytes 0 (min bytes.length 512)
    if containsText (txt ".version") text || containsText (txt ".target") text ||
        DistributedCompilation.hasPrefix text (txt "//") then
      pure { recognized := true, description := txt "PTX text module" }
    else pure {}

def probeFormat (bytes : Bytes) : Reads FormatProbe :=
  if bytes.isEmpty then pure {}
  else do
    let pe ← probePe bytes
    if pe.recognized then pure pe
    else do
      let elf ← probeElf bytes
      if elf.recognized then pure elf
      else do
        let coff ← probeCoffObject bytes
        if coff.recognized then pure coff else probePtx bytes

-- ---------------------------------------------------------------------------
-- The checks that read
-- ---------------------------------------------------------------------------

/-- The format of device assembly; the text is only looked at when it was recognised. -/
def isPtx (bytes : Bytes) (probe : FormatProbe) : Reads Bool :=
  if probe.recognized then looksLikeText bytes else pure false

/-- The prefix and text checks; the other kinds only look at the probe. -/
def formatCheck (bytes : Bytes) (kind : OutputKind) (target : TargetIdentity) (probe : FormatProbe) :
    Reads ValidationCheck :=
  match kind with
  | .staticLibrary => do
    let archive ← hasPrefix bytes (txt "!<arch>\n")
    pure (passOrFail "format" archive (txt "COFF/ELF archive") (txt "expected an archive ('!<arch>')"))
  | .ptx => do
    let isText ← isPtx bytes probe
    pure (passOrFail "format" isText probe.description (txt "expected PTX text"))
  | .assembly | .preprocessedSource => do
    let isText ← looksLikeText bytes
    pure (passOrFail "format" isText (txt "text output") (txt "expected text output"))
  | _ => pure (DistributedCompilation.formatCheck bytes kind target probe)

/-- The digest check, where it is required; hashing reads every byte. -/
def digestChecks [HashFunction] (bytes : Bytes) (requirements : ValidationRequirements) (expected : Digest256) :
    Reads (List ValidationCheck) :=
  if requirements.requireDigestCheck then do
    let content ← span bytes 0 bytes.length
    pure [digestCheck content expected]
  else pure []

/-- The format check, where it is required. -/
def formatChecks (bytes : Bytes) (kind : OutputKind) (target : TargetIdentity)
    (requirements : ValidationRequirements) (probe : FormatProbe) : Reads (List ValidationCheck) :=
  if requirements.requireFormatCheck then do
    let check ← formatCheck bytes kind target probe
    pure [check]
  else pure []

/-- `validate_artifact_bytes`. -/
def validateArtifactBytes [HashFunction] (bytes : Bytes) (kind : OutputKind) (target : TargetIdentity)
    (requirements : ValidationRequirements) (expected : Digest256) : Reads ValidationReport := do
  let digest ← digestChecks bytes requirements expected
  let probe ← probeFormat bytes
  let format ← formatChecks bytes kind target requirements probe
  let checks := List.flatten [
    [existenceCheck bytes],
    digest,
    format,
    if requirements.requireTargetMetadata then [targetMetadataCheck kind target probe] else [],
    if requirements.requireDependencyMetadata then [dependencyMetadataCheck bytes] else []]
  pure {
    checks
    aggregate := aggregate checks
    summary := txt "checks=" ++ decimal checks.length ++ txt " failures=" ++
      decimal (checks.countP (·.outcome == .fail)) ++ txt " unknown=" ++
      decimal (checks.countP (·.outcome == .unknown)) }

-- ---------------------------------------------------------------------------
-- What is computed
-- ---------------------------------------------------------------------------

theorem take_min (bytes : Bytes) (n : Nat) : (bytes.drop 0).take (min bytes.length n) = bytes.take n := by
  rw [List.drop_zero, List.take_eq_take_iff]
  omega

theorem value_hasPrefix (bytes text : Bytes) :
    (hasPrefix bytes text).value = DistributedCompilation.hasPrefix bytes text := by
  unfold hasPrefix DistributedCompilation.hasPrefix
  split
  next hshort =>
    rw [value_pure, eq_comm, ← Bool.not_eq_true, List.isPrefixOf_iff_prefix]
    exact fun hprefix => absurd hprefix.length_le (by omega)
  next hlong =>
    have hiff : bytes.take text.length = text ↔ text <+: bytes := by
      rw [List.prefix_iff_eq_take, eq_comm]
    rw [value_bind, value_pure, value_span, List.drop_zero, Bool.eq_iff_iff, beq_iff_eq, hiff,
      List.isPrefixOf_iff_prefix]

@[simp] theorem value_readLe16 (bytes : Bytes) (offset : Nat) :
    (readLe16 bytes offset).value = DistributedCompilation.readLe16 bytes offset := rfl

@[simp] theorem value_readLe32 (bytes : Bytes) (offset : Nat) :
    (readLe32 bytes offset).value = DistributedCompilation.readLe32 bytes offset := rfl

theorem value_looksLikeText (bytes : Bytes) :
    (looksLikeText bytes).value = DistributedCompilation.looksLikeText bytes := by
  unfold looksLikeText DistributedCompilation.looksLikeText
  rw [value_bind, value_span, take_min]
  rfl

theorem value_probePe (bytes : Bytes) : (probePe bytes).value = DistributedCompilation.probePe bytes := by
  unfold probePe DistributedCompilation.probePe
  rw [value_bind, value_hasPrefix]
  split
  next => rfl
  next =>
    rw [value_bind, value_readLe32]
    dsimp only
    split
    next => rfl
    next =>
      rw [value_bind, value_span]
      split
      next => rfl
      next => rfl

theorem value_probeElf (bytes : Bytes) : (probeElf bytes).value = DistributedCompilation.probeElf bytes := by
  unfold probeElf DistributedCompilation.probeElf
  rw [value_bind, value_hasPrefix]
  split
  next => rfl
  next => rfl

theorem value_probeCoffObject (bytes : Bytes) :
    (probeCoffObject bytes).value = DistributedCompilation.probeCoffObject bytes := by
  unfold probeCoffObject DistributedCompilation.probeCoffObject
  split
  next => rfl
  next =>
    rw [value_bind, value_bind, value_bind, value_bind, value_ite, value_ite, value_ite]
    rfl

theorem value_probePtx (bytes : Bytes) : (probePtx bytes).value = DistributedCompilation.probePtx bytes := by
  unfold probePtx DistributedCompilation.probePtx
  rw [value_bind, value_looksLikeText]
  split
  next => rfl
  next =>
    rw [value_bind, value_span, take_min]
    dsimp only
    split
    next => rfl
    next => rfl

theorem value_probeFormat (bytes : Bytes) : (probeFormat bytes).value = DistributedCompilation.probeFormat bytes := by
  unfold probeFormat DistributedCompilation.probeFormat
  split
  next => rfl
  next =>
    rw [value_bind, value_probePe]
    split
    next => rfl
    next =>
      rw [value_bind, value_probeElf]
      split
      next => rfl
      next =>
        rw [value_bind, value_probeCoffObject]
        split
        next => rfl
        next => exact value_probePtx bytes

theorem value_formatCheck (bytes : Bytes) (kind : OutputKind) (target : TargetIdentity) (probe : FormatProbe) :
    (formatCheck bytes kind target probe).value = DistributedCompilation.formatCheck bytes kind target probe := by
  unfold formatCheck DistributedCompilation.formatCheck
  cases kind with
  | staticLibrary =>
    dsimp only
    rw [value_bind, value_hasPrefix]
    rfl
  | ptx =>
    have hptx : (isPtx bytes probe).value = (probe.recognized && DistributedCompilation.looksLikeText bytes) := by
      unfold isPtx
      cases probe.recognized
      · rfl
      · exact value_looksLikeText bytes
    dsimp only
    rw [value_bind, hptx]
    rfl
  | assembly =>
    dsimp only
    rw [value_bind, value_looksLikeText]
    rfl
  | preprocessedSource =>
    dsimp only
    rw [value_bind, value_looksLikeText]
    rfl
  | object => rfl
  | executable => rfl
  | dynamicLibrary => rfl
  | cubin => rfl

/-- The report is that of the validator. -/
theorem value_validateArtifactBytes [HashFunction] (bytes : Bytes) (kind : OutputKind) (target : TargetIdentity)
    (requirements : ValidationRequirements) (expected : Digest256) :
    (validateArtifactBytes bytes kind target requirements expected).value =
      DistributedCompilation.validateArtifactBytes bytes kind target requirements expected := by
  have hdigest : (digestChecks bytes requirements expected).value =
      if requirements.requireDigestCheck then [digestCheck bytes expected] else [] := by
    unfold digestChecks
    split
    · rw [value_bind, value_span, List.drop_zero, List.take_length]
      rfl
    · rfl
  have hformat (probe : FormatProbe) : (formatChecks bytes kind target requirements probe).value =
      if requirements.requireFormatCheck then [DistributedCompilation.formatCheck bytes kind target probe] else [] := by
    unfold formatChecks
    split
    · rw [value_bind, value_formatCheck]
      rfl
    · rfl
  unfold validateArtifactBytes DistributedCompilation.validateArtifactBytes
  rw [value_bind, hdigest, value_bind, value_probeFormat, value_bind, hformat]
  rfl

-- ---------------------------------------------------------------------------
-- What is read
-- ---------------------------------------------------------------------------

variable {bytes : Bytes}

theorem within_hasPrefix (text : Bytes) : (hasPrefix bytes text).Within bytes.length := by
  unfold hasPrefix
  split
  next => exact within_pure _
  next hlong => exact within_bind (within_span (by omega)) (within_pure _)

theorem within_readLe16 {offset : Nat} (h : offset + 2 ≤ bytes.length) : (readLe16 bytes offset).Within bytes.length :=
  within_bind (within_byte (by omega)) (within_bind (within_byte (by omega)) (within_pure _))

theorem within_readLe32 {offset : Nat} (h : offset + 4 ≤ bytes.length) : (readLe32 bytes offset).Within bytes.length :=
  within_bind (within_readLe16 (by omega)) (within_bind (within_readLe16 (by omega)) (within_pure _))

theorem within_looksLikeText : (looksLikeText bytes).Within bytes.length :=
  within_bind (within_span (by omega)) (within_pure _)

/-- The guard leaves room for the header behind the offset, and an offset that wraps
is behind the start of a longer file. -/
theorem within_probePe : (probePe bytes).Within bytes.length := by
  unfold probePe
  refine within_bind (within_hasPrefix _) ?_
  split
  next => exact within_pure _
  next hlong =>
    rw [Bool.or_eq_true, not_or, decide_eq_true_iff] at hlong
    refine within_bind (within_readLe32 (by omega)) ?_
    rw [value_readLe32]
    split
    next => exact within_pure _
    next hroom =>
      rw [Bool.or_eq_true, decide_eq_true_iff, decide_eq_true_iff] at hroom
      refine within_bind (within_span (by omega)) ?_
      split
      next => exact within_pure _
      next =>
        have hwrap : (DistributedCompilation.readLe32 bytes 0x3C + 4) % 2 ^ 32 ≤
            DistributedCompilation.readLe32 bytes 0x3C + 4 := Nat.mod_le _ _
        exact within_bind (within_readLe16 (by omega)) (within_pure _)

theorem within_probeElf : (probeElf bytes).Within bytes.length := by
  unfold probeElf
  refine within_bind (within_hasPrefix _) ?_
  split
  next => exact within_pure _
  next hlong =>
    rw [Bool.or_eq_true, not_or, decide_eq_true_iff] at hlong
    exact within_bind (within_readLe16 (by omega)) (within_bind (within_readLe16 (by omega)) (within_pure _))

theorem within_probeCoffObject : (probeCoffObject bytes).Within bytes.length := by
  unfold probeCoffObject
  split
  next => exact within_pure _
  next hlong =>
    refine within_bind (within_readLe16 (by omega)) (within_bind (within_readLe16 (by omega))
      (within_bind (within_readLe32 (by omega)) (within_bind (within_readLe16 (by omega)) ?_)))
    split
    next => exact within_pure _
    next =>
      split
      next => exact within_pure _
      next =>
        split
        next => exact within_pure _
        next => exact within_pure _

theorem within_probePtx : (probePtx bytes).Within bytes.length := by
  unfold probePtx
  refine within_bind within_looksLikeText ?_
  split
  next => exact within_pure _
  next =>
    refine within_bind (within_span (by omega)) ?_
    split
    next => exact within_pure _
    next => exact within_pure _

theorem within_probeFormat : (probeFormat bytes).Within bytes.length := by
  unfold probeFormat
  split
  next => exact within_pure _
  next =>
    refine within_bind within_probePe ?_
    split
    next => exact within_pure _
    next =>
      refine within_bind within_probeElf ?_
      split
      next => exact within_pure _
      next =>
        refine within_bind within_probeCoffObject ?_
        split
        next => exact within_pure _
        next => exact within_probePtx

theorem within_formatCheck (kind : OutputKind) (target : TargetIdentity) (probe : FormatProbe) :
    (formatCheck bytes kind target probe).Within bytes.length := by
  unfold formatCheck
  cases kind with
  | staticLibrary => exact within_bind (within_hasPrefix _) (within_pure _)
  | ptx =>
    refine within_bind ?_ (within_pure _)
    unfold isPtx
    split
    · exact within_looksLikeText
    · exact within_pure _
  | assembly => exact within_bind within_looksLikeText (within_pure _)
  | preprocessedSource => exact within_bind within_looksLikeText (within_pure _)
  | object => exact within_pure _
  | executable => exact within_pure _
  | dynamicLibrary => exact within_pure _
  | cubin => exact within_pure _

/-- Validation computes its report from bytes that are there, and so does each probe by
itself. -/
theorem probing_within [HashFunction] (bytes : Bytes) (kind : OutputKind) (target : TargetIdentity)
    (requirements : ValidationRequirements) (expected : Digest256) :
    (validateArtifactBytes bytes kind target requirements expected).value =
        DistributedCompilation.validateArtifactBytes bytes kind target requirements expected ∧
      (∀ i ∈ (validateArtifactBytes bytes kind target requirements expected).indices, i < bytes.length) ∧
      (∀ probe ∈ [probePe, probeElf, probeCoffObject, probePtx], ∀ i ∈ (probe bytes).indices, i < bytes.length) ∧
      (∀ i ∈ (looksLikeText bytes).indices, i < bytes.length) ∧
      ∀ text : Bytes, ∀ i ∈ (hasPrefix bytes text).indices, i < bytes.length := by
  have hprobes : ∀ probe ∈ [probePe, probeElf, probeCoffObject, probePtx], (probe bytes).Within bytes.length := by
    simp only [List.forall_mem_cons]
    exact ⟨within_probePe, within_probeElf, within_probeCoffObject, within_probePtx, fun _ h => nomatch h⟩
  refine ⟨value_validateArtifactBytes .., ?_, hprobes, within_looksLikeText, within_hasPrefix⟩
  show (validateArtifactBytes bytes kind target requirements expected).Within bytes.length
  unfold validateArtifactBytes
  refine within_bind ?_ (within_bind within_probeFormat (within_bind ?_ (within_pure _)))
  · unfold digestChecks
    split
    · exact within_bind (within_span (by omega)) (within_pure _)
    · exact within_pure _
  · unfold formatChecks
    split
    · exact within_bind (within_formatCheck kind target _) (within_pure _)
    · exact within_pure _

end Traced

end DistributedCompilation
