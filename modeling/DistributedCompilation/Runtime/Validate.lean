import DistributedCompilation.Base.Digest
import DistributedCompilation.Domain.Records

/-!
# Distributed Compilation — artifact validation

`validate.cpp`: what the bytes of an artifact say about its container format
and machine, and the checks of `validate_artifact_bytes` built on it.
-/

namespace DistributedCompilation

-- ---------------------------------------------------------------------------
-- Probes
-- ---------------------------------------------------------------------------

def byteAt (bytes : Bytes) (offset : Nat) : Nat := (bytes.getD offset 0).toNat

def readLe16 (bytes : Bytes) (offset : Nat) : Nat :=
  byteAt bytes offset + 256 * byteAt bytes (offset + 1)

def readLe32 (bytes : Bytes) (offset : Nat) : Nat :=
  readLe16 bytes offset + 65536 * readLe16 bytes (offset + 2)

def hasPrefix (bytes : Bytes) (text : Bytes) : Bool := text.isPrefixOf bytes

def kCoffMachineAmd64 : Nat := 0x8664
def kCoffMachineArm64 : Nat := 0xAA64
def kElfMachineX8664 : Nat := 0x3E
def kElfMachineAarch64 : Nat := 0xB7
def kElfMachineCuda : Nat := 0xBE

def expectedMachineName : ArchKind → Bytes
  | .x86_64 => txt "x86_64"
  | .aarch64 => txt "aarch64"
  | _ => txt "unknown"

def expectedCoffMachine : ArchKind → Nat
  | .x86_64 => kCoffMachineAmd64
  | .aarch64 => kCoffMachineArm64
  | _ => 0

def expectedElfMachine : ArchKind → Nat
  | .x86_64 => kElfMachineX8664
  | .aarch64 => kElfMachineAarch64
  | _ => 0

def looksLikeText (bytes : Bytes) : Bool :=
  let sample := bytes.take 4096
  let printable := sample.countP fun c => c == 10 || c == 13 || c == 9 || (32 ≤ c && c < 127)
  0 < sample.length && sample.length * 95 ≤ printable * 100

structure FormatProbe where
  recognized : Bool := false
  description : Bytes := []
  machine : Nat := 0
  machineIsCoff : Bool := false
  machineIsElf : Bool := false
  isPe : Bool := false
  isElf : Bool := false
  isCubin : Bool := false
deriving DecidableEq

/-- Four lower-case hexadecimal digits. -/
def hex16 (n : Nat) : Bytes :=
  [12, 8, 4, 0].map fun shift => Digest256.hexDigit (UInt8.ofNat (n >>> shift % 16))

def probePe (bytes : Bytes) : FormatProbe :=
  if !hasPrefix bytes (txt "MZ") || bytes.length < 0x40 then {}
  else
    let peOffset := readLe32 bytes 0x3C
    if bytes.length < peOffset || bytes.length - peOffset < 24 then {}
    else if (bytes.drop peOffset).take 4 ≠ [80, 69, 0, 0] then {}
    else
      -- `pe_offset + 4` is an addition of 32 bits
      let machine := readLe16 bytes ((peOffset + 4) % 2 ^ 32)
      { recognized := true, isPe := true, machine, machineIsCoff := true
        description := txt "PE image, machine=0x" ++ hex16 machine }

def probeElf (bytes : Bytes) : FormatProbe :=
  if !hasPrefix bytes [0x7f, 69, 76, 70] || bytes.length < 20 then {}
  else
    let type := readLe16 bytes 16
    let machine := readLe16 bytes 18
    let cubin := machine == kElfMachineCuda
    { recognized := true, isElf := true, machine, machineIsElf := true, isCubin := cubin
      description :=
        if cubin then txt "ELF CUDA device image (cubin)"
        else if type = 1 then txt "ELF relocatable object"
        else if type = 2 then txt "ELF executable"
        else if type = 3 then txt "ELF shared object"
        else txt "ELF image type " ++ decimal type }

def probeCoffObject (bytes : Bytes) : FormatProbe :=
  if bytes.length < 20 then {}
  else
    let machine := readLe16 bytes 0
    let sections := readLe16 bytes 2
    let optionalSize := readLe16 bytes 16
    if machine ∉ [kCoffMachineAmd64, kCoffMachineArm64, 0x14C, 0x1C0, 0x1C4, 0xAA64] then {}
    else if sections = 0 ∨ 4096 < sections then {}
    else if optionalSize ≠ 0 then {}
    else
      { recognized := true, machine, machineIsCoff := true
        description := txt "COFF object, sections=" ++ decimal sections }

/-- `std::string_view::find` as a yes-or-no question. -/
def containsText (needle haystack : Bytes) : Bool := haystack.tails.any needle.isPrefixOf

def probePtx (bytes : Bytes) : FormatProbe :=
  if !looksLikeText bytes then {}
  else
    let text := bytes.take 512
    if containsText (txt ".version") text || containsText (txt ".target") text ||
        hasPrefix text (txt "//") then
      { recognized := true, description := txt "PTX text module" }
    else {}

/-- `machine_matches_target`; a refusal carries the detail. -/
def machineMatchesTarget (probe : FormatProbe) (target : TargetIdentity) : Except Bytes Unit :=
  let expectedCoff := expectedCoffMachine target.arch
  let expectedElf := expectedElfMachine target.arch
  if probe.machineIsCoff && probe.isPe then
    if expectedCoff = 0 then .error (txt "no expected COFF machine for target architecture")
    else if probe.machine ≠ expectedCoff then
      .error (txt "PE machine 0x" ++ decimal probe.machine ++ txt " does not match target " ++
        expectedMachineName target.arch)
    else .ok ()
  else if probe.machineIsCoff then
    -- accepted before the target's architecture is looked at
    if probe.machine = 0x14C then .ok ()
    else if expectedCoff = 0 then .error (txt "no expected COFF machine for target architecture")
    else if probe.machine ≠ expectedCoff then
      .error (txt "COFF machine does not match target " ++ expectedMachineName target.arch)
    else .ok ()
  else if probe.machineIsElf then
    if probe.isCubin then .ok ()
    else if expectedElf = 0 then .error (txt "no expected ELF machine for target architecture")
    else if probe.machine ≠ expectedElf then
      .error (txt "ELF machine does not match target " ++ expectedMachineName target.arch)
    else .ok ()
  else .ok ()

/-- The first probe that recognises the bytes. -/
def probeFormat (bytes : Bytes) : FormatProbe :=
  if bytes.isEmpty then {}
  else if (probePe bytes).recognized then probePe bytes
  else if (probeElf bytes).recognized then probeElf bytes
  else if (probeCoffObject bytes).recognized then probeCoffObject bytes
  else probePtx bytes

-- ---------------------------------------------------------------------------
-- Checks
-- ---------------------------------------------------------------------------

/-- A check that passes with one detail and fails with another. -/
def passOrFail (check : String) (ok : Bool) (passed failed : Bytes) : ValidationCheck :=
  if ok then { check := txt check, outcome := .pass, detail := passed }
  else { check := txt check, outcome := .fail, detail := failed }

def existenceCheck (bytes : Bytes) : ValidationCheck :=
  passOrFail "existence" (!bytes.isEmpty) (txt "artifact present") (txt "artifact is empty")

def digestCheck [HashFunction] (bytes : Bytes) (expected : Digest256) : ValidationCheck :=
  let actual := sha256 bytes
  if expected.isZero then passOrFail "digest" false [] (txt "expected digest is absent")
  else passOrFail "digest" (actual == expected) actual.hex
    (txt "artifact digest does not match the declared digest")

def formatCheck (bytes : Bytes) (kind : OutputKind) (target : TargetIdentity)
    (probe : FormatProbe) : ValidationCheck :=
  match kind with
  | .executable | .dynamicLibrary =>
    if target.os = .windows then
      passOrFail "format" probe.isPe probe.description
        (txt "expected a PE image for a Windows target")
    else
      passOrFail "format" (probe.isElf && !probe.isCubin) probe.description
        (txt "expected an ELF image for the target OS")
  | .object =>
    if target.objectFormat = .coff then
      passOrFail "format" (probe.machineIsCoff && !probe.isPe) probe.description
        (txt "expected a COFF object")
    else if target.objectFormat = .elf then
      passOrFail "format" (probe.isElf && !probe.isCubin) probe.description
        (txt "expected an ELF object")
    else
      passOrFail "format" (probe.machineIsCoff || probe.isElf) probe.description
        (txt "expected an object file")
  | .staticLibrary =>
    passOrFail "format" (hasPrefix bytes (txt "!<arch>\n")) (txt "COFF/ELF archive")
      (txt "expected an archive ('!<arch>')")
  | .cubin =>
    passOrFail "format" probe.isCubin probe.description (txt "expected an ELF CUDA device image")
  | .ptx =>
    passOrFail "format" (probe.recognized && looksLikeText bytes) probe.description
      (txt "expected PTX text")
  | .assembly | .preprocessedSource =>
    passOrFail "format" (looksLikeText bytes) (txt "text output") (txt "expected text output")

/-- Target metadata can only be checked where the format carries it. -/
def targetMetadataCheck (kind : OutputKind) (target : TargetIdentity) (probe : FormatProbe) :
    ValidationCheck :=
  if kind = .assembly ∨ kind = .preprocessedSource then
    { check := txt "target_metadata", outcome := .pass
      detail := txt "not applicable: text output carries no embedded target metadata" }
  else if probe.recognized then
    match machineMatchesTarget probe target with
    | .ok () => { check := txt "target_metadata", outcome := .pass, detail := probe.description }
    | .error detail => { check := txt "target_metadata", outcome := .fail, detail }
  else
    { check := txt "target_metadata", outcome := .unknown
      detail := txt "artifact format was not recognised, so target metadata could not be checked" }

def dependencyMetadataCheck (bytes : Bytes) : ValidationCheck :=
  passOrFail "dependency_metadata" (!bytes.isEmpty) (txt "dependency binding recorded in provenance")
    (txt "no artifact to inspect")

/-- One failing check fails the report; an unknown one keeps it from passing. -/
def aggregate (checks : List ValidationCheck) : ValidationOutcome :=
  if checks.any (·.outcome == .fail) then .fail
  else if checks.any (·.outcome == .unknown) then .unknown
  else .pass

def validateArtifactBytes [HashFunction] (bytes : Bytes) (kind : OutputKind)
    (target : TargetIdentity) (requirements : ValidationRequirements) (expected : Digest256) :
    ValidationReport :=
  let probe := probeFormat bytes
  let checks := List.flatten [
    [existenceCheck bytes],
    if requirements.requireDigestCheck then [digestCheck bytes expected] else [],
    if requirements.requireFormatCheck then [formatCheck bytes kind target probe] else [],
    if requirements.requireTargetMetadata then [targetMetadataCheck kind target probe] else [],
    if requirements.requireDependencyMetadata then [dependencyMetadataCheck bytes] else []]
  { checks
    aggregate := aggregate checks
    summary := txt "checks=" ++ decimal checks.length ++ txt " failures=" ++
      decimal (checks.countP (·.outcome == .fail)) ++ txt " unknown=" ++
      decimal (checks.countP (·.outcome == .unknown)) }

end DistributedCompilation
